import Mathlib.Data.Set.List
import MulticastTunnel.Proofs.Query.Wire
import MulticastTunnel.Proofs.TimeCode

/-!
# Queries as they are written

What is read from the packet that `Query.encode` writes. A query is read back with all its parts,
but there are codes for some times only, so delay and interval come back rounded down. A query that
was itself read has such times already, and is read back as it is.

* `Query.IsWritable` : the queries whose parts fit their fields.
* `Query.RoundsTo` : what is left of a query when its times are rounded down.
* `Query.Igmp.encode_reads`, `Query.Mld.encode_reads` : what is read from the packet of a query.
* `Query.Igmp.isTold_of_decode`, `Query.Mld.isTold_of_decode` : queries that were read.
* `Query.decode_encode_rounds` : **writing and reading queries agree**, up to rounding.
-/

namespace MulticastTunnel

namespace Address

theorem exists_v4 {a : Address} (h : a.isV4 = true) : ∃ bits, v4 bits = a := by
  cases a with
  | v4 bits => exact ⟨bits, rfl⟩
  | v6 bits => nomatch h

theorem exists_v6 {a : Address} (h : a.isV4 = false) : ∃ bits, v6 bits = a := by
  cases a with
  | v4 bits => nomatch h
  | v6 bits => exact ⟨bits, rfl⟩

end Address

namespace Query

/-! ### What can be written -/

/-- The delays that a querier can announce: in IGMP they count tenths of a second, in MLD
milliseconds. -/
def delays : Address → Set Duration
  | .v4 _ => Set.range fun code => Duration.ofMillis (100 * TimeCode.decode8 code)
  | .v6 _ => Set.range fun code => Duration.ofMillis (TimeCode.decode16 code)

/-- The query intervals that a querier can tell, in seconds. -/
def intervals : Set Duration := Set.range fun code => Duration.ofSeconds (TimeCode.decode8 code)

/-- The number of whole units in the delay of a query. -/
def delayUnits (q : Query) : Address → Nat
  | .v4 _ => q.maxResponseDelay.asMillis / 100
  | .v6 _ => q.maxResponseDelay.asMillis

/-- What the length field of a query's packet has to hold: in IPv4 the length of header and message,
in IPv6 that of the router alert and the message. -/
def packetLength (q : Query) : Address → Nat
  | .v4 _ => 24 + 12 + 4 * q.sources.length
  | .v6 _ => 8 + 28 + 16 * q.sources.length

/-- The parts of a query fit their fields: all addresses are of the querier's family, the group is
not the unspecified address, which stands for no group, the robustness takes one to three bits, and
the times are counted in 32 bits. -/
structure IsWritable (querier : Address) (q : Query) : Prop where
  group : ∀ g ∈ q.group, g.isV4 = querier.isV4 ∧ g.isUnspecified = false
  sources : ∀ s ∈ q.sources, s.isV4 = querier.isV4
  robustness : ∀ r ∈ q.robustness, 1 ≤ r ∧ r ≤ 7
  delay : q.delayUnits querier < 2 ^ 32
  interval : ∀ i ∈ q.interval, i.asSeconds < 2 ^ 32

/-- What is left of a query when its times are rounded down to times that there are codes for; an
interval that is rounded down to zero is not told. -/
structure RoundsTo (querier : Address) (q q' : Query) : Prop where
  group : q'.group = q.group
  sources : q'.sources = q.sources
  suppress : q'.suppressRouterProcessing = q.suppressRouterProcessing
  robustness : q'.robustness = q.robustness
  delay : IsGreatest {d ∈ delays querier | d ≤ q.maxResponseDelay} q'.maxResponseDelay
  noInterval : q.interval = none → q'.interval = none
  interval : ∀ i ∈ q.interval, ∃ i', IsGreatest {x ∈ intervals | x ≤ i} i' ∧
    q'.interval = if i' = 0 then none else some i'

/-! ### Rounding -/

theorem delay_rounds_v4 (querier : BitVec 32) (d : Duration) :
    IsGreatest {x ∈ delays (.v4 querier) | x ≤ d}
      (.ofMillis (100 * TimeCode.decode8 (TimeCode.encode8 (d.asMillis / 100)))) := by
  have gc : @GaloisConnection Nat Nat _ _ (fun n => Duration.ofMillis (100 * n))
      fun d => Duration.asMillis d / 100 := by
    intro n d
    show 100 * n * 1000000 ≤ d ↔ n ≤ d / 1000000 / 100
    omega
  exact TimeCode.isGreatest_range gc TimeCode.isGreatest_decode8 d

theorem delay_rounds_v6 (querier : BitVec 128) (d : Duration) :
    IsGreatest {x ∈ delays (.v6 querier) | x ≤ d}
      (.ofMillis (TimeCode.decode16 (TimeCode.encode16 d.asMillis))) := by
  have gc : @GaloisConnection Nat Nat _ _ Duration.ofMillis Duration.asMillis := by
    intro n d
    show n * 1000000 ≤ d ↔ n ≤ d / 1000000
    omega
  exact TimeCode.isGreatest_range gc TimeCode.isGreatest_decode16 d

theorem interval_rounds (i : Duration) : IsGreatest {x ∈ intervals | x ≤ i}
    (.ofSeconds (TimeCode.decode8 (TimeCode.encode8 i.asSeconds))) := by
  have gc : @GaloisConnection Nat Nat _ _ Duration.ofSeconds Duration.asSeconds := by
    intro n d
    show n * 1000000000 ≤ d ↔ n ≤ d / 1000000000
    omega
  exact TimeCode.isGreatest_range gc TimeCode.isGreatest_decode8 i

theorem isGreatest_self {S : Set Duration} {d : Duration} (h : d ∈ S) :
    IsGreatest {x ∈ S | x ≤ d} d := ⟨⟨h, le_rfl⟩, fun _ hx => hx.2⟩

theorem RoundsTo.eq_of_self {querier : Address} {q q' : Query} (self : q.RoundsTo querier q)
    (h : q.RoundsTo querier q') : q' = q := by
  obtain ⟨group, sources, suppress, robustness, delay, noInterval, interval⟩ := h
  have interval' : q'.interval = q.interval := by
    cases hi : q.interval with
    | none => exact noInterval hi
    | some i =>
      obtain ⟨told, greatest, new⟩ := interval i hi
      obtain ⟨told', greatest', old⟩ := self.interval i hi
      rw [new, ← hi, old, greatest.unique greatest']
  have delay' : q'.maxResponseDelay = q.maxResponseDelay := delay.unique self.delay
  obtain ⟨⟩ := q
  obtain ⟨⟩ := q'
  simp_all

/-! ### Parts of both wire forms -/

/-- What is read from the bytes with the flags and the code of the interval, and the other parts. -/
def told (group : Option Address) (delay : Duration) (flags interval : UInt8)
    (sources : List Address) : Query where
  group
  sources
  maxResponseDelay := delay
  suppressRouterProcessing := suppressOfFlags flags
  robustness := robustnessOfFlags flags
  interval := intervalOfSeconds (TimeCode.decode8 interval)

/-- The part of a message that old versions do not have. -/
def tail (flags interval : UInt8) (width : Nat) (sources : List Nat) : Bytes :=
  [flags] ++ ([interval] ++ (Bytes.ofNat 2 sources.length ++ sources.flatMap (Bytes.ofNat width)))

variable {q : Query} {querier : Address}

theorem exists_bits {width : Nat} {address : BitVec width → Address} {sources : List Address}
    (h : ∀ s ∈ sources, ∃ bits, address bits = s) :
    ∃ bits : List (BitVec width), sources = bits.map address := by
  have all : sources ∈ Set.range (List.map address) := by
    rw [Set.range_list_map]
    exact h
  obtain ⟨bits, rfl⟩ := all
  exact ⟨bits, rfl⟩

theorem length_tail (flags interval : UInt8) (width : Nat) (sources : List Nat) :
    (tail flags interval width sources).length = 4 + width * sources.length := by
  have parts : (sources.flatMap (Bytes.ofNat width)).length = width * sources.length := by
    induction sources with
    | nil => rfl
    | cons s rest ih => simp [ih, Nat.mul_succ, Nat.add_comm]
  simp [tail, parts]
  omega

/-- The tail of a message is read, in either wire form. -/
theorem reads_tail (what what' : String) (flags interval : UInt8) {width : Nat} {sources : List Nat}
    (k : UInt8 → UInt8 → List Nat → Query) (small : ∀ s ∈ sources, s < 256 ^ width)
    (few : sources.length < 2 ^ 16) :
    Reader.Reads (do
        Reader.require what 4
        let flags := UInt8.ofNat (← Reader.sureWord 1)
        let interval := UInt8.ofNat (← Reader.sureWord 1)
        let count ← Reader.sureWord 2
        Reader.require what' (width * count)
        let sources ← Reader.repeated (Reader.sureWord width) count
        return k flags interval sources)
      (tail flags interval width sources) (k flags interval sources) := by
  have length := length_tail flags interval width sources
  refine Reader.Reads.require ?_ (by omega)
  refine Reader.Reads.bind (Reader.reads_sureWord (rfl : [flags].length = 1)) ?_
  refine Reader.Reads.bind (Reader.reads_sureWord (rfl : [interval].length = 1)) ?_
  refine Reader.Reads.bind (Reader.reads_sureWord_ofNat few) ?_
  have read := Reader.reads_repeated (f := id) fun s hs =>
    Reader.reads_sureWord_ofNat (small s hs)
  rw [List.map_id] at read
  refine Reader.Reads.require ?_ ?_
  · rw [Bytes.ofNat_toNat_singleton, Bytes.ofNat_toNat_singleton]
    exact read.map fun sources => k flags interval sources
  · simp only [tail, List.length_append, Bytes.length_ofNat, List.length_cons,
      List.length_nil] at length
    omega

theorem suppressOfFlags_flags : suppressOfFlags q.flags = q.suppressRouterProcessing := by
  unfold suppressOfFlags flags
  rw [UInt8.toNat_ofNat']
  cases q.suppressRouterProcessing
  · rw [beq_eq_false_iff_ne]
    simp only [Bool.false_eq_true, if_false]
    omega
  · rw [beq_iff_eq]
    simp only [if_true]
    omega

theorem robustnessOfFlags_flags (h : ∀ r ∈ q.robustness, 1 ≤ r ∧ r ≤ 7) :
    robustnessOfFlags q.flags = q.robustness := by
  have low : q.flags.toNat % 8 = (q.robustness.getD 0).toNat % 8 := by
    rw [flags, UInt8.toNat_ofNat']
    split <;> omega
  simp only [robustnessOfFlags, low]
  cases hr : q.robustness with
  | none => rfl
  | some r =>
    obtain ⟨low, high⟩ := h r hr
    simp only [UInt8.le_iff_toNat_le] at low high
    have number : r.toNat % 8 = r.toNat := by
      have : r.toNat ≤ 7 := high
      omega
    have positive : r.toNat ≠ 0 := by
      have : 1 ≤ r.toNat := low
      omega
    simp [number, positive]

/-- A query is read from its parts, up to rounding. -/
theorem IsWritable.roundsTo (h : q.IsWritable querier) {delay : Duration}
    (rounds : IsGreatest {d ∈ delays querier | d ≤ q.maxResponseDelay} delay) :
    q.RoundsTo querier
      (told q.group delay q.flags (TimeCode.encode8 q.intervalSeconds) q.sources) where
  group := rfl
  sources := rfl
  suppress := suppressOfFlags_flags
  robustness := robustnessOfFlags_flags h.robustness
  delay := rounds
  noInterval none := by
    rw [told, intervalSeconds, none]
    rfl
  interval i hi := by
    have seconds : q.intervalSeconds = i.asSeconds := by
      rw [intervalSeconds, Option.mem_def.1 hi]
      exact Nat.mod_eq_of_lt (h.interval i hi)
    refine ⟨_, interval_rounds i, ?_⟩
    simp [told, intervalOfSeconds, seconds, Duration.ofSeconds]

theorem told_roundsTo {group : Option Address} {delay : Duration} {flags interval : UInt8}
    {sources : List Address} (known : delay ∈ delays querier) :
    (told group delay flags interval sources).RoundsTo querier
      (told group delay flags interval sources) where
  group := rfl
  sources := rfl
  suppress := rfl
  robustness := rfl
  delay := isGreatest_self known
  noInterval := id
  interval i hi := by
    simp only [told, intervalOfSeconds, Option.mem_ite_none_left, Option.mem_some] at hi
    obtain ⟨positive, rfl⟩ := hi
    refine ⟨_, isGreatest_self ⟨interval, rfl⟩, ?_⟩
    simp [told, intervalOfSeconds, Duration.ofSeconds, positive]

theorem told_isWritable {group : Option Address} {delay : Duration} {flags interval : UInt8}
    {sources : List Address} (hgroup : ∀ g ∈ group, g.isV4 = querier.isV4 ∧ g.isUnspecified = false)
    (hsources : ∀ s ∈ sources, s.isV4 = querier.isV4)
    (hdelay : (told group delay flags interval sources).delayUnits querier < 2 ^ 32) :
    (told group delay flags interval sources).IsWritable querier where
  group := hgroup
  sources := hsources
  robustness r hr := by
    simp only [told, robustnessOfFlags, Option.mem_ite_none_left, Option.mem_some] at hr
    obtain ⟨positive, rfl⟩ := hr
    simp only [UInt8.le_iff_toNat_le, UInt8.toNat_ofNat']
    show 1 ≤ _ ∧ _ ≤ 7
    omega
  delay := hdelay
  interval i hi := by
    simp only [told, intervalOfSeconds, Option.mem_ite_none_left, Option.mem_some] at hi
    obtain ⟨-, rfl⟩ := hi
    have := TimeCode.decode8_lt interval
    simp only [Duration.ofSeconds, Duration.asSeconds]
    omega

/-! ### IGMP -/

namespace Igmp

variable {querier : BitVec 32}

/-- What is read from the parts of a version 3 message. -/
def told (group : BitVec 32) (delay flags interval : UInt8) (sources : List Nat) : Query :=
  Query.told (specified group) (.ofMillis (100 * TimeCode.decode8 delay)) flags interval
    (sources.map fun n => .v4 (BitVec.ofNat 32 n))

theorem exists_specified {group : Option Address}
    (h : ∀ g ∈ group, g.isV4 = true ∧ g.isUnspecified = false) :
    ∃ bits, group = specified bits := by
  cases group with
  | none => exact ⟨0, rfl⟩
  | some g =>
    obtain ⟨family, some_group⟩ := h g rfl
    obtain ⟨bits, rfl⟩ := Address.exists_v4 family
    refine ⟨bits, (if_neg fun zero => ?_).symm⟩
    simp [Address.isUnspecified, Address.toNat, zero] at some_group

theorem isUnspecified_of_specified {bits : BitVec 32} :
    ∀ g ∈ specified bits, g.isUnspecified = false := by
  intro g hg
  simp only [specified, Option.mem_ite_none_left, Option.mem_some] at hg
  obtain ⟨positive, rfl⟩ := hg
  simpa [Address.isUnspecified, Address.toNat, BitVec.toNat_eq] using positive

theorem mapM_sourceBytes (bits : List (BitVec 32)) :
    (bits.map Address.v4).mapM (sourceBytes querier) =
      .ok ((bits.map BitVec.toNat).map (Bytes.ofNat 4)) := by
  have written : ∀ s ∈ bits.map Address.v4,
      sourceBytes querier s = .ok (Bytes.ofNat 4 s.toNat) := by
    simp [sourceBytes, Address.toNat]
  rw [Outcome.mapM_eq_ok written]
  simp [Function.comp_def, Address.toNat]

theorem encode_eq {q : Query} {group : BitVec 32} {bits : List (BitVec 32)}
    (hgroup : q.group = specified group) (hsources : q.sources = bits.map .v4)
    (few : bits.length < 2 ^ 16) :
    encode q querier = ControlPacket.igmp querier (if q.group.isSome then group else allSystems)
      ([messageType, TimeCode.encode8 (q.maxResponseDelay.asMillis / 100 % 2 ^ 32)] ++ [0, 0] ++
        (Bytes.ofNat 4 group.toNat ++
          tail q.flags (TimeCode.encode8 q.intervalSeconds) 4 (bits.map BitVec.toNat))) := by
  have count : Outcome.fitting 16 q.sources.length = .ok bits.length := by
    rw [hsources, List.length_map, Outcome.fitting_of_lt few]
  have written : q.sources.mapM (sourceBytes querier) =
      .ok ((bits.map BitVec.toNat).map (Bytes.ofNat 4)) := by
    rw [hsources, mapM_sourceBytes]
  simp only [encode, hgroup, specified]
  split_ifs with zero
  all_goals
    simp only [zero, count, written, tail, List.length_map, List.append_assoc, List.flatMap_def]
    rfl

theorem decode_message {group : BitVec 32} {delay flags interval : UInt8} {sum : UInt16}
    {sources : List Nat} (small : ∀ s ∈ sources, s < 256 ^ 4) (few : sources.length < 2 ^ 16)
    (valid : ControlPacket.igmpChecksum ([messageType, delay] ++ Bytes.ofNat 2 sum.toNat ++
      (Bytes.ofNat 4 group.toNat ++ tail flags interval 4 sources)) = 0) :
    decode ([messageType, delay] ++ Bytes.ofNat 2 sum.toNat ++
      (Bytes.ofNat 4 group.toNat ++ tail flags interval 4 sources)) =
        .ok (told group delay flags interval sources) := by
  generalize hmessage : [messageType, delay] ++ Bytes.ofNat 2 sum.toNat ++
    (Bytes.ofNat 4 group.toNat ++ tail flags interval 4 sources) = message at valid
  have length : message.length = 12 + 4 * sources.length := by
    rw [← hmessage]
    simp [length_tail]
    omega
  have shape : message = [messageType] ++ ([delay] ++ (Bytes.ofNat 2 sum.toNat ++
      (Bytes.ofNat 4 group.toNat ++ tail flags interval 4 sources))) := by
    rw [← hmessage]
    simp
  have long : message.length ≠ 8 := by omega
  unfold decode
  rw [Reader.parse_require_bind (by omega), if_neg (by simpa using valid)]
  have readsType : (Reader.sureWord 1).Reads [messageType] _ := Reader.reads_sureWord rfl
  have readsDelay : (Reader.sureWord 1).Reads [delay] _ := Reader.reads_sureWord rfl
  dsimp only
  rw [readsType.parse_bind shape]
  simp only [Bytes.ofNat_toNat_singleton, ne_eq, not_true_eq_false, if_false]
  rw [readsDelay.parse_bind rfl, (Reader.reads_take (Bytes.length_ofNat ..)).parse_bind rfl,
    (Reader.reads_addressV4 group).parse_bind rfl, Bytes.ofNat_toNat_singleton]
  simp only [long, if_false]
  have read := (reads_tail "IGMPv3 query" "IGMPv3 query sources" flags interval
    (fun flags interval sources =>
      Query.told (specified group) (.ofMillis (100 * TimeCode.decode8 delay)) flags interval
        (sources.map fun n => .v4 (BitVec.ofNat 32 n))) small few).parse []
  rw [List.append_nil] at read
  exact read

/-- **The packet of a query is read back**, its times rounded down. -/
theorem encode_reads {q : Query} (h : q.IsWritable (.v4 querier))
    (fits : q.packetLength (.v4 querier) < 2 ^ 16) : ∃ packet q',
    encode q querier = .ok packet ∧ Query.decode packet = .ok q' ∧
      q.RoundsTo (.v4 querier) q' := by
  obtain ⟨group, hgroup⟩ := exists_specified h.group
  obtain ⟨bits, hsources⟩ := exists_bits fun s hs => Address.exists_v4 (h.sources s hs)
  have number : bits.length = q.sources.length := by rw [hsources, List.length_map]
  rw [packetLength, ← number] at fits
  have units : q.maxResponseDelay.asMillis / 100 % 2 ^ 32 = q.maxResponseDelay.asMillis / 100 :=
    Nat.mod_eq_of_lt h.delay
  have small : ∀ s ∈ bits.map BitVec.toNat, s < 256 ^ 4 := by
    simp only [List.mem_map, forall_exists_index, and_imp, forall_apply_eq_imp_iff₂]
    exact fun s _ => s.isLt
  have again : (bits.map BitVec.toNat).map (fun n => Address.v4 (BitVec.ofNat 32 n)) =
      q.sources := by
    simp [hsources, Function.comp_def]
  have room : (Bytes.ofNat 4 group.toNat ++ tail q.flags (TimeCode.encode8 q.intervalSeconds) 4
      (bits.map BitVec.toNat)).length < 65508 := by
    rw [List.length_append, length_tail, List.length_map, Bytes.length_ofNat]
    omega
  rw [encode_eq hgroup hsources (by omega), units]
  obtain ⟨packet, sum, written, carries⟩ := ControlPacket.igmp_carries querier
    (if q.group.isSome then group else allSystems)
    (rfl : [messageType, TimeCode.encode8 (q.maxResponseDelay.asMillis / 100)].length = 2) room
  refine ⟨packet, _, written, (carries.read _ _).trans
    (decode_message small (by rw [List.length_map]; omega) carries.valid), ?_⟩
  rw [told, again, ← hgroup]
  exact h.roundsTo (delay_rounds_v4 querier _)

theorem isTold_of_decode {q : Query} {message : Bytes} (h : decode message = .ok q)
    (long : 12 ≤ message.length) :
    ∃ group delay flags interval sources, q = told group delay flags interval sources := by
  obtain ⟨_, h⟩ := Reader.parse_eq_ok_iff.1 h
  simp only [Reader.bind_eq_ok_iff, Reader.ite_reject_eq_ok_iff] at h
  obtain ⟨_, _, -, -, _, _, -, -, delay, _, -, _, _, -, group, _, -, h⟩ := h
  rw [if_neg (by omega)] at h
  simp only [tailReader, Reader.bind_eq_ok_iff, Reader.pure_eq_ok_iff] at h
  obtain ⟨_, _, -, flags, _, -, interval, _, -, _, _, -, _, _, -, sources, _, -, rfl, -⟩ := h
  exact ⟨group, _, _, _, sources, rfl⟩

theorem told_isWritable (querier group : BitVec 32) (delay flags interval : UInt8)
    (sources : List Nat) : (told group delay flags interval sources).IsWritable (.v4 querier) := by
  refine Query.told_isWritable (fun g hg => ⟨isV4_of_specified g hg,
    isUnspecified_of_specified g hg⟩) (by simp [Address.isV4]) ?_
  have := TimeCode.decode8_lt delay
  simp only [delayUnits, Query.told, Duration.ofMillis, Duration.asMillis]
  omega

end Igmp

/-! ### MLD -/

namespace Mld

variable {querier : BitVec 128}

/-- What is read from the parts of a version 2 message. -/
def told (group : BitVec 128) (delay : UInt16) (flags interval : UInt8) (sources : List Nat) :
    Query :=
  Query.told (specified group) (.ofMillis (TimeCode.decode16 delay)) flags interval
    (sources.map fun n => .v6 (BitVec.ofNat 128 n))

theorem exists_specified {group : Option Address}
    (h : ∀ g ∈ group, g.isV4 = false ∧ g.isUnspecified = false) :
    ∃ bits, group = specified bits := by
  cases group with
  | none => exact ⟨0, rfl⟩
  | some g =>
    obtain ⟨family, some_group⟩ := h g rfl
    obtain ⟨bits, rfl⟩ := Address.exists_v6 family
    refine ⟨bits, (if_neg fun zero => ?_).symm⟩
    simp [Address.isUnspecified, Address.toNat, zero] at some_group

theorem isUnspecified_of_specified {bits : BitVec 128} :
    ∀ g ∈ specified bits, g.isUnspecified = false := by
  intro g hg
  simp only [specified, Option.mem_ite_none_left, Option.mem_some] at hg
  obtain ⟨positive, rfl⟩ := hg
  simpa [Address.isUnspecified, Address.toNat, BitVec.toNat_eq] using positive

theorem mapM_sourceBytes (bits : List (BitVec 128)) :
    (bits.map Address.v6).mapM (sourceBytes querier) =
      .ok ((bits.map BitVec.toNat).map (Bytes.ofNat 16)) := by
  have written : ∀ s ∈ bits.map Address.v6,
      sourceBytes querier s = .ok (Bytes.ofNat 16 s.toNat) := by
    simp [sourceBytes, Address.toNat]
  rw [Outcome.mapM_eq_ok written]
  simp [Function.comp_def, Address.toNat]

/-- What follows the checksum in the message of a query. -/
def back (group : BitVec 128) (delay : UInt16) (flags interval : UInt8) (sources : List Nat) :
    Bytes :=
  Bytes.ofNat 2 delay.toNat ++ ([0, 0] ++ (Bytes.ofNat 16 group.toNat ++
    tail flags interval 16 sources))

theorem length_back {group : BitVec 128} {delay : UInt16} {flags interval : UInt8}
    {sources : List Nat} :
    (back group delay flags interval sources).length = 24 + 16 * sources.length := by
  simp only [back, List.length_append, Bytes.length_ofNat, length_tail, List.length_cons,
    List.length_nil]
  omega

theorem encode_eq {q : Query} {group : BitVec 128} {bits : List (BitVec 128)}
    (hgroup : q.group = specified group) (hsources : q.sources = bits.map .v6)
    (few : bits.length < 2 ^ 16) :
    encode q querier = ControlPacket.icmp querier (if q.group.isSome then group else allNodes)
      ([messageType, 0] ++ [0, 0] ++
        back group (TimeCode.encode16 (q.maxResponseDelay.asMillis % 2 ^ 32)) q.flags
          (TimeCode.encode8 q.intervalSeconds) (bits.map BitVec.toNat)) := by
  have count : Outcome.fitting 16 q.sources.length = .ok bits.length := by
    rw [hsources, List.length_map, Outcome.fitting_of_lt few]
  have written : q.sources.mapM (sourceBytes querier) =
      .ok ((bits.map BitVec.toNat).map (Bytes.ofNat 16)) := by
    rw [hsources, mapM_sourceBytes]
  simp only [encode, hgroup, specified]
  split_ifs with zero
  all_goals
    simp only [zero, count, written, back, tail, List.length_map, List.append_assoc,
      List.flatMap_def]
    rfl

theorem decode_message {source destination group : BitVec 128} {delay : UInt16}
    {flags interval : UInt8} {sum : UInt16} {sources : List Nat}
    (small : ∀ s ∈ sources, s < 256 ^ 16) (few : sources.length < 2 ^ 16)
    (valid : ControlPacket.icmpChecksum source destination ([messageType, 0] ++
      Bytes.ofNat 2 sum.toNat ++ back group delay flags interval sources) = 0) :
    decode source destination ([messageType, 0] ++ Bytes.ofNat 2 sum.toNat ++
      back group delay flags interval sources) = .ok (told group delay flags interval sources) := by
  generalize hmessage : [messageType, 0] ++ Bytes.ofNat 2 sum.toNat ++
    back group delay flags interval sources = message at valid
  have length : message.length = 28 + 16 * sources.length := by
    rw [← hmessage]
    simp [length_back]
    omega
  have shape : message = [messageType] ++ (([0] ++ Bytes.ofNat 2 sum.toNat) ++
      back group delay flags interval sources) := by
    rw [← hmessage]
    simp
  have long : message.length ≠ 24 := by omega
  have readsType : (Reader.sureWord 1).Reads [messageType] _ := Reader.reads_sureWord rfl
  have readsSum : (Reader.take 3).Reads ([0] ++ Bytes.ofNat 2 sum.toNat) _ :=
    Reader.reads_take (by simp)
  have readsZero : (Reader.take 2).Reads [0, 0] _ := Reader.reads_take rfl
  have readsDelay : (Reader.sureWord 2).Reads (Bytes.ofNat 2 delay.toNat) _ :=
    Reader.reads_sureWord_ofNat delay.toNat_lt
  unfold decode
  rw [Reader.parse_require_bind (by omega), if_neg (by simpa using valid)]
  dsimp only
  rw [readsType.parse_bind shape]
  simp only [Bytes.ofNat_toNat_singleton, ne_eq, not_true_eq_false, if_false]
  rw [readsSum.parse_bind rfl, back, readsDelay.parse_bind rfl, readsZero.parse_bind rfl,
    (Reader.reads_addressV6 group).parse_bind rfl, UInt16.ofNat_toNat]
  simp only [long, if_false]
  have read := (reads_tail "MLDv2 query" "MLDv2 query sources" flags interval
    (fun flags interval sources =>
      Query.told (specified group) (.ofMillis (TimeCode.decode16 delay)) flags interval
        (sources.map fun n => .v6 (BitVec.ofNat 128 n))) small few).parse []
  rw [List.append_nil] at read
  exact read

/-- **The packet of a query is read back**, its times rounded down. -/
theorem encode_reads {q : Query} (h : q.IsWritable (.v6 querier))
    (fits : q.packetLength (.v6 querier) < 2 ^ 16) : ∃ packet q',
    encode q querier = .ok packet ∧ Query.decode packet = .ok q' ∧
      q.RoundsTo (.v6 querier) q' := by
  obtain ⟨group, hgroup⟩ := exists_specified h.group
  obtain ⟨bits, hsources⟩ := exists_bits fun s hs => Address.exists_v6 (h.sources s hs)
  have number : bits.length = q.sources.length := by rw [hsources, List.length_map]
  rw [packetLength, ← number] at fits
  have units : q.maxResponseDelay.asMillis % 2 ^ 32 = q.maxResponseDelay.asMillis :=
    Nat.mod_eq_of_lt h.delay
  have small : ∀ s ∈ bits.map BitVec.toNat, s < 256 ^ 16 := by
    simp only [List.mem_map, forall_exists_index, and_imp, forall_apply_eq_imp_iff₂]
    exact fun s _ => s.isLt
  have again : (bits.map BitVec.toNat).map (fun n => Address.v6 (BitVec.ofNat 128 n)) =
      q.sources := by
    simp [hsources, Function.comp_def]
  have room : (back group (TimeCode.encode16 q.maxResponseDelay.asMillis) q.flags
      (TimeCode.encode8 q.intervalSeconds) (bits.map BitVec.toNat)).length < 65524 := by
    rw [length_back, List.length_map]
    omega
  rw [encode_eq hgroup hsources (by omega), units]
  obtain ⟨packet, sum, written, carries⟩ := ControlPacket.icmp_carries querier
    (if q.group.isSome then group else allNodes) (rfl : [messageType, 0].length = 2) room
  refine ⟨packet, _, written, (carries.read _ _).trans
    (decode_message small (by rw [List.length_map]; omega) carries.valid), ?_⟩
  rw [told, again, ← hgroup]
  exact h.roundsTo (delay_rounds_v6 querier _)

theorem isTold_of_decode {q : Query} {source destination : BitVec 128} {message : Bytes}
    (h : decode source destination message = .ok q) (long : 28 ≤ message.length) :
    ∃ group delay flags interval sources, q = told group delay flags interval sources := by
  obtain ⟨_, h⟩ := Reader.parse_eq_ok_iff.1 h
  simp only [Reader.bind_eq_ok_iff, Reader.ite_reject_eq_ok_iff] at h
  obtain ⟨_, _, -, -, _, _, -, -, _, _, -, delay, _, -, _, _, -, group, _, -, h⟩ := h
  rw [if_neg (by omega)] at h
  simp only [tailReader, Reader.bind_eq_ok_iff, Reader.pure_eq_ok_iff] at h
  obtain ⟨_, _, -, flags, _, -, interval, _, -, _, _, -, _, _, -, sources, _, -, rfl, -⟩ := h
  exact ⟨group, _, _, _, sources, rfl⟩

theorem told_isWritable (querier group : BitVec 128) (delay : UInt16) (flags interval : UInt8)
    (sources : List Nat) : (told group delay flags interval sources).IsWritable (.v6 querier) := by
  refine Query.told_isWritable (fun g hg => ⟨isV4_of_specified g hg,
    isUnspecified_of_specified g hg⟩) (by simp [Address.isV4]) ?_
  have := TimeCode.decode16_lt delay
  simp only [delayUnits, Query.told, Duration.ofMillis, Duration.asMillis]
  omega

end Mld

/-! ### Both families -/

/-- The shortest message of the latest version. -/
def fullLength : Address → Nat
  | .v4 _ => 12
  | .v6 _ => 28

/-- A query that was read from a message of the latest version can be written by any querier of its
family, and is not changed by rounding. -/
theorem isWritable_of_decode {packet : Bytes} {ip : IpPacket}
    (parsed : IpPacket.parse packet = .ok ip) (h : decode packet = .ok q)
    (full : fullLength ip.source ≤ ip.payload.length) (family : querier.isV4 = ip.source.isV4) :
    q.IsWritable querier ∧ q.RoundsTo querier q := by
  rw [decode, ControlPacket.read, parsed, Outcome.ok_bind] at h
  dsimp only at h
  split at h
  · rename_i source hsource
    rw [hsource] at full family
    cases querier with
    | v6 querier => cases family
    | v4 querier =>
      split at h
      · obtain ⟨group, delay, flags, interval, sources, rfl⟩ := Igmp.isTold_of_decode h full
        exact ⟨Igmp.told_isWritable .., told_roundsTo ⟨delay, rfl⟩⟩
      · cases h
  · rename_i source destination hsource _
    rw [hsource] at full family
    cases querier with
    | v4 querier => cases family
    | v6 querier =>
      split at h
      · obtain ⟨group, delay, flags, interval, sources, rfl⟩ := Mld.isTold_of_decode h full
        exact ⟨Mld.told_isWritable .., told_roundsTo ⟨delay, rfl⟩⟩
      · cases h
  · cases h

theorem encode_reads (h : q.IsWritable querier) (fits : q.packetLength querier < 2 ^ 16) :
    ∃ packet q', q.encode querier = .ok packet ∧ decode packet = .ok q' ∧
      q.RoundsTo querier q' := by
  cases querier with
  | v4 _ => exact Igmp.encode_reads h fits
  | v6 _ => exact Mld.encode_reads h fits

/-- **Writing and reading queries agree**: a query whose parts fit their fields and whose sources
fit a packet is read back from its packet, its times rounded down to the largest ones that can be
told; and a query that was read from a message of the latest version is read back as it is, once it
is written anew by a querier of its family. -/
theorem decode_encode_rounds :
    (∀ (q : Query) (querier : Address), q.IsWritable querier → q.packetLength querier < 2 ^ 16 →
      ∃ packet q', q.encode querier = .ok packet ∧ decode packet = .ok q' ∧
        q.RoundsTo querier q') ∧
    (∀ (packet : Bytes) (ip : IpPacket) (q : Query) (querier : Address),
      IpPacket.parse packet = .ok ip → decode packet = .ok q →
      fullLength ip.source ≤ ip.payload.length → querier.isV4 = ip.source.isV4 →
      q.packetLength querier < 2 ^ 16 →
      ∃ packet', q.encode querier = .ok packet' ∧ decode packet' = .ok q) := by
  refine ⟨fun q querier => encode_reads, fun packet ip q querier parsed h full family fits => ?_⟩
  obtain ⟨writable, self⟩ := isWritable_of_decode parsed h full family
  obtain ⟨packet', q', written, read, rounds⟩ := encode_reads writable fits
  exact ⟨packet', written, self.eq_of_self rounds ▸ read⟩

/-- A query about two sources, one of them twice, with times that are rounded; and an IGMPv3 query
with a router alert and two reserved bits set, which is written anew. -/
theorem decode_encode_rounds_queries :
    let sources : List Address := [.v6 1, .v6 2, .v6 1]
    let q : Query := ⟨some (.v6 0xff0e0000000000000000000000000101), sources,
      Duration.ofMillis 40001, true, some 7, some (Duration.ofMillis 131500)⟩
    let packet : Bytes := [0x46, 192, 0, 40, 0, 0, 0, 0, 1, 2, 130, 13, 192, 0, 2, 1, 224, 0, 0, 1,
      0x94, 4, 0, 0, 0x11, 0xff, 0x98, 0x38, 239, 1, 2, 3, 0x3a, 0x87, 0, 1, 198, 51, 100, 7]
    let asked : Query := ⟨some (.ofOctets 239 1 2 3), [.ofOctets 198 51 100 7],
      Duration.ofMillis 3174400, true, some 2, some (Duration.ofSeconds 184)⟩
    (∃ packet q', q.encode (.v6 3) = .ok packet ∧ decode packet = .ok q' ∧
      q.RoundsTo (.v6 3) q') ∧
    decode packet = .ok asked ∧
    ∃ packet', asked.encode (.v4 0x0a000001) = .ok packet' ∧ decode packet' = .ok asked := by
  intro sources q packet asked
  have read : decode packet = .ok asked := by decide +kernel
  have parsed : IpPacket.parse packet =
      .ok ⟨.ofOctets 192 0 2 1, .ofOctets 224 0 0 1, Ip.igmp, packet.drop 24⟩ := by decide +kernel
  have writable : q.IsWritable (.v6 3) :=
    ⟨by decide, by decide, by decide +kernel, by decide, by decide⟩
  exact ⟨decode_encode_rounds.1 q _ writable (by decide), read,
    decode_encode_rounds.2 packet _ asked (.v4 0x0a000001) parsed read (by decide) rfl (by decide)⟩

end Query

end MulticastTunnel

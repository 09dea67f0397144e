import Mathlib.Algebra.Group.Nat.Even
import Mathlib.Data.List.Basic
import MulticastTunnel.Bytes.Reader

/-!
# What readers take

A reader that undoes a writer takes the bytes that were written from the front of a packet, and
leaves alone whatever follows. Such statements compose: what a sequence of readers takes is what
the readers take one after the other.

* `Reader.Reads` : the reader takes exactly these bytes, for this value.
* `Reader.Reads.bind`, `Reader.reads_repeated` : readers one after the other.
* `Reader.Reads.parse_bind` : a packet of which a part has been read.
* `Reader.bind_eq_ok_iff`, `Reader.word_eq_ok_iff` and the like : the other way, what readers that
  succeeded have read.
-/

namespace MulticastTunnel

namespace Bytes

theorem shiftLeft_eight (width : Nat) : 1 <<< (8 * width) = 256 ^ width := by
  rw [Nat.shiftLeft_eq, Nat.one_mul, Nat.pow_mul]

theorem toNat_ofNat_of_lt {width value : Nat} (h : value < 256 ^ width) :
    toNat (ofNat width value) = value := by
  rw [toNat_ofNat, shiftLeft_eight, Nat.mod_eq_of_lt h]

theorem toNat_singleton (b : UInt8) : toNat [b] = b.toNat := by simp [toNat]

theorem ofNat_toNat_singleton (b : UInt8) : UInt8.ofNat (toNat [b]) = b := by
  rw [toNat_singleton, UInt8.ofNat_toNat]

theorem eq_singleton {bytes : Bytes} (h : bytes.length = 1) :
    bytes = [UInt8.ofNat (toNat bytes)] := by
  obtain ⟨b, rfl⟩ := List.length_eq_one_iff.1 h
  rw [ofNat_toNat_singleton]

theorem atLeast_append {n : Nat} {front : Bytes} (h : n ≤ front.length) (rest : Bytes) :
    atLeast n (front ++ rest) = true := by
  rw [atLeast_eq, decide_eq_true_eq, List.length_append]
  omega

theorem atLeast_of_short {n : Nat} {bytes : Bytes} (h : bytes.length < n) :
    atLeast n bytes = false := by
  rw [atLeast_eq]
  exact decide_eq_false (Nat.not_le.2 h)

end Bytes

theorem Outcome.ok_bind {α β : Type} (a : α) (next : α → Outcome β) :
    (.ok a >>= next) = next a := rfl

theorem Outcome.bind_of_ok {α β : Type} {outcome : Outcome α} {next : α → Outcome β} {a : α}
    (h : outcome = .ok a) : (outcome >>= next) = next a := by
  rw [h, ok_bind]

theorem Outcome.bind_eq_ok_iff {α β : Type} {outcome : Outcome α} {next : α → Outcome β} {b : β} :
    (outcome >>= next) = .ok b ↔ ∃ a, outcome = .ok a ∧ next a = .ok b := by
  cases outcome with
  | error e => simp [bind, Except.bind]
  | ok a => simp [bind, Except.bind]

theorem Outcome.bind_eq_error_iff {α β : Type} {outcome : Outcome α} {next : α → Outcome β}
    {e : Failure} : (outcome >>= next) = .error e ↔
      outcome = .error e ∨ ∃ a, outcome = .ok a ∧ next a = .error e := by
  cases outcome with
  | error e => simp [bind, Except.bind]
  | ok a => simp [bind, Except.bind]

theorem Outcome.slice_eq_ok_iff {start stop : Nat} {bytes part : Bytes} :
    Outcome.slice start stop bytes = .ok part ↔
      (start ≤ stop ∧ stop ≤ bytes.length) ∧ part = bytes.between start stop := by
  rw [slice]
  by_cases room : start ≤ stop ∧ stop ≤ bytes.length
  · simp [room, eq_comm]
  · simp [room]

theorem Outcome.mapM_eq_ok {α β : Type} {f : α → Outcome β} {g : α → β} {l : List α}
    (h : ∀ a ∈ l, f a = .ok (g a)) : l.mapM f = .ok (l.map g) := by
  induction l with
  | nil => rfl
  | cons a rest ih =>
    rw [List.mapM_cons, h a List.mem_cons_self, ih fun a ha => h a (List.mem_cons_of_mem _ ha)]
    rfl

namespace Reader

variable {α β : Type} {r : Reader α} {f : α → Reader β} {a : α} {b : β}
variable {bytes more rest : Bytes} {what : String} {width n : Nat}

theorem bind_apply (r : Reader α) (f : α → Reader β) (bytes : Bytes) :
    (r >>= f) bytes = (r bytes >>= fun read => f read.1 read.2) := rfl

theorem map_apply (g : α → β) (r : Reader α) (bytes : Bytes) :
    (g <$> r) bytes = (r bytes >>= fun read => pure (g read.1, read.2)) := rfl

/-! ### Readers that undo writers -/

/-- The reader takes exactly these bytes for this value, whatever follows them. -/
def Reads (r : Reader α) (bytes : Bytes) (a : α) : Prop :=
  ∀ rest, r (bytes ++ rest) = .ok (a, rest)

theorem Reads.pure (a : α) : (pure a : Reader α).Reads [] a := fun _ => rfl

theorem Reads.bind (h : r.Reads bytes a) (next : (f a).Reads more b) :
    (r >>= f).Reads (bytes ++ more) b := by
  intro rest
  rw [bind_apply, List.append_assoc, h]
  exact next rest

theorem Reads.map (h : r.Reads bytes a) (g : α → β) : (g <$> r).Reads bytes (g a) := by
  intro rest
  rw [map_apply, h]
  rfl

theorem Reads.bind_pure (h : r.Reads bytes a) {g : α → β} :
    (r >>= fun a => Pure.pure (g a)).Reads bytes (g a) := h.map g

theorem Reads.require {r : Unit → Reader α} (h : (r ()).Reads bytes a) (room : n ≤ bytes.length) :
    (Reader.require what n >>= r).Reads bytes a := by
  intro rest
  rw [bind_apply, Reader.require, if_pos (Bytes.atLeast_append room rest)]
  exact h rest

theorem reads_word (h : bytes.length = width) : (word what width).Reads bytes bytes.toNat := by
  intro rest
  subst h
  simp [word, Bytes.atLeast_append]

theorem reads_skip (h : bytes.length = n) : (skip what n).Reads bytes () := by
  intro rest
  subst h
  simp [skip, Bytes.atLeast_append]

theorem reads_take (h : bytes.length = n) : (take n).Reads bytes bytes := by
  intro rest
  subst h
  simp [take, Bytes.atLeast_append]

theorem reads_sureWord (h : bytes.length = width) : (sureWord width).Reads bytes bytes.toNat :=
  (reads_take h).map Bytes.toNat

theorem reads_word_ofNat (h : n < 256 ^ width) :
    (word what width).Reads (Bytes.ofNat width n) n := by
  have read : (word what width).Reads _ _ := reads_word (Bytes.length_ofNat width n)
  rwa [Bytes.toNat_ofNat_of_lt h] at read

theorem reads_sureWord_ofNat (h : n < 256 ^ width) :
    (sureWord width).Reads (Bytes.ofNat width n) n := by
  have read := reads_sureWord (Bytes.length_ofNat width n)
  rwa [Bytes.toNat_ofNat_of_lt h] at read

theorem reads_u8 (b : UInt8) : (u8 what).Reads [b] b := by
  have read : (word what 1).Reads [b] (Bytes.toNat [b]) := reads_word rfl
  simpa only [u8, Bytes.ofNat_toNat_singleton] using read.map UInt8.ofNat

theorem reads_u16 (n : UInt16) : (u16 what).Reads (Bytes.ofNat 2 n.toNat) n := by
  have read : (word what 2).Reads _ _ := reads_word_ofNat n.toNat_lt
  simpa [u16] using read.map UInt16.ofNat

theorem reads_u32 (n : UInt32) : (u32 what).Reads (Bytes.ofNat 4 n.toNat) n := by
  have read : (word what 4).Reads _ _ := reads_word_ofNat n.toNat_lt
  simpa [u32] using read.map UInt32.ofNat

theorem reads_addressV4 (a : BitVec 32) : (addressV4 what).Reads (Bytes.ofNat 4 a.toNat) a := by
  have read : (word what 4).Reads _ _ := reads_word_ofNat a.isLt
  simpa [addressV4] using read.map (BitVec.ofNat 32)

theorem reads_addressV6 (a : BitVec 128) : (addressV6 what).Reads (Bytes.ofNat 16 a.toNat) a := by
  have read : (word what 16).Reads _ _ := reads_word_ofNat a.isLt
  simpa [addressV6] using read.map (BitVec.ofNat 128)

/-- Parts that are written one after the other are read one after the other. -/
theorem reads_repeated {γ : Type} {part : Reader α} {write : γ → Bytes} {f : γ → α}
    {parts : List γ} (h : ∀ p ∈ parts, part.Reads (write p) (f p)) :
    (repeated part parts.length).Reads (parts.flatMap write) (parts.map f) := by
  induction parts with
  | nil => exact Reads.pure []
  | cons p rest ih =>
    have others := ih fun q hq => h q (List.mem_cons_of_mem _ hq)
    exact (h p List.mem_cons_self).bind others.bind_pure

/-! ### Whole packets -/

theorem Reads.parse (h : r.Reads bytes a) (rest : Bytes) : r.parse (bytes ++ rest) = .ok a := by
  rw [Reader.parse, h]
  rfl

/-- A packet whose front was read goes on with the rest. -/
theorem Reads.parse_bind {packet : Bytes} (h : r.Reads bytes a) (split : packet = bytes ++ rest) :
    (r >>= f).parse packet = (f a).parse rest := by
  rw [split, Reader.parse, bind_apply, h]
  rfl

theorem parse_require_bind {f : Unit → Reader β} (h : n ≤ bytes.length) :
    (Reader.require what n >>= f).parse bytes = (f ()).parse bytes := by
  rw [Reader.parse, bind_apply, Reader.require, Bytes.atLeast_eq, decide_eq_true h]
  rfl

theorem parse_require_of_short {f : Unit → Reader β} (h : bytes.length < n) :
    (Reader.require what n >>= f).parse bytes =
      .error (.malformed (.tooShort what n bytes.length)) := by
  rw [Reader.parse, bind_apply, Reader.require, Bytes.atLeast_of_short h]
  rfl

theorem parse_liftM_bind {outcome : Outcome α} (h : outcome = .ok a) :
    ((liftM outcome : Reader α) >>= f).parse bytes = (f a).parse bytes := by
  subst h
  rfl

theorem parse_rest_bind {f : Bytes → Reader β} :
    (Reader.rest >>= f).parse bytes = (f bytes).parse bytes := rfl

theorem parse_pure : (pure a : Reader α).parse bytes = .ok a := rfl

theorem parse_eq_ok_iff : r.parse bytes = .ok a ↔ ∃ rest, r bytes = .ok (a, rest) := by
  rw [parse]
  cases hr : r bytes with
  | error e => simp [Functor.map, Except.map]
  | ok read =>
    obtain ⟨a', rest⟩ := read
    simp [Functor.map, Except.map]

/-! ### What readers that succeeded have read -/

theorem bind_eq_ok_iff : (r >>= f) bytes = .ok (b, rest) ↔
    ∃ a mid, r bytes = .ok (a, mid) ∧ f a mid = .ok (b, rest) := by
  rw [bind_apply, Outcome.bind_eq_ok_iff, Prod.exists]

theorem map_eq_ok_iff {g : α → β} : (g <$> r) bytes = .ok (b, rest) ↔
    ∃ a, r bytes = .ok (a, rest) ∧ b = g a := by
  rw [map_apply, Outcome.bind_eq_ok_iff, Prod.exists]
  simp [Pure.pure, Except.pure, eq_comm, and_comm]

theorem pure_eq_ok_iff {c : α} :
    (pure a : Reader α) bytes = .ok (c, rest) ↔ c = a ∧ rest = bytes := by
  have value : (pure a : Reader α) bytes = .ok (a, bytes) := rfl
  simp [value, eq_comm]

theorem rest_eq_ok_iff {left : Bytes} :
    Reader.rest bytes = .ok (left, rest) ↔ left = bytes ∧ rest = bytes := by
  have value : Reader.rest bytes = .ok (bytes, bytes) := rfl
  simp [value, eq_comm]

theorem liftM_eq_ok_iff {outcome : Outcome α} :
    (liftM outcome : Reader α) bytes = .ok (a, rest) ↔ outcome = .ok a ∧ rest = bytes := by
  cases outcome with
  | error e =>
    have value : (liftM (.error e : Outcome α) : Reader α) bytes = .error e := rfl
    simp [value]
  | ok b =>
    have value : (liftM (.ok b : Outcome α) : Reader α) bytes = .ok (b, bytes) := rfl
    simp [value, eq_comm]

theorem ite_reject_eq_ok_iff {condition : Prop} [Decidable condition] {cause : Malformed}
    {g : Unit → Reader α} :
    (if condition then reject cause >>= g else g ()) bytes = .ok (a, rest) ↔
      ¬ condition ∧ g () bytes = .ok (a, rest) := by
  by_cases h : condition
  · rw [if_pos h]
    exact iff_of_false (nomatch ·) (absurd h ·.1)
  · rw [if_neg h]
    exact (and_iff_right h).symm

theorem require_eq_ok_iff {u : Unit} :
    require what n bytes = .ok (u, rest) ↔ n ≤ bytes.length ∧ rest = bytes := by
  rw [require, Bytes.atLeast_eq]
  by_cases room : n ≤ bytes.length <;> simp [room, eq_comm]

theorem word_eq_ok_iff {value : Nat} : word what width bytes = .ok (value, rest) ↔
    width ≤ bytes.length ∧ value = Bytes.toNat (bytes.take width) ∧ rest = bytes.drop width := by
  rw [word, Bytes.atLeast_eq]
  by_cases room : width ≤ bytes.length <;> simp [room, eq_comm]

theorem skip_eq_ok_iff {u : Unit} :
    skip what n bytes = .ok (u, rest) ↔ n ≤ bytes.length ∧ rest = bytes.drop n := by
  rw [skip, Bytes.atLeast_eq]
  by_cases room : n ≤ bytes.length <;> simp [room, eq_comm]

theorem take_eq_ok_iff {taken : Bytes} : take n bytes = .ok (taken, rest) ↔
    n ≤ bytes.length ∧ taken = bytes.take n ∧ rest = bytes.drop n := by
  rw [take, Bytes.atLeast_eq]
  by_cases room : n ≤ bytes.length <;> simp [room, eq_comm]

/-! The same, with the bytes that were read in front of the others. -/

theorem word_eq_ok_iff_append {value : Nat} : word what width bytes = .ok (value, rest) ↔
    ∃ front, bytes = front ++ rest ∧ front.length = width ∧ value = Bytes.toNat front := by
  constructor
  · intro h
    obtain ⟨room, rfl, rfl⟩ := word_eq_ok_iff.1 h
    exact ⟨_, (List.take_append_drop width bytes).symm, List.length_take_of_le room, rfl⟩
  · rintro ⟨front, rfl, length, rfl⟩
    exact reads_word length rest

theorem u8_eq_ok_iff_append {b : UInt8} :
    u8 what bytes = .ok (b, rest) ↔ bytes = [b] ++ rest := by
  constructor
  · intro h
    obtain ⟨value, read, rfl⟩ := map_eq_ok_iff.1 h
    obtain ⟨front, rfl, one, rfl⟩ := word_eq_ok_iff_append.1 read
    rw [← Bytes.eq_singleton one]
  · rintro rfl
    exact reads_u8 b rest

theorem skip_eq_ok_iff_append {u : Unit} : skip what n bytes = .ok (u, rest) ↔
    ∃ front, bytes = front ++ rest ∧ front.length = n := by
  constructor
  · intro h
    obtain ⟨room, rfl⟩ := skip_eq_ok_iff.1 h
    exact ⟨_, (List.take_append_drop n bytes).symm, List.length_take_of_le room⟩
  · rintro ⟨front, rfl, length⟩
    exact reads_skip length rest

theorem take_eq_ok_iff_append {taken : Bytes} : take n bytes = .ok (taken, rest) ↔
    bytes = taken ++ rest ∧ taken.length = n := by
  constructor
  · intro h
    obtain ⟨room, rfl, rfl⟩ := take_eq_ok_iff.1 h
    exact ⟨(List.take_append_drop n bytes).symm, List.length_take_of_le room⟩
  · rintro ⟨rfl, length⟩
    exact reads_take length rest

theorem sureWord_eq_ok_iff_append {value : Nat} : sureWord width bytes = .ok (value, rest) ↔
    ∃ front, bytes = front ++ rest ∧ front.length = width ∧ value = Bytes.toNat front := by
  simp only [sureWord, map_eq_ok_iff, take_eq_ok_iff_append, and_assoc]

end Reader

end MulticastTunnel

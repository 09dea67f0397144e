import Mathlib.Data.List.Forall2
import MulticastTunnel.Proofs.Interest.Filter
import MulticastTunnel.Proofs.Report.Split

/-!
# Splitting loses no interest

A record that does not fit a report of its own is stood for by others. Its sources are spread over
several records, or, if they are exceptions, those that do not fit are left out. Either way, whoever
receives the parts of a report learns of everything that the report asks for.

* `Record.StoodForBy` : the records that stand for a record.
* `Record.splitToFit_stands` : they are what splitting makes of it.
* `Record.StoodForBy.accepts` : together, they ask for everything that the record asks for.
* `Report.splitToFit_covers` : **the parts of a report fit, and list records that stand for the
  original ones, in their order**.
-/

namespace MulticastTunnel

namespace Record

variable {r : Record} {records standIns : List Record} {limit : Nat} {a : Address}

/-! ### What records ask for -/

/-- The filter that receives what a record asks for. -/
def filter (r : Record) : SourceFilter :=
  match r.kind with
  | .isInclude | .toInclude | .allow => .including (.ofList r.sources)
  | .isExclude | .toExclude => .excluding (.ofList r.sources)
  | .block => .noInterest

/-- The filter that receives what some records ask for, taken together. -/
def united (records : List Record) : SourceFilter :=
  records.foldr (fun r f => r.filter.union f) .noInterest

theorem accepts_united :
    (united records).accepts a = records.any fun r => r.filter.accepts a := by
  induction records with
  | nil => simp [united, SourceFilter.noInterest, SourceFilter.including, SourceFilter.accepts]
  | cons r rest ih =>
    rw [List.any_cons, ← ih]
    exact SourceFilter.accepts_union

/-- A record that lists no exceptions asks for its sources, if for anything. -/
theorem accepts_filter_of_lists (lists : r.kind.listsExceptions = false) :
    r.filter.accepts a = (decide (a ∈ r.sources) && decide (r.kind ≠ .block)) := by
  cases hkind : r.kind <;>
    simp_all [filter, RecordKind.listsExceptions, SourceFilter.including, SourceFilter.noInterest,
      SourceFilter.accepts]

/-- A record of exceptions asks for all sources but these. -/
theorem accepts_filter_of_exceptions (exceptions : r.kind.listsExceptions = true) :
    r.filter.accepts a = !decide (a ∈ r.sources) := by
  cases hkind : r.kind <;>
    simp_all [filter, RecordKind.listsExceptions, SourceFilter.excluding, SourceFilter.accepts]

/-! ### Pieces -/

theorem flatten_pieces {α : Type} {size fuel : Nat} {l : List α} (some : 0 < size)
    (enough : l.length ≤ fuel) : (pieces size fuel l).flatten = l := by
  induction fuel generalizing l with
  | zero =>
    obtain rfl := List.length_eq_zero_iff.1 (Nat.le_zero.1 enough)
    rfl
  | succ fuel ih =>
    cases l with
    | nil => rfl
    | cons a rest =>
      have left : ((a :: rest).drop size).length ≤ fuel := by
        rw [List.length_drop]
        omega
      rw [pieces, List.flatten_cons, ih left, List.take_append_drop]

theorem ne_nil_of_mem_pieces {α : Type} {size fuel : Nat} {l piece : List α} (some : 0 < size)
    (h : piece ∈ pieces size fuel l) : piece ≠ [] := by
  induction fuel generalizing l with
  | zero => simp [pieces] at h
  | succ fuel ih =>
    cases l with
    | nil => simp [pieces] at h
    | cons a rest =>
      rcases List.mem_cons.1 h with rfl | h
      · obtain ⟨n, rfl⟩ := Nat.exists_eq_succ_of_ne_zero (Nat.ne_of_gt some)
        simp
      · exact ih h

theorem sourceCapacity_pos (r : Record) (limit : Nat) : 0 < r.sourceCapacity limit :=
  Nat.le_max_left _ _

theorem length_le_sourceCapacity {sources : List Address}
    (fits : encodedLength { r with sources } ≤ limit) :
    sources.length ≤ r.sourceCapacity limit := by
  have width : 0 < r.group.width := by cases r.group <;> simp [Address.width]
  refine Nat.le_trans ?_ (Nat.le_max_right _ _)
  rw [Nat.le_div_iff_mul_le width, Nat.mul_comm]
  simp only [encodedLength, Nat.mul_add] at fits
  omega

/-! ### Records that stand for another one -/

/-- The records that stand for a record in reports of at most `limit` bytes. -/
inductive StoodForBy (limit : Nat) (r : Record) : List Record → Prop where
  /-- A record that fits a report of its own stands for itself. -/
  | whole (fits : (Report.mk [r]).encodedLength ≤ limit) : StoodForBy limit r [r]
  /-- The sources of a record that lists no exceptions are spread over several, each of which has
  some. -/
  | spread {standIns : List Record} (long : limit < (Report.mk [r]).encodedLength)
      (lists : r.kind.listsExceptions = false)
      (alike : ∀ p ∈ standIns, p.kind = r.kind ∧ p.group = r.group)
      (filled : ∀ p ∈ standIns, p.sources ≠ [])
      (all : standIns.flatMap sources = r.sources) : StoodForBy limit r standIns
  /-- Of exceptions, the longest part that fits is kept. -/
  | shortened {kept : List Address} (long : limit < (Report.mk [r]).encodedLength)
      (exceptions : r.kind.listsExceptions = true) (initial : kept <+: r.sources)
      (fits : (Report.mk [{ r with sources := kept }]).encodedLength ≤ limit)
      (longest : ∀ more, more <+: r.sources →
        (Report.mk [{ r with sources := more }]).encodedLength ≤ limit → more <+: kept) :
      StoodForBy limit r [{ r with sources := kept }]

theorem encodedLength_mk (r : Record) :
    (Report.mk [r]).encodedLength = Report.headerLength + r.encodedLength := rfl

/-- The records that a record is split into stand for it. -/
theorem splitToFit_stands (r : Record) (room : 44 ≤ limit) :
    r.StoodForBy limit (r.splitToFit (limit - Report.headerLength)) := by
  have header : Report.headerLength = 8 := rfl
  unfold splitToFit
  split_ifs with short exceptions
  · refine .whole ?_
    rw [encodedLength_mk]
    omega
  · have long : limit < (Report.mk [r]).encodedLength := by
      rw [encodedLength_mk]
      omega
    refine .shortened long exceptions (List.take_prefix _ _) ?_ fun more initial fits => ?_
    · have fits : encodedLength { r with
          sources := r.sources.take (r.sourceCapacity (limit - Report.headerLength)) } ≤
          limit - Report.headerLength :=
        encodedLength_le_of_sourceCapacity (by omega) (List.length_take_le _ _)
      rw [encodedLength_mk]
      omega
    · rw [encodedLength_mk] at fits
      have few : more.length ≤ r.sourceCapacity (limit - Report.headerLength) :=
        length_le_sourceCapacity (by omega)
      exact List.prefix_take_iff.2 ⟨initial, few⟩
  · have long : limit < (Report.mk [r]).encodedLength := by
      rw [encodedLength_mk]
      omega
    have size := sourceCapacity_pos r (limit - Report.headerLength)
    refine .spread long (by simpa using exceptions) ?_ ?_ ?_
    · intro p hp
      obtain ⟨sources, -, rfl⟩ := List.mem_map.1 hp
      exact ⟨rfl, rfl⟩
    · intro p hp
      obtain ⟨sources, piece, rfl⟩ := List.mem_map.1 hp
      exact ne_nil_of_mem_pieces size piece
    · rw [List.flatMap_map, List.flatMap_id']
      exact flatten_pieces size (Nat.le_refl _)

/-- **The records that stand for another one ask for everything that it asks for**, when they are
taken together. -/
theorem StoodForBy.accepts (h : r.StoodForBy limit standIns) (wanted : r.filter.accepts a = true) :
    (united standIns).accepts a = true := by
  rw [accepts_united, List.any_eq_true]
  cases h with
  | whole => exact ⟨r, by simp, wanted⟩
  | spread long lists alike filled all =>
    rw [accepts_filter_of_lists lists, Bool.and_eq_true, decide_eq_true_iff, ← all] at wanted
    obtain ⟨listed, asks⟩ := wanted
    obtain ⟨p, hp, ha⟩ := List.mem_flatMap.1 listed
    refine ⟨p, hp, ?_⟩
    rw [accepts_filter_of_lists (by rw [(alike p hp).1, lists]), (alike p hp).1]
    simp [ha, asks]
  | @shortened kept long exceptions initial =>
    rw [accepts_filter_of_exceptions exceptions] at wanted
    refine ⟨_, List.mem_singleton.2 rfl, ?_⟩
    rw [accepts_filter_of_exceptions (r := { r with sources := kept }) exceptions]
    simp only [Bool.not_eq_true', decide_eq_false_iff_not] at wanted ⊢
    exact fun listed => wanted (initial.subset listed)

theorem StoodForBy.group (h : r.StoodForBy limit standIns) : ∀ p ∈ standIns, p.group = r.group := by
  cases h with
  | spread long lists alike => exact fun p hp => (alike p hp).2
  | _ => simp

end Record

namespace Report

variable {report : Report} {limit : Nat}

/-- The filter that receives what some reports ask of a group, taken together. -/
def asked (group : Address) (reports : List Report) : SourceFilter :=
  Record.united ((reports.flatMap records).filter fun r => r.group = group)

/-- If other records stand for each record, then together they ask for as much of each group. -/
theorem accepts_united_of_stoodForBy {records : List Record} {standing : List (List Record)}
    (h : List.Forall₂ (Record.StoodForBy limit) records standing) {group a : Address}
    (wanted : (Record.united (records.filter fun r => r.group = group)).accepts a = true) :
    (Record.united (standing.flatten.filter fun r => r.group = group)).accepts a = true := by
  simp only [Record.accepts_united, List.any_eq_true, List.mem_filter, decide_eq_true_iff]
    at wanted ⊢
  obtain ⟨r, ⟨hr, rfl⟩, wanted⟩ := wanted
  induction h with
  | nil => simp at hr
  | @cons first standIns rest standing stands _ ih =>
    rcases List.mem_cons.1 hr with rfl | hr
    · have together := stands.accepts wanted
      rw [Record.accepts_united, List.any_eq_true] at together
      obtain ⟨p, hp, asks⟩ := together
      exact ⟨p, ⟨List.mem_append_left _ hp, stands.group p hp⟩, asks⟩
    · obtain ⟨p, ⟨hp, same⟩, asks⟩ := ih hr
      exact ⟨p, ⟨List.mem_append_right _ hp, same⟩, asks⟩

/-- **Splitting loses no record and no interest**, if there is room for a record with one source.
No part is empty, and none is too long. One after the other, the parts list records that stand for
the original ones, in their order. What is asked of a group by all parts together contains
everything that the report asks of it. -/
theorem splitToFit_covers (report : Report) (limit : Nat) (room : 44 ≤ min limit maxLength) :
    (∀ part ∈ report.splitToFit limit,
      part.records ≠ [] ∧ part.encodedLength ≤ min limit maxLength) ∧
    (∃ standing : List (List Record),
      List.Forall₂ (Record.StoodForBy (min limit maxLength)) report.records standing ∧
      (report.splitToFit limit).flatMap records = standing.flatten) ∧
    ∀ group a, (asked group [report]).accepts a = true →
      (asked group (report.splitToFit limit)).accepts a = true := by
  let standing := report.records.map fun r => r.splitToFit (min limit maxLength - headerLength)
  have stands : List.Forall₂ (Record.StoodForBy (min limit maxLength)) report.records standing := by
    refine List.forall₂_map_right_iff.2 (List.forall₂_same.2 fun r _ => ?_)
    exact r.splitToFit_stands room
  have listed : (report.splitToFit limit).flatMap records = standing.flatten := by
    rw [splitToFit, records_fill]
    rfl
  refine ⟨fun part hpart => ?_, ⟨standing, stands, listed⟩, fun group a wanted => ?_⟩
  · exact ⟨records_ne_nil_of_mem_splitToFit hpart, encodedLength_le_of_mem_splitToFit room hpart⟩
  · rw [asked, List.flatMap_singleton] at wanted
    rw [asked, listed]
    exact accepts_united_of_stoodForBy stands wanted

/-- Reports of 44 bytes have room for one IPv6 source. A record that fits is sent as it is, three
sources are sent one by one, and of three exceptions one is kept. -/
theorem splitToFit_covers_narrow :
    let group := Address.v6 0xff3e0000000000000000000000000001
    let source (n : Nat) := Address.v6 (BitVec.ofNat 128 n)
    let sources := [source 1, source 2, source 3]
    let report : Report :=
      ⟨[⟨.block, group, []⟩, ⟨.allow, group, sources⟩, ⟨.toExclude, group, sources⟩]⟩
    (report.splitToFit 44).flatMap records =
      [⟨.block, group, []⟩, ⟨.allow, group, [source 1]⟩, ⟨.allow, group, [source 2]⟩,
        ⟨.allow, group, [source 3]⟩, ⟨.toExclude, group, [source 1]⟩] ∧
    (asked group [report]).accepts (source 2) = true ∧
    (asked group (report.splitToFit 44)).accepts (source 2) = true := by
  intro group source sources report
  have wanted : (asked group [report]).accepts (source 2) = true := by decide
  obtain ⟨-, -, covers⟩ := splitToFit_covers report 44 (by decide)
  exact ⟨by decide, wanted, covers group (source 2) wanted⟩

end Report

end MulticastTunnel

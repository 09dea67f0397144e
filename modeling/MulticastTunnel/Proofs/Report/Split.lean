import Mathlib.Tactic.SplitIfs
import MulticastTunnel.Report.Split

/-!
# What splitting keeps

Splitting a report loses no record: the parts, one after the other, list the records that stand for
the original ones, in their order.

* `Report.records_fill` : filling parts neither drops nor moves records.
* `Report.flatMap_records_splitToFit` : so the parts list the records that stand for the original.
* `Report.mem_splitToFit` : every record sent is of the kind and the group of an original one.
* `Report.splitToFit_of_fits` : a report that fits is sent as it is.
* `Report.splitToFit_fits` : no part is empty, and none is too long.
* `Report.splitToFit_ne_nil` : something is sent of a report that is not empty.
-/

namespace MulticastTunnel

namespace Record

variable {r r' : Record} {limit : Nat}

theorem splitToFit_of_fits (h : r.encodedLength ≤ limit) : r.splitToFit limit = [r] := if_pos h

theorem mem_splitToFit (h : r ∈ r'.splitToFit limit) : r.kind = r'.kind ∧ r.group = r'.group := by
  unfold splitToFit at h
  split_ifs at h
  · obtain rfl := List.mem_singleton.1 h
    exact ⟨rfl, rfl⟩
  · obtain rfl := List.mem_singleton.1 h
    exact ⟨rfl, rfl⟩
  · obtain ⟨sources, -, rfl⟩ := List.mem_map.1 h
    exact ⟨rfl, rfl⟩

theorem of_mem_pieces {α : Type} {size fuel : Nat} {l piece : List α}
    (h : piece ∈ pieces size fuel l) : piece.length ≤ size ∧ piece ⊆ l := by
  induction fuel generalizing l with
  | zero => simp [pieces] at h
  | succ fuel ih =>
    cases l with
    | nil => simp [pieces] at h
    | cons a rest =>
      rcases List.mem_cons.1 h with rfl | h
      · exact ⟨List.length_take_le _ _, List.take_subset _ _⟩
      · obtain ⟨short, subset⟩ := ih h
        exact ⟨short, fun b hb => List.mem_of_mem_drop (subset hb)⟩

theorem sources_splitToFit (h : r ∈ r'.splitToFit limit) : r.sources ⊆ r'.sources := by
  unfold splitToFit at h
  split_ifs at h
  · obtain rfl := List.mem_singleton.1 h
    exact List.Subset.refl _
  · obtain rfl := List.mem_singleton.1 h
    exact List.take_subset _ _
  · obtain ⟨sources, piece, rfl⟩ := List.mem_map.1 h
    exact (of_mem_pieces piece).2

/-- A record of as many sources as fit does fit, if there is room for one source at all. -/
theorem encodedLength_le_of_sourceCapacity {sources : List Address} (room : 36 ≤ limit)
    (h : sources.length ≤ r.sourceCapacity limit) :
    encodedLength { r with sources } ≤ limit := by
  have width : r.group.width ≤ 16 ∧ 0 < r.group.width := by
    cases r.group <;> simp [Address.width]
  have bytes : r.group.width * sources.length ≤ limit - (4 + r.group.width) := by
    refine Nat.le_trans (Nat.mul_le_mul_left _ h) ?_
    unfold sourceCapacity
    rcases Nat.le_total 1 ((limit - (4 + r.group.width)) / r.group.width) with many | one
    · rw [Nat.max_eq_right many]
      exact Nat.mul_div_le _ _
    · rw [Nat.max_eq_left one]
      omega
  simp only [encodedLength, Nat.mul_add]
  omega

theorem splitToFit_ne_nil (room : 20 ≤ limit) : r.splitToFit limit ≠ [] := by
  unfold splitToFit
  split_ifs with fits
  · simp
  · simp
  · have width : r.group.width ≤ 16 := by cases r.group <;> simp [Address.width]
    cases sources : r.sources with
    | nil =>
      simp only [encodedLength, sources, List.length_nil] at fits
      omega
    | cons a rest => simp [pieces]

theorem encodedLength_splitToFit (room : 36 ≤ limit) (h : r ∈ r'.splitToFit limit) :
    r.encodedLength ≤ limit := by
  unfold splitToFit at h
  split_ifs at h with fits
  · obtain rfl := List.mem_singleton.1 h
    exact fits
  · obtain rfl := List.mem_singleton.1 h
    exact encodedLength_le_of_sourceCapacity room (List.length_take_le _ _)
  · obtain ⟨sources, piece, rfl⟩ := List.mem_map.1 h
    exact encodedLength_le_of_sourceCapacity room (of_mem_pieces piece).1

end Record

namespace Report

variable {limit : Nat}

/-- The parts list the records of the part being filled and the coming ones, in this order. -/
theorem records_fill (current : List Record) (length : Nat) (rest : List Record) :
    (fill limit current length rest).flatMap records = current.reverse ++ rest := by
  induction rest generalizing current length with
  | nil =>
    simp only [fill]
    split_ifs with h
    · simp [List.isEmpty_iff.1 h]
    · simp
  | cons r rest ih =>
    simp only [fill]
    split_ifs
    · simp [ih]
    · simp [ih]

theorem flatMap_records_splitToFit (report : Report) (limit : Nat) :
    (report.splitToFit limit).flatMap records =
      report.records.flatMap fun r => r.splitToFit (min limit maxLength - headerLength) :=
  records_fill [] headerLength _

theorem fill_of_fits {current rest : List Record} {length : Nat}
    (h : length + recordsLength rest ≤ limit) :
    fill limit current length rest =
      if current.reverse ++ rest = [] then [] else [⟨current.reverse ++ rest⟩] := by
  induction rest generalizing current length with
  | nil => cases current <;> simp [fill]
  | cons r rest ih =>
    simp only [recordsLength] at h
    have room : ¬ limit < length + r.encodedLength := by omega
    simp only [fill, room, decide_false, Bool.and_false, Bool.false_eq_true, ↓reduceIte]
    rw [ih (by omega)]
    simp

theorem encodedLength_le_recordsLength {r : Record} {records : List Record} (h : r ∈ records) :
    r.encodedLength ≤ recordsLength records := by
  induction records with
  | nil => simp at h
  | cons first rest ih =>
    simp only [recordsLength]
    rcases List.mem_cons.1 h with rfl | h
    · omega
    · have := ih h
      omega

/-- A report that fits is sent as it is, unless there is nothing to send. -/
theorem splitToFit_of_fits {report : Report} (h : report.encodedLength ≤ min limit maxLength) :
    report.splitToFit limit = if report.records = [] then [] else [report] := by
  simp only [encodedLength] at h
  have whole : (report.records.flatMap fun r => r.splitToFit (min limit maxLength - headerLength)) =
      report.records := by
    calc report.records.flatMap (fun r => r.splitToFit (min limit maxLength - headerLength))
        = report.records.flatMap (fun r => [r]) := by
          simp only [List.flatMap_def]
          refine congrArg List.flatten (List.map_congr_left fun r hr => ?_)
          have := encodedLength_le_recordsLength hr
          exact Record.splitToFit_of_fits (by omega)
      _ = report.records := List.flatMap_singleton' _
  simp only [splitToFit, whole]
  rw [fill_of_fits h]
  rfl

theorem recordsLength_append (front back : List Record) :
    recordsLength (front ++ back) = recordsLength front + recordsLength back := by
  induction front with
  | nil => simp [recordsLength]
  | cons r rest ih =>
    simp only [List.cons_append, recordsLength, ih]
    omega

theorem recordsLength_reverse (records : List Record) :
    recordsLength records.reverse = recordsLength records := by
  induction records with
  | nil => rfl
  | cons r rest ih =>
    simp only [List.reverse_cons, recordsLength_append, ih, recordsLength]
    omega

theorem records_ne_nil_of_mem_fill {current rest : List Record} {length : Nat} {part : Report}
    (h : part ∈ fill limit current length rest) : part.records ≠ [] := by
  induction rest generalizing current length with
  | nil =>
    simp only [fill, List.isEmpty_iff] at h
    split_ifs at h with empty
    · simp at h
    · obtain rfl := List.mem_singleton.1 h
      simpa using empty
  | cons r rest ih =>
    simp only [fill] at h
    split_ifs at h with full
    · rcases List.mem_cons.1 h with rfl | h
      · rintro none
        obtain rfl := List.reverse_eq_nil_iff.1 none
        simp at full
      · exact ih h
    · exact ih h

theorem fill_fits (current rest : List Record)
    (fits : current ≠ [] → headerLength + recordsLength current ≤ limit)
    (room : ∀ r ∈ rest, headerLength + r.encodedLength ≤ limit) :
    ∀ part ∈ fill limit current (headerLength + recordsLength current) rest,
      part.encodedLength ≤ limit := by
  have whole {current : List Record} (fits : headerLength + recordsLength current ≤ limit) :
      (mk current.reverse).encodedLength ≤ limit := by
    rwa [encodedLength, recordsLength_reverse]
  induction rest generalizing current with
  | nil =>
    intro part hpart
    simp only [fill, List.isEmpty_iff] at hpart
    split_ifs at hpart with empty
    · simp at hpart
    · obtain rfl := List.mem_singleton.1 hpart
      exact whole (fits empty)
  | cons r rest ih =>
    have here := room r List.mem_cons_self
    have later : ∀ r ∈ rest, headerLength + r.encodedLength ≤ limit :=
      fun r hr => room r (List.mem_cons_of_mem _ hr)
    intro part hpart
    simp only [fill] at hpart
    split_ifs at hpart with full
    · have filled : current ≠ [] := by
        rintro rfl
        simp at full
      rcases List.mem_cons.1 hpart with rfl | hpart
      · exact whole (fits filled)
      · exact ih [r] (fun _ => here) later part hpart
    · have grown : headerLength + recordsLength (r :: current) =
          headerLength + recordsLength current + r.encodedLength := by
        simp only [recordsLength]
        omega
      rw [← grown] at hpart
      refine ih (r :: current) (fun _ => ?_) later part hpart
      rw [grown]
      cases current with
      | nil => simpa [recordsLength] using here
      | cons first others => simpa using full

theorem records_ne_nil_of_mem_splitToFit {report part : Report}
    (h : part ∈ report.splitToFit limit) : part.records ≠ [] := records_ne_nil_of_mem_fill h

/-- No part is too long, if there is room for a record with one source. -/
theorem encodedLength_le_of_mem_splitToFit {report part : Report}
    (room : 44 ≤ min limit maxLength) (h : part ∈ report.splitToFit limit) :
    part.encodedLength ≤ min limit maxLength := by
  have cut : ∀ r ∈ report.records.flatMap fun r =>
        r.splitToFit (min limit maxLength - headerLength),
      headerLength + r.encodedLength ≤ min limit maxLength := by
    intro r hr
    obtain ⟨r', -, split⟩ := List.mem_flatMap.1 hr
    have := Record.encodedLength_splitToFit (by rw [headerLength]; omega) split
    rw [headerLength] at this ⊢
    omega
  exact fill_fits [] _ (by simp) cut part h

/-- **No part of a report is empty, and none is too long**, if the settings are permitted. -/
theorem splitToFit_fits {report : Report} (room : 100 ≤ limit) :
    ∀ part ∈ report.splitToFit limit, part.records ≠ [] ∧ part.encodedLength ≤ limit := by
  intro part hpart
  have enough : 44 ≤ min limit maxLength := Nat.le_min.2 ⟨by omega, by decide⟩
  exact ⟨records_ne_nil_of_mem_splitToFit hpart,
    Nat.le_trans (encodedLength_le_of_mem_splitToFit enough hpart) (Nat.min_le_left _ _)⟩

theorem splitToFit_ne_nil {report : Report} (room : 28 ≤ limit) (some : report.records ≠ []) :
    report.splitToFit limit ≠ [] := by
  intro none
  have sent := flatMap_records_splitToFit report limit
  rw [none] at sent
  obtain ⟨r, rest, split⟩ := List.exists_cons_of_ne_nil some
  have enough : 20 ≤ min limit maxLength - headerLength :=
    Nat.le_sub_of_add_le (Nat.le_min.2 ⟨room, by decide⟩)
  have lost : r.splitToFit (min limit maxLength - headerLength) = [] :=
    List.flatMap_eq_nil_iff.1 sent.symm r (by simp [split])
  exact Record.splitToFit_ne_nil enough lost

theorem sources_splitToFit {report part : Report} {r : Record}
    (hpart : part ∈ report.splitToFit limit) (hr : r ∈ part.records) :
    ∃ r' ∈ report.records, r.group = r'.group ∧ r.sources ⊆ r'.sources := by
  have sent : r ∈ (report.splitToFit limit).flatMap records := List.mem_flatMap.2 ⟨part, hpart, hr⟩
  rw [flatMap_records_splitToFit] at sent
  obtain ⟨r', hr', split⟩ := List.mem_flatMap.1 sent
  exact ⟨r', hr', (Record.mem_splitToFit split).2, Record.sources_splitToFit split⟩

theorem mem_splitToFit {report part : Report} {r : Record} (hpart : part ∈ report.splitToFit limit)
    (hr : r ∈ part.records) : ∃ r' ∈ report.records, r.kind = r'.kind ∧ r.group = r'.group := by
  have sent : r ∈ (report.splitToFit limit).flatMap records := List.mem_flatMap.2 ⟨part, hpart, hr⟩
  rw [flatMap_records_splitToFit] at sent
  obtain ⟨r', hr', split⟩ := List.mem_flatMap.1 sent
  exact ⟨r', hr', Record.mem_splitToFit split⟩

end Report

end MulticastTunnel

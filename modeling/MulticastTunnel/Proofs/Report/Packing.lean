import Mathlib.Data.List.Basic
import MulticastTunnel.Proofs.Report.Split

/-!
# Reports are packed tightly

Filling each part with as many records as fit leads to as few parts as possible. Any other way to
cut the same records into parts that fit is never ahead: when it begins a part, the part being
filled begins there as well or later, so it has not needed fewer.

* `Report.Packs` : parts that list some records and fit.
* `Report.length_fill_le` : filling is never behind.
* `Report.splitToFit_fewest` : **no packing has fewer parts**, and a part is not split again.
-/

namespace MulticastTunnel

namespace Report

variable {limit : Nat}

/-- Some parts, one after the other, list the records, and each of them fits. -/
structure Packs (limit : Nat) (records : List Record) (parts : List Report) : Prop where
  listed : parts.flatMap Report.records = records
  fits : ∀ part ∈ parts, part.encodedLength ≤ limit

/-- The first of some parts that fit, if records come in after which one more does not fit: it ends
before that one. -/
theorem Packs.exists_behind {front back : List Record} {r : Record} {parts : List Report}
    (packs : Packs limit (front ++ r :: back) parts)
    (full : limit < headerLength + recordsLength front + r.encodedLength) :
    ∃ first rest behind, parts = first :: rest ∧ Packs limit (behind ++ r :: back) rest := by
  obtain ⟨listed, fits⟩ := packs
  cases parts with
  | nil => simp at listed
  | cons first rest =>
    have short := fits first List.mem_cons_self
    have fits : ∀ part ∈ rest, part.encodedLength ≤ limit :=
      fun part hpart => fits part (List.mem_cons_of_mem _ hpart)
    rw [List.flatMap_cons] at listed
    rcases List.append_eq_append_iff.1 listed with ⟨behind, -, later⟩ | ⟨more, whole, later⟩
    · exact ⟨first, rest, behind, rfl, later, fits⟩
    · cases more with
      | nil => exact ⟨first, rest, [], rfl, later.symm, fits⟩
      | cons r' more =>
        -- otherwise it holds the record that does not fit
        obtain ⟨rfl, -⟩ := List.cons.inj later
        rw [encodedLength, whole, recordsLength_append, recordsLength] at short
        omega

/-- **Filling is never behind.** To pack what is in the part being filled and what is to come, with
anything before it, takes at least as many parts. -/
theorem length_fill_le {current rest : List Record} {behind : List Record} {parts : List Report}
    (packs : Packs limit (behind ++ current.reverse ++ rest) parts) :
    (fill limit current (headerLength + recordsLength current) rest).length ≤ parts.length := by
  induction rest generalizing current behind parts with
  | nil =>
    simp only [fill, List.isEmpty_iff]
    split_ifs with empty
    · exact Nat.zero_le _
    · cases parts with
      | nil => simpa [empty] using packs.listed
      | cons first others => exact Nat.succ_le_succ (Nat.zero_le _)
  | cons r rest ih =>
    simp only [fill]
    split_ifs with full
    · simp only [Bool.and_eq_true, decide_eq_true_eq] at full
      have long : limit < headerLength + recordsLength (behind ++ current.reverse) +
          r.encodedLength := by
        rw [recordsLength_append, recordsLength_reverse]
        omega
      obtain ⟨first, others, behind', rfl, packed⟩ := packs.exists_behind long
      have packed : Packs limit (behind' ++ [r].reverse ++ rest) others := by simpa using packed
      exact Nat.succ_le_succ (ih packed)
    · have grown : headerLength + recordsLength current + r.encodedLength =
          headerLength + recordsLength (r :: current) := by
        simp only [recordsLength]
        omega
      have packed : Packs limit (behind ++ (r :: current).reverse ++ rest) parts := by
        simpa using packs
      rw [grown]
      exact ih packed

/-- **A report is split into as few parts as possible**, if there is room for a record with one
source. The parts pack the records that stand for the original ones, and no other packing of these
records has fewer parts. With the same limit, a part is not split again. -/
theorem splitToFit_fewest (report : Report) (limit : Nat) (room : 44 ≤ min limit maxLength) :
    let records := report.records.flatMap fun r =>
      r.splitToFit (min limit maxLength - headerLength)
    let parts := report.splitToFit limit
    Packs (min limit maxLength) records parts ∧ (∀ part ∈ parts, part.records ≠ []) ∧
    (∀ others, Packs (min limit maxLength) records others → parts.length ≤ others.length) ∧
    ∀ part ∈ parts, part.splitToFit limit = [part] := by
  intro records parts
  have fits : ∀ part ∈ parts, part.encodedLength ≤ min limit maxLength :=
    fun part hpart => encodedLength_le_of_mem_splitToFit room hpart
  have filled : ∀ part ∈ parts, part.records ≠ [] :=
    fun part hpart => records_ne_nil_of_mem_splitToFit hpart
  refine ⟨⟨flatMap_records_splitToFit report limit, fits⟩, filled, fun others packs => ?_,
    fun part hpart => ?_⟩
  · have packed : Packs (min limit maxLength) ([] ++ [].reverse ++ records) others := packs
    exact length_fill_le packed
  · rw [splitToFit_of_fits (fits part hpart), if_neg (filled part hpart)]

/-- Three records that do not fit a report of 100 bytes together. The first two are filled into one
part; the last two would fit one as well, to the byte, but that is no better. -/
theorem splitToFit_fewest_three :
    let group := Address.ofOctets 239 1 1 1
    let listing (n : Nat) : Record :=
      ⟨.allow, group, (List.range n).map fun i => .ofOctets 10 0 0 (UInt8.ofNat i)⟩
    let report : Report := ⟨[listing 4, listing 10, listing 9]⟩
    44 ≤ min 100 maxLength ∧
      report.splitToFit 100 = [⟨[listing 4, listing 10]⟩, ⟨[listing 9]⟩] ∧
      (Report.mk [listing 9]).splitToFit 100 = [⟨[listing 9]⟩] ∧
      Packs 100 report.records [⟨[listing 4]⟩, ⟨[listing 10, listing 9]⟩] ∧
      (report.splitToFit 100).length ≤ 2 := by
  intro group listing report
  have room : 44 ≤ min 100 maxLength := by decide
  have split : report.splitToFit 100 = [⟨[listing 4, listing 10]⟩, ⟨[listing 9]⟩] := by decide
  obtain ⟨-, -, fewest, again⟩ := splitToFit_fewest report 100 room
  have others : Packs 100 report.records [⟨[listing 4]⟩, ⟨[listing 10, listing 9]⟩] :=
    ⟨by decide, by decide⟩
  exact ⟨room, split, again _ (by simp [split]), others, fewest _ others⟩

end Report

end MulticastTunnel

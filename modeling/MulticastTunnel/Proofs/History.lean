import Mathlib.Data.List.DropRight
import Mathlib.Data.List.Induction

/-!
# What has happened before

A history is a list of what has happened, the latest at its end.

* `concat_eq_append_cons` : where something in a longer history stands.
* `Since P Q history` : something with `Q` has happened, and nothing but `P` after it.
* `Since.now`, `Since.keep` : how it comes about, and what keeps it.
* `Since.exists_after` : what must have come after a happening that breaks `P`.
-/

namespace MulticastTunnel

variable {α : Type} {P : α → Prop} {Q : List α → α → Prop} {history : List α} {a : α}

/-- Where something in a longer history stands: it is the latest, or it was there before. -/
theorem concat_eq_append_cons {earlier later : List α} {b : α}
    (h : history ++ [b] = earlier ++ a :: later) :
    (later = [] ∧ history = earlier ∧ b = a) ∨
      ∃ between, later = between ++ [b] ∧ history = earlier ++ a :: between := by
  rcases List.eq_nil_or_concat later with rfl | ⟨between, last, rfl⟩
  · obtain ⟨same, last⟩ := List.append_inj' h rfl
    exact .inl ⟨rfl, same, (List.cons.inj last).1⟩
  · rw [List.concat_eq_append, ← List.cons_append, ← List.append_assoc] at h
    obtain ⟨same, last⟩ := List.append_inj' h rfl
    obtain ⟨rfl, -⟩ := List.cons.inj last
    exact .inr ⟨between, List.concat_eq_append, same⟩

/-- Something with `Q` has happened, and nothing but `P` after it. `Q` also speaks of what had
happened earlier. -/
def Since (P : α → Prop) (Q : List α → α → Prop) (history : List α) : Prop :=
  ∃ earlier a later, history = earlier ++ a :: later ∧ Q earlier a ∧ ∀ b ∈ later, P b

namespace Since

theorem now (h : Q history a) : Since P Q (history ++ [a]) :=
  ⟨history, a, [], rfl, h, by simp⟩

theorem keep (h : Since P Q history) (ha : P a) : Since P Q (history ++ [a]) := by
  obtain ⟨earlier, b, later, rfl, hb, hlater⟩ := h
  refine ⟨earlier, b, later ++ [a], by simp, hb, fun c hc => ?_⟩
  rcases List.mem_append.1 hc with hc | hc
  · exact hlater c hc
  · obtain rfl := List.mem_singleton.1 hc
    exact ha

/-- After a happening without `P`, and without `Q` itself, there must have been one with `Q`. -/
theorem exists_after {earlier later : List α} (h : Since P Q (earlier ++ a :: later))
    (hP : ¬ P a) (hQ : ∀ before, ¬ Q before a) : ∃ b ∈ later, ∃ before, Q before b := by
  obtain ⟨before, b, after, heq, hb, hafter⟩ := h
  -- the two ways to split the history, at `a` and at `b`, overlap
  rcases List.append_eq_append_iff.1 heq with ⟨gap, -, hgap⟩ | ⟨gap, -, hgap⟩
  · cases gap with
    | nil =>
      obtain ⟨rfl, -⟩ := List.cons.inj hgap
      exact absurd hb (hQ before)
    | cons c gap =>
      obtain ⟨-, rfl⟩ := List.cons.inj hgap
      exact ⟨b, by simp, before, hb⟩
  · cases gap with
    | nil =>
      obtain ⟨rfl, -⟩ := List.cons.inj hgap
      exact absurd hb (hQ before)
    | cons c gap =>
      obtain ⟨-, rfl⟩ := List.cons.inj hgap
      exact absurd (hafter a (by simp)) hP

end Since

end MulticastTunnel

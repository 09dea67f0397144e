import Mathlib.Data.List.Induction
import MulticastTunnel.Interest.Asked
import MulticastTunnel.Proofs.Interest.Filter

/-!
# What several queries ask about

Queries that wait for one response are merged one by one, as they come. What they ask about
together does not depend on how they came: it is everything if one of them asked about everything,
and otherwise the sources that any of them named.

* `AskedSources.Within` : what is asked about is asked about by more queries as well.
* `AskedSources.ofQueries_eq` : **queries that are merged one by one**.
-/

namespace MulticastTunnel

namespace AskedSources

variable {a b c : AskedSources} {sources : List Address} {queries : List (List Address)}

/-- All that is asked about on the left is asked about on the right. -/
def Within : AskedSources → AskedSources → Prop
  | _, all => True
  | all, only _ => False
  | only sources, only others => ∀ a ∈ sources, a ∈ others

namespace Within

@[refl] theorem refl (a : AskedSources) : a.Within a := by
  cases a with
  | all => trivial
  | only sources => exact fun _ h => h

theorem trans (h : a.Within b) (h' : b.Within c) : a.Within c := by
  cases c with
  | all => cases a <;> trivial
  | only _ =>
    cases b with
    | all => exact h'.elim
    | only _ =>
      cases a with
      | all => exact h.elim
      | only _ => exact fun x hx => h' x (h x hx)

theorem merge (a : AskedSources) (sources : List Address) : a.Within (a.merge sources) := by
  cases a with
  | all => trivial
  | only earlier =>
    cases sources with
    | nil => trivial
    | cons x rest => exact fun a ha => AddressSet.mem_union.2 (.inl ha)

theorem ofQuery_merge (a : AskedSources) (sources : List Address) :
    (ofQuery sources).Within (a.merge sources) := by
  cases a with
  | all => cases sources <;> trivial
  | only earlier =>
    cases sources with
    | nil => trivial
    | cons x rest => exact fun a ha => AddressSet.mem_union.2 (.inr ha)

end Within

/-! ### Queries one by one -/

/-- What queries with these sources ask about, merged one by one. -/
def ofQueries : List (List Address) → Option AskedSources
  | [] => none
  | first :: rest => some (rest.foldl merge (ofQuery first))

theorem ofQueries_concat :
    ofQueries (queries ++ [sources]) =
      some ((ofQueries queries).elim (ofQuery sources) (·.merge sources)) := by
  cases queries with
  | nil => rfl
  | cons first rest => simp [ofQueries]

/-- One of the queries names no sources, and so asks about everything. -/
def SomeAll (queries : List (List Address)) : Prop := [] ∈ queries

instance : Decidable (SomeAll queries) := inferInstanceAs (Decidable ([] ∈ queries))

/-- What several queries ask about at once. -/
def together (queries : List (List Address)) : AskedSources :=
  if SomeAll queries then all else only (AddressSet.ofList queries.flatten)

theorem ofQuery_eq_together : ofQuery sources = together [sources] := by
  cases sources with
  | nil => rfl
  | cons x rest => simp [ofQuery, together, SomeAll]

theorem merge_together : (together queries).merge sources = together (queries ++ [sources]) := by
  -- once everything is asked about, sources make no difference
  by_cases whole : SomeAll queries
  · have whole' : SomeAll (queries ++ [sources]) := List.mem_append_left _ whole
    rw [together, together, if_pos whole, if_pos whole', merge]
  · cases sources with
    | nil =>
      have whole' : SomeAll (queries ++ [[]]) := by simp [SomeAll]
      rw [together, together, if_neg whole, if_pos whole', merge]
    | cons x rest =>
      have union : AddressSet.ofList queries.flatten ∪ AddressSet.ofList (x :: rest) =
          AddressSet.ofList (queries ++ [x :: rest]).flatten :=
        AddressSet.eq_of_mem_iff fun a => by simp
      have partial' : ¬ SomeAll (queries ++ [x :: rest]) := by simpa [SomeAll] using whole
      rw [together, together, if_neg whole, if_neg partial', merge, union]
      simp

/-- **Queries that are merged one by one** ask about everything if one of them does, and otherwise
about the sources that any of them names. -/
theorem ofQueries_eq (some : queries ≠ []) : ofQueries queries = .some (together queries) := by
  induction queries using List.reverseRecOn with
  | nil => exact absurd rfl some
  | append_singleton queries sources ih =>
    rw [ofQueries_concat]
    cases queries with
    | nil => exact congrArg _ ofQuery_eq_together
    | cons first rest => rw [ih (by simp), Option.elim_some, merge_together]

end AskedSources

end MulticastTunnel

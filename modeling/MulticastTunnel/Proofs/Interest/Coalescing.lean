import MulticastTunnel.Interest.Group
import MulticastTunnel.Proofs.Interest.Asked

/-!
# One response instead of several

Queries about a group that wait for one response get what separate responses would have told. What
was asked about is a set, so neither the order in which the queries came nor repetitions make a
difference. If one of them asked about the group as a whole, the response is its current state.
Otherwise the response lists a source exactly if the response to one of the queries alone would
have listed it, that is, if it was asked about and the filter accepts it.

* `AskedSources.ofQueries_congr` : only which queries there are matters.
* `GroupState.mem_wantedAmong` : what a filter of either mode wants among some sources.
* `GroupState.mem_listed_ofQuery` : what the response to a single query lists.
* `GroupState.response_coalesces` : **one response tells what separate responses tell**.
-/

namespace MulticastTunnel

namespace AskedSources

variable {queries others : List (List Address)}

theorem together_congr (same : ∀ q, q ∈ others ↔ q ∈ queries) :
    together others = together queries := by
  have whole : SomeAll others ↔ SomeAll queries := same []
  have sources : AddressSet.ofList others.flatten = AddressSet.ofList queries.flatten := by
    refine AddressSet.eq_of_mem_iff fun a => ?_
    simp only [AddressSet.mem_ofList, List.mem_flatten, same]
  simp only [together, whole, sources]

/-- What queries ask about together is a matter of which queries there are, and not of their order
or of repetitions. -/
theorem ofQueries_congr (same : ∀ q, q ∈ others ↔ q ∈ queries) :
    ofQueries others = ofQueries queries := by
  by_cases none : queries = []
  · subst none
    have none' : others = [] := List.eq_nil_iff_forall_not_mem.2 fun q hq => by
      simpa using (same q).1 hq
    rw [none']
  · have some : others ≠ [] := by
      intro none'
      subst none'
      exact none (List.eq_nil_iff_forall_not_mem.2 fun q hq => by simpa using (same q).2 hq)
    rw [ofQueries_eq none, ofQueries_eq some, together_congr same]

end AskedSources

namespace GroupState

variable {g : GroupState} {a : Address} {sources : AddressSet} {query : List Address}

theorem mem_wantedAmong : a ∈ g.wantedAmong sources ↔ a ∈ sources ∧ g.filter.accepts a = true := by
  cases mode : g.filter.mode with
  | including => simp [wantedAmong, SourceFilter.accepts, mode, and_comm]
  | excluding => simp [wantedAmong, SourceFilter.accepts, mode]

theorem currentState_eq_none_iff : g.currentState = none ↔ g.filter = .noInterest := by
  rw [← SourceFilter.isEmpty_iff]
  cases empty : g.filter.isEmpty <;> simp [currentState, empty]

/-! ### Responses that list sources -/

/-- The sources that a response lists, if there is one. -/
def listed (response : Option Record) : List Address := response.elim [] Record.sources

/-- The response that lists the given sources, if there are any. -/
def listing (group : Address) : List Address → Option Record
  | [] => none
  | a :: rest => some ⟨.isInclude, group, a :: rest⟩

@[simp] theorem listing_eq_none_iff {group : Address} {l : List Address} :
    listing group l = none ↔ l = [] := by
  cases l <;> simp [listing]

@[simp] theorem listed_listing (group : Address) (l : List Address) :
    listed (listing group l) = l := by
  cases l <;> rfl

theorem response_only (g : GroupState) (sources : AddressSet) :
    g.response (.only sources) = listing g.group (g.wantedAmong sources).toList := by
  have shape : ∀ wanted : AddressSet, (if wanted.isEmpty then none
      else some ⟨.isInclude, g.group, wanted.toList⟩) = listing g.group wanted.toList := by
    rintro ⟨list, -⟩
    cases list with
    | nil => rfl
    | cons a rest => rfl
  exact shape _

theorem mem_listed_ofQuery (named : query ≠ []) :
    a ∈ listed (g.response (.ofQuery query)) ↔ a ∈ query ∧ g.filter.accepts a = true := by
  cases query with
  | nil => exact absurd rfl named
  | cons first rest =>
    rw [AskedSources.ofQuery, response_only, listed_listing, AddressSet.mem_toList,
      mem_wantedAmong, AddressSet.mem_ofList]
    simp

/-! ### Queries together -/

/-- **One response tells what separate responses tell.** What was asked about, merged query by
query, does not depend on the order of the queries or on repetitions. If one of the queries names
no sources, the response is the current state, and there is none exactly if nothing is wanted of
the group. Otherwise the response lists, in ascending order, the sources that the responses to the
queries alone list, which are those named that the filter accepts; and there is none exactly if
there are no such sources. -/
theorem response_coalesces (g : GroupState) {queries : List (List Address)} (some : queries ≠ []) :
    ∃ asked, AskedSources.ofQueries queries = .some asked ∧
      (∀ others, (∀ q, q ∈ others ↔ q ∈ queries) → AskedSources.ofQueries others = .some asked) ∧
      ([] ∈ queries → g.response asked = g.currentState ∧
        (g.response asked = none ↔ g.filter = .noInterest)) ∧
      ([] ∉ queries → ∃ sources, Ascending sources ∧
        (∀ a, a ∈ sources ↔ ∃ q ∈ queries, a ∈ listed (g.response (.ofQuery q))) ∧
        (∀ a, a ∈ sources ↔ (∃ q ∈ queries, a ∈ q) ∧ g.filter.accepts a = true) ∧
        g.response asked = listing g.group sources ∧
        (g.response asked = none ↔ sources = [])) := by
  refine ⟨.together queries, AskedSources.ofQueries_eq some, ?_, ?_, ?_⟩
  · intro others same
    rw [AskedSources.ofQueries_congr same, AskedSources.ofQueries_eq some]
  · intro whole
    have all : AskedSources.together queries = .all := if_pos whole
    rw [all]
    exact ⟨rfl, currentState_eq_none_iff⟩
  · intro named
    have only : AskedSources.together queries = .only (AddressSet.ofList queries.flatten) :=
      if_neg named
    have wanted (a : Address) : a ∈ (g.wantedAmong (AddressSet.ofList queries.flatten)).toList ↔
        (∃ q ∈ queries, a ∈ q) ∧ g.filter.accepts a = true := by
      rw [AddressSet.mem_toList, mem_wantedAmong, AddressSet.mem_ofList, List.mem_flatten]
    have alone (a : Address) : (∃ q ∈ queries, a ∈ listed (g.response (.ofQuery q))) ↔
        (∃ q ∈ queries, a ∈ q) ∧ g.filter.accepts a = true := by
      constructor
      · rintro ⟨q, hq, listed⟩
        obtain ⟨ha, accepted⟩ := (mem_listed_ofQuery (ne_of_mem_of_not_mem hq named)).1 listed
        exact ⟨⟨q, hq, ha⟩, accepted⟩
      · rintro ⟨⟨q, hq, ha⟩, accepted⟩
        exact ⟨q, hq, (mem_listed_ofQuery (ne_of_mem_of_not_mem hq named)).2 ⟨ha, accepted⟩⟩
    rw [only, response_only]
    exact ⟨_, (g.wantedAmong _).ascending, fun a => (wanted a).trans (alone a).symm, wanted, rfl,
      listing_eq_none_iff⟩

/-- Three queries about a group of which all but one source are wanted, two of them naming that
source; and a fourth one, about the whole group. -/
theorem response_coalesces_overlapping :
    let source (n : UInt8) := Address.ofOctets 10 0 0 n
    let group := Address.ofOctets 239 1 1 1
    let g := { fresh group with filter := .excluding (AddressSet.ofList [source 1]) }
    let named := [[source 3, source 1], [source 2, source 3], [source 1]]
    named ≠ [] ∧ [] ∉ named ∧
    (∃ asked, AskedSources.ofQueries named = some asked ∧
      AskedSources.ofQueries (named.reverse ++ named) = some asked ∧
      g.response asked = some ⟨.isInclude, group, [source 2, source 3]⟩) ∧
    ∃ asked, AskedSources.ofQueries (named ++ [[]]) = some asked ∧
      g.response asked = some ⟨.isExclude, group, [source 1]⟩ := by
  intro source group g named
  have some : named ≠ [] := by decide
  have partly : [] ∉ named := by decide
  refine ⟨some, partly, ?_, ?_⟩
  · have together : AskedSources.ofQueries named =
        .some (.only (AddressSet.ofList [source 1, source 2, source 3])) := by decide
    obtain ⟨asked, merged, again, -, listed⟩ := g.response_coalesces some
    obtain rfl := Option.some.inj (together.symm.trans merged)
    obtain ⟨sources, -, -, -, told, -⟩ := listed partly
    have two : sources = [source 2, source 3] := by
      rw [← listed_listing g.group sources, ← told]
      decide
    exact ⟨_, merged, again _ fun q => by simp, told.trans (by rw [two]; rfl)⟩
  · have some' : named ++ [[]] ≠ [] := by decide
    obtain ⟨asked, merged, -, whole, -⟩ := g.response_coalesces some'
    exact ⟨asked, merged, (whole (by decide)).1⟩

end GroupState

end MulticastTunnel

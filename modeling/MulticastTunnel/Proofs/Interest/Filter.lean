import Mathlib.Tactic.ByContra
import Mathlib.Tactic.Tauto
import MulticastTunnel.Interest.Change

/-!
# Filters by what they accept

A filter is determined by its mode and by the sources that it accepts, whether these are the
listed ones or the others. Changes of a filter, and the reasons to refuse one, are described in
these terms.

* `SourceFilter.eq_of_accepts` : the extensionality of filters.
* `SourceFilter.accepts_union` : what a union accepts.
* `SourceFilter.problemFor_eq_none_iff` : which filters may be asked for a group.
* `SourceFilter.problemFor_union` : a union may be asked for if its parts may.
* `StateChange.mem_between_fst`, `StateChange.mem_between_snd` : what a change of the sources is.
* `StateChange.mentions_fold` : the sources that a change can name.
* `StateChange.isReal_fold` : a change has something to report.
-/

namespace MulticastTunnel

namespace AddressSet

attribute [simp] mem_toList not_mem_empty mem_ofList mem_union mem_inter mem_sdiff

@[simp] theorem isEmpty_iff {s : AddressSet} : s.isEmpty = true ↔ s = ∅ := by
  constructor
  · intro h
    have nil : s.toList = [] := List.isEmpty_iff.1 h
    refine eq_of_mem_iff fun a => iff_of_false (fun ha => ?_) (not_mem_empty a)
    rw [← mem_toList, nil] at ha
    exact List.not_mem_nil ha
  · rintro rfl; rfl

@[simp] theorem ofList_toList (s : AddressSet) : ofList s.toList = s :=
  eq_of_mem_iff fun a => by simp

end AddressSet

namespace SourceFilter

variable {f g : SourceFilter} {a group : Address}

theorem eq_of_accepts (hmode : f.mode = g.mode) (h : ∀ a, f.accepts a = g.accepts a) : f = g := by
  obtain ⟨mode, s⟩ := f
  obtain ⟨mode', t⟩ := g
  obtain rfl : mode = mode' := hmode
  congr 1
  refine AddressSet.eq_of_mem_iff fun a => ?_
  have := h a
  cases mode <;> simpa [accepts] using this

@[simp] theorem isEmpty_iff : f.isEmpty = true ↔ f = noInterest := by
  obtain ⟨mode, s⟩ := f
  cases mode <;> simp [isEmpty, noInterest, including]

/-- **A union accepts** what either filter accepts. -/
theorem accepts_union : (f.union g).accepts a = (f.accepts a || g.accepts a) := by
  obtain ⟨mode, s⟩ := f
  obtain ⟨mode', t⟩ := g
  cases mode <;> cases mode' <;>
    by_cases left : a ∈ s <;> by_cases right : a ∈ t <;>
    simp [union, accepts, including, excluding, left, right]

@[simp] theorem noInterest_union (f : SourceFilter) : noInterest.union f = f := by
  obtain ⟨mode, s⟩ := f
  cases mode <;>
    exact eq_of_accepts rfl fun a => by simp [noInterest, including, union, accepts, excluding]

@[simp] theorem allSources_union (f : SourceFilter) : allSources.union f = allSources := by
  obtain ⟨mode, s⟩ := f
  cases mode <;> exact eq_of_accepts rfl fun a => by simp [allSources, excluding, union, accepts]

@[simp] theorem union_allSources (f : SourceFilter) : f.union allSources = allSources := by
  obtain ⟨mode, s⟩ := f
  cases mode <;> exact eq_of_accepts rfl fun a => by simp [allSources, excluding, union, accepts]

/-- A filter may be asked for a group that is one, with sources that can be listed for it, and not
in EXCLUDE mode if the group is source-specific. -/
theorem problemFor_eq_none_iff : f.problemFor group = none ↔
    group.isMulticast ∧ (∀ a ∈ f.sources, sourceProblem group a = none) ∧
      ¬ (f.mode = .excluding ∧ group.isSourceSpecific) := by
  cases hgroup : group.isMulticast with
  | false => simp [problemFor, hgroup]
  | true =>
    simp only [problemFor, hgroup]
    cases hsources : f.sources.toList.findSome? (sourceProblem group) with
    | some problem =>
      obtain ⟨a, ha, hproblem⟩ := List.exists_of_findSome?_eq_some hsources
      have : ¬ ∀ a ∈ f.sources, sourceProblem group a = none := fun h => by
        simp [h a ha] at hproblem
      simp [this]
    | none =>
      have sound : ∀ a ∈ f.sources, sourceProblem group a = none :=
        List.findSome?_eq_none_iff.1 hsources
      simp only [beq_iff_eq, Bool.and_eq_true, ite_eq_right_iff, reduceCtorEq, imp_false,
        true_and, Bool.not_true, Bool.false_eq_true, ↓reduceIte]
      exact ⟨fun h => ⟨sound, h⟩, And.right⟩

theorem sameFamily_of_sourceProblem (h : sourceProblem group a = none) : a.sameFamily group := by
  unfold sourceProblem at h
  split at h
  · simp at h
  · next same => simpa using same

theorem problemFor_noInterest (h : group.isMulticast) : noInterest.problemFor group = none :=
  problemFor_eq_none_iff.2 ⟨h, by simp [noInterest, including], by simp [noInterest, including]⟩

theorem mem_sources_union (h : a ∈ (f.union g).sources) : a ∈ f.sources ∨ a ∈ g.sources := by
  obtain ⟨mode, s⟩ := f
  obtain ⟨mode', t⟩ := g
  cases mode <;> cases mode' <;> simp [union, including, excluding] at h ⊢ <;> tauto

theorem mode_union : (f.union g).mode = .excluding ↔ f.mode = .excluding ∨ g.mode = .excluding := by
  obtain ⟨mode, s⟩ := f
  obtain ⟨mode', t⟩ := g
  cases mode <;> cases mode' <;> simp [union, including, excluding]

theorem problemFor_union (hf : f.problemFor group = none) (hg : g.problemFor group = none) :
    (f.union g).problemFor group = none := by
  obtain ⟨multicast, sourcesf, modef⟩ := problemFor_eq_none_iff.1 hf
  obtain ⟨-, sourcesg, modeg⟩ := problemFor_eq_none_iff.1 hg
  refine problemFor_eq_none_iff.2 ⟨multicast, fun a ha => ?_, ?_⟩
  · rcases mem_sources_union ha with ha | ha
    · exact sourcesf a ha
    · exact sourcesg a ha
  · rintro ⟨excluding, specific⟩
    rcases mode_union.1 excluding with h | h
    · exact modef ⟨h, specific⟩
    · exact modeg ⟨h, specific⟩

end SourceFilter

namespace StateChange

variable {old new : SourceFilter} {a : Address}

theorem mem_between_fst (hmode : old.mode = new.mode) :
    a ∈ (between old new).1 ↔ old.accepts a = false ∧ new.accepts a = true := by
  obtain ⟨mode, s⟩ := old
  obtain ⟨_, t⟩ := new
  obtain rfl := hmode
  cases mode <;> simp [between, SourceFilter.accepts, and_comm]

theorem mem_between_snd (hmode : old.mode = new.mode) :
    a ∈ (between old new).2 ↔ old.accepts a = true ∧ new.accepts a = false := by
  obtain ⟨mode, s⟩ := old
  obtain ⟨_, t⟩ := new
  obtain rfl := hmode
  cases mode <;> simp [between, SourceFilter.accepts, and_comm]

/-- The change names a source. -/
def Mentions (change : StateChange) (a : Address) : Prop :=
  match change with
  | mode => False
  | sources allow block => a ∈ allow ∨ a ∈ block

/-- Every source that a change names was named by the change pending before, or is listed by one
of the filters. -/
theorem mentions_fold {pending : Option StateChange} (h : (fold pending old new).Mentions a) :
    (∃ change, pending = some change ∧ change.Mentions a) ∨ a ∈ old.sources ∨ a ∈ new.sources := by
  unfold fold at h
  split at h
  · exact h.elim
  · rcases pending with _ | _ | ⟨allow, block⟩ <;> cases hmode : new.mode <;>
      simp [Mentions, between, hmode] at h ⊢ <;> tauto

/-- There is something to report of the change. -/
def IsReal : StateChange → Prop
  | mode => True
  | sources allow block => allow ≠ ∅ ∨ block ≠ ∅

theorem exists_mem_between (differs : old ≠ new) (hmode : old.mode = new.mode) :
    (∃ a, a ∈ (between old new).1) ∨ ∃ a, a ∈ (between old new).2 := by
  obtain ⟨a, ha⟩ : ∃ a, old.accepts a ≠ new.accepts a := by
    by_contra same
    exact differs (SourceFilter.eq_of_accepts hmode fun a => not_not.1 fun ha => same ⟨a, ha⟩)
  cases before : old.accepts a with
  | false => exact .inl ⟨a, (mem_between_fst hmode).2 ⟨before, by simpa [before] using ha.symm⟩⟩
  | true => exact .inr ⟨a, (mem_between_snd hmode).2 ⟨before, by simpa [before] using ha.symm⟩⟩

/-- **A change of the filter leaves something to report**, whatever was pending before. -/
theorem isReal_fold (differs : old ≠ new) (pending : Option StateChange) :
    (fold pending old new).IsReal := by
  have present {a : Address} {s : AddressSet} (ha : a ∈ s) : s ≠ ∅ := by
    rintro rfl
    exact AddressSet.not_mem_empty a ha
  unfold fold
  split
  · trivial
  · next same =>
    rcases exists_mem_between differs (not_not.1 same) with ⟨a, ha⟩ | ⟨a, ha⟩
    · rcases pending with _ | _ | ⟨allow, block⟩
      · exact .inl (present ha)
      · trivial
      · exact .inl (present (AddressSet.mem_union.2 (.inr ha)))
    · rcases pending with _ | _ | ⟨allow, block⟩
      · exact .inr (present ha)
      · trivial
      · exact .inr (present (AddressSet.mem_union.2 (.inr ha)))

theorem records_ne_nil {p : PendingChange} (h : p.change.IsReal) (group : Address)
    (filter : SourceFilter) : p.records group filter ≠ [] := by
  unfold PendingChange.records
  split
  · simp
  · next allow block change =>
    rw [change] at h
    rcases h with some | some
    · simp [some]
    · simp [some]

end StateChange

end MulticastTunnel

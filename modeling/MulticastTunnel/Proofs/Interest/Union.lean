import MulticastTunnel.Proofs.Interest.Filter

/-!
# The laws of unions

Two things determine a filter: whether it is in EXCLUDE mode, and what it accepts. A union is in
EXCLUDE mode if one of its parts is, and accepts what one of its parts accepts. So whatever the
modes of the parts are, the laws of unions are those of "or".

* `SourceFilter.eq_iff` : when two filters are equal, in these terms.
* `SourceFilter.union_comm`, `SourceFilter.union_assoc`, `SourceFilter.union_self` : the laws.
* `SourceFilter.foldl_union_congr` : several joins come to the same in any order, and however often
  each is repeated.
* `SourceFilter.union_combines_interest` : **a union is exactly the interest of its parts**.
-/

namespace MulticastTunnel

namespace SourceFilter

variable {f g : SourceFilter} {a : Address}

theorem eq_iff : f = g ↔
    (f.mode = .excluding ↔ g.mode = .excluding) ∧ ∀ a, f.accepts a = g.accepts a := by
  constructor
  · rintro rfl
    exact ⟨Iff.rfl, fun _ => rfl⟩
  · rintro ⟨modes, accepts⟩
    refine eq_of_accepts ?_ accepts
    cases hf : f.mode <;> cases hg : g.mode <;> simp_all

/-! ### The laws -/

theorem union_comm (f g : SourceFilter) : f.union g = g.union f :=
  eq_iff.2 ⟨by simp only [mode_union, or_comm], fun a => by
    simp only [accepts_union, Bool.or_comm]⟩

theorem union_assoc (f g h : SourceFilter) : (f.union g).union h = f.union (g.union h) :=
  eq_iff.2 ⟨by simp only [mode_union, or_assoc], fun a => by
    simp only [accepts_union, Bool.or_assoc]⟩

@[simp] theorem union_self (f : SourceFilter) : f.union f = f :=
  eq_iff.2 ⟨by simp only [mode_union, or_self], fun a => by
    simp only [accepts_union, Bool.or_self]⟩

@[simp] theorem union_noInterest (f : SourceFilter) : f.union noInterest = f := by
  rw [union_comm, noInterest_union]

/-! ### Several joins -/

theorem mode_foldl_union (f : SourceFilter) (joined : List SourceFilter) :
    (joined.foldl union f).mode = .excluding ↔ ∃ g ∈ f :: joined, g.mode = .excluding := by
  induction joined generalizing f with
  | nil => simp
  | cons g joined ih => simp [ih, mode_union, or_assoc]

theorem accepts_foldl_union (f : SourceFilter) (joined : List SourceFilter) :
    (joined.foldl union f).accepts a = (f :: joined).any (·.accepts a) := by
  induction joined generalizing f with
  | nil => simp
  | cons g joined ih => simp [ih, accepts_union, Bool.or_assoc]

/-- What several joins come to is a matter of which filters have been joined, and not of their
order or of repetitions. -/
theorem foldl_union_congr {joined joined' : List SourceFilter}
    (same : ∀ g, g ∈ f :: joined ↔ g ∈ f :: joined') :
    joined.foldl union f = joined'.foldl union f := by
  refine eq_iff.2 ⟨?_, fun a => ?_⟩
  · simp only [mode_foldl_union, same]
  · rw [accepts_foldl_union, accepts_foldl_union, Bool.eq_iff_iff]
    simp only [List.any_eq_true, same]

/-- **A union is exactly the interest of its parts.** It accepts what one of them accepts. It does
not depend on their order, on how they are grouped, or on repetitions; no interest adds nothing to
it, and interest in all sources absorbs everything else. What may be asked for a group separately
may be asked for together. -/
theorem union_combines_interest :
    (∀ (f g : SourceFilter) (a : Address),
      (f.union g).accepts a = (f.accepts a || g.accepts a)) ∧
    (∀ f g : SourceFilter, f.union g = g.union f) ∧
    (∀ f g h : SourceFilter, (f.union g).union h = f.union (g.union h)) ∧
    (∀ f : SourceFilter, f.union f = f) ∧
    (∀ f : SourceFilter, noInterest.union f = f ∧ f.union noInterest = f) ∧
    (∀ f : SourceFilter, allSources.union f = allSources ∧ f.union allSources = allSources) ∧
    ∀ (group : Address) (f g : SourceFilter), f.problemFor group = none →
      g.problemFor group = none → (f.union g).problemFor group = none :=
  ⟨fun _ _ _ => accepts_union, union_comm, union_assoc, union_self,
    fun f => ⟨noInterest_union f, union_noInterest f⟩,
    fun f => ⟨allSources_union f, union_allSources f⟩, fun _ _ _ => problemFor_union⟩

/-- A group may be asked for two sources, and for all but another two, one of which is also one of
the former. Together, all but one source are asked for. -/
theorem union_combines_interest_mixed :
    let source (n : UInt8) := Address.ofOctets 10 0 0 n
    let group := Address.ofOctets 239 1 1 1
    let listed := including (AddressSet.ofList [source 1, source 2])
    let others := excluding (AddressSet.ofList [source 2, source 3])
    listed.problemFor group = none ∧ others.problemFor group = none ∧
      (listed.union others).problemFor group = none ∧
      listed.union others = excluding (AddressSet.ofList [source 3]) ∧
      others.union listed = excluding (AddressSet.ofList [source 3]) := by
  intro source group listed others
  obtain ⟨-, comm, -, -, -, -, permitted⟩ := union_combines_interest
  have left : listed.problemFor group = none := by decide
  have right : others.problemFor group = none := by decide
  have together : listed.union others = excluding (AddressSet.ofList [source 3]) := by decide
  exact ⟨left, right, permitted group listed others left right, together,
    (comm others listed).trans together⟩

end SourceFilter

end MulticastTunnel

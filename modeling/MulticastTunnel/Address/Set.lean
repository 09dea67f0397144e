import MulticastTunnel.Address.Text

/-!
# Sets of addresses

An `AddressSet` is a strictly ascending list of addresses, so every set has one representation
and equality of sets is equality of their members. All binary operations are one walk over two
ascending lists, `Ascending.merge`, which differs only in what it keeps: members of the left list
alone, of both, or of the right list alone.

`mem_ofList`, `mem_union`, `mem_inter` and `mem_sdiff` say what the members of each result are.
-/

namespace MulticastTunnel

/-! ### Ascending lists -/

/-- Strictly ascending lists of addresses. -/
def Ascending (l : List Address) : Prop := l.Pairwise (· < ·)

namespace Ascending

instance (l : List Address) : Decidable (Ascending l) :=
  inferInstanceAs (Decidable (l.Pairwise (· < ·)))

/-- Puts an address into its place, unless it is there already. -/
def insert (x : Address) : List Address → List Address
  | [] => [x]
  | y :: ys =>
    if x < y then x :: y :: ys
    else if y < x then y :: insert x ys
    else y :: ys

/-- `x` in front of a list where `kept` says so. -/
def keep (kept : Bool) (x : Address) (l : List Address) : List Address :=
  if kept then x :: l else l

/-- Walks down the right list to the place of `x`, the head of the left one, and goes on with
`rest`, the walk of its tail. -/
def place (left both right : Bool) (x : Address) (rest : List Address → List Address) :
    List Address → List Address
  | [] => keep left x (rest [])
  | y :: ys =>
    if x < y then keep left x (rest (y :: ys))
    else if y < x then keep right y (place left both right x rest ys)
    else keep both x (rest ys)

/-- Walks two ascending lists together, keeping the members of the left one alone, of both, and
of the right one alone as the flags say. -/
def merge (left both right : Bool) : List Address → List Address → List Address
  | [], ys => if right then ys else []
  | x :: xs, ys => place left both right x (merge left both right xs) ys

theorem mem_keep {kept : Bool} {x a : Address} {l : List Address} :
    a ∈ keep kept x l ↔ (kept = true ∧ a = x) ∨ a ∈ l := by
  cases kept <;> simp [keep]

theorem mem_insert {x a : Address} {l : List Address} : a ∈ insert x l ↔ a = x ∨ a ∈ l := by
  induction l with
  | nil => simp [insert]
  | cons y ys ih =>
    simp only [insert]
    split
    · simp
    · split
      · simp only [List.mem_cons, ih]; grind
      · next h₁ h₂ =>
        have : x = y := Address.rank_inj.1 (by simp only [Address.lt_iff_rank] at h₁ h₂; omega)
        simp [this]

theorem insert_ascending {x : Address} {l : List Address} (h : Ascending l) :
    Ascending (insert x l) := by
  induction l with
  | nil => simp [insert, Ascending]
  | cons y ys ih =>
    simp only [Ascending, List.pairwise_cons] at h
    simp only [insert]
    split
    · next hx =>
      simp only [Ascending, List.pairwise_cons, List.mem_cons]
      refine ⟨?_, h⟩
      rintro a (rfl | ha)
      · exact hx
      · have := h.1 a ha
        simp only [Address.lt_iff_rank] at *
        omega
    · split
      · next hx =>
        simp only [Ascending, List.pairwise_cons, mem_insert]
        refine ⟨?_, ih h.2⟩
        rintro a (rfl | ha)
        · exact hx
        · exact h.1 a ha
      · simpa [Ascending] using h

theorem lt_trans {a b c : Address} (h : a < b) (h' : b < c) : a < c := by
  simp only [Address.lt_iff_rank] at *; omega

theorem lt_irrefl (a : Address) : ¬ a < a := by simp [Address.lt_iff_rank]

theorem eq_of_not_lt {a b : Address} (h : ¬ a < b) (h' : ¬ b < a) : a = b :=
  Address.rank_inj.1 (by simp only [Address.lt_iff_rank] at h h'; omega)

theorem not_mem_of_lt {x : Address} {l : List Address} (h : ∀ y ∈ l, x < y) : x ∉ l :=
  fun hx => lt_irrefl x (h x hx)

/-- What a walk over `xs` and `ys` keeps. -/
def Kept (left both right : Bool) (xs ys : List Address) (a : Address) : Prop :=
  (a ∈ xs ∧ a ∉ ys ∧ left = true) ∨ (a ∈ xs ∧ a ∈ ys ∧ both = true) ∨
    (a ∉ xs ∧ a ∈ ys ∧ right = true)

variable {left both right : Bool}

theorem mem_place {x a : Address} {xs ys : List Address} {rest : List Address → List Address}
    (hrest : ∀ zs, Ascending zs → (a ∈ rest zs ↔ Kept left both right xs zs a))
    (hx : ∀ z ∈ xs, x < z) (hy : Ascending ys) :
    a ∈ place left both right x rest ys ↔ Kept left both right (x :: xs) ys a := by
  have hx' := not_mem_of_lt hx
  induction ys with
  | nil =>
    simp only [place, mem_keep, hrest [] List.Pairwise.nil, Kept]
    grind
  | cons y ys ih =>
    have hys := List.pairwise_cons.1 hy
    have hlt : ∀ z ∈ ys, y < z := hys.1
    have hy' := not_mem_of_lt hlt
    simp only [place]
    split
    · next h =>
      have hxy : x ∉ y :: ys := by
        simp only [List.mem_cons, not_or]
        exact ⟨fun he => lt_irrefl x (by simpa [he] using h),
          not_mem_of_lt fun z hz => lt_trans h (hlt z hz)⟩
      simp only [mem_keep, hrest (y :: ys) hy, Kept]
      grind
    · split
      · next h =>
        have hyx : y ∉ x :: xs := by
          simp only [List.mem_cons, not_or]
          exact ⟨fun he => lt_irrefl x (by simpa [he] using h),
            not_mem_of_lt fun z hz => lt_trans h (hx z hz)⟩
        simp only [mem_keep, ih hys.2, Kept]
        grind
      · next h₁ h₂ =>
        obtain rfl := eq_of_not_lt h₁ h₂
        simp only [mem_keep, hrest ys hys.2, Kept]
        grind

theorem mem_merge {xs ys : List Address} (hx : Ascending xs) (hy : Ascending ys) {a : Address} :
    a ∈ merge left both right xs ys ↔ Kept left both right xs ys a := by
  induction xs generalizing ys with
  | nil => cases right <;> simp [merge, Kept]
  | cons x xs ih =>
    have hxs := List.pairwise_cons.1 hx
    exact mem_place (fun zs hz => ih hxs.2 hz) hxs.1 hy

theorem keep_ascending {kept : Bool} {x : Address} {l : List Address} (hl : Ascending l)
    (h : ∀ a ∈ l, x < a) : Ascending (keep kept x l) := by
  cases kept
  · exact hl
  · exact List.pairwise_cons.2 ⟨h, hl⟩

theorem place_ascending {x : Address} {xs ys : List Address} {rest : List Address → List Address}
    (hmem : ∀ a zs, Ascending zs → (a ∈ rest zs ↔ Kept left both right xs zs a))
    (hrest : ∀ zs, Ascending zs → Ascending (rest zs))
    (hx : ∀ z ∈ xs, x < z) (hy : Ascending ys) :
    Ascending (place left both right x rest ys) := by
  induction ys with
  | nil =>
    refine keep_ascending (hrest _ List.Pairwise.nil) fun a ha => hx a ?_
    have := (hmem a [] List.Pairwise.nil).1 ha
    simp only [Kept] at this
    grind
  | cons y ys ih =>
    have hys := List.pairwise_cons.1 hy
    have hlt : ∀ z ∈ ys, y < z := hys.1
    simp only [place]
    split
    · next h =>
      refine keep_ascending (hrest _ hy) fun a ha => ?_
      have := (hmem a _ hy).1 ha
      have hxy : ∀ z ∈ y :: ys, x < z := by
        intro z hz
        rcases List.mem_cons.1 hz with rfl | hz
        · exact h
        · exact lt_trans h (hlt z hz)
      simp only [Kept] at this
      grind
    · split
      · next h =>
        refine keep_ascending (ih hys.2) fun a ha => ?_
        have := (mem_place (fun zs hz => hmem a zs hz) hx hys.2).1 ha
        have hyx : ∀ z ∈ x :: xs, y < z := by
          intro z hz
          rcases List.mem_cons.1 hz with rfl | hz
          · exact h
          · exact lt_trans h (hx z hz)
        simp only [Kept] at this
        grind
      · next h₁ h₂ =>
        obtain rfl := eq_of_not_lt h₁ h₂
        refine keep_ascending (hrest _ hys.2) fun a ha => ?_
        have := (hmem a _ hys.2).1 ha
        simp only [Kept] at this
        grind

theorem merge_ascending {xs ys : List Address} (hx : Ascending xs) (hy : Ascending ys) :
    Ascending (merge left both right xs ys) := by
  induction xs generalizing ys with
  | nil =>
    cases right
    · exact List.Pairwise.nil
    · exact hy
  | cons x xs ih =>
    have hxs := List.pairwise_cons.1 hx
    exact place_ascending (fun a zs hz => mem_merge hxs.2 hz) (fun zs hz => ih hxs.2 hz) hxs.1 hy

/-- Two ascending lists with the same members are equal. -/
theorem eq_of_mem_iff {xs ys : List Address} (hx : Ascending xs) (hy : Ascending ys)
    (h : ∀ a, a ∈ xs ↔ a ∈ ys) : xs = ys := by
  induction xs generalizing ys with
  | nil =>
    cases ys with
    | nil => rfl
    | cons y ys => exact absurd ((h y).2 (by simp)) (by simp)
  | cons x xs ih =>
    have hxs := List.pairwise_cons.1 hx
    cases ys with
    | nil => exact absurd ((h x).1 (by simp)) (by simp)
    | cons y ys =>
      have hys := List.pairwise_cons.1 hy
      have hxy : x = y := by
        rcases List.mem_cons.1 ((h x).1 (by simp)) with e | hm
        · exact e
        · rcases List.mem_cons.1 ((h y).2 (by simp)) with e | hm'
          · exact e.symm
          · exact absurd (lt_trans (hys.1 x hm) (hxs.1 y hm')) (lt_irrefl y)
      subst hxy
      congr 1
      refine ih hxs.2 hys.2 fun a => ?_
      have h₁ := not_mem_of_lt hxs.1
      have h₂ := not_mem_of_lt hys.1
      have := h a
      simp only [List.mem_cons] at this
      grind

end Ascending

/-! ### Sets -/

/-- A finite set of addresses, listed in ascending order. -/
structure AddressSet where
  toList : List Address
  ascending : Ascending toList
  deriving DecidableEq

namespace AddressSet

/-- The empty set. -/
def empty : AddressSet := ⟨[], List.Pairwise.nil⟩

instance : EmptyCollection AddressSet := ⟨empty⟩

instance : Inhabited AddressSet := ⟨empty⟩

instance : Membership Address AddressSet := ⟨fun s a => a ∈ s.toList⟩

instance (a : Address) (s : AddressSet) : Decidable (a ∈ s) :=
  inferInstanceAs (Decidable (a ∈ s.toList))

/-- Whether the set has no members. -/
def isEmpty (s : AddressSet) : Bool := s.toList.isEmpty

/-- The number of members. -/
def size (s : AddressSet) : Nat := s.toList.length

/-- The set with one more member. -/
def insert (a : Address) (s : AddressSet) : AddressSet :=
  ⟨Ascending.insert a s.toList, Ascending.insert_ascending s.ascending⟩

/-- The members of a list. -/
def ofList (l : List Address) : AddressSet := l.foldr insert empty

/-- The members of either set. -/
def union (s t : AddressSet) : AddressSet :=
  ⟨Ascending.merge true true true s.toList t.toList,
    Ascending.merge_ascending s.ascending t.ascending⟩

/-- The members of both sets. -/
def inter (s t : AddressSet) : AddressSet :=
  ⟨Ascending.merge false true false s.toList t.toList,
    Ascending.merge_ascending s.ascending t.ascending⟩

/-- The members of the first set that are not in the second. -/
def sdiff (s t : AddressSet) : AddressSet :=
  ⟨Ascending.merge true false false s.toList t.toList,
    Ascending.merge_ascending s.ascending t.ascending⟩

instance : Union AddressSet := ⟨union⟩
instance : Inter AddressSet := ⟨inter⟩
instance : SDiff AddressSet := ⟨sdiff⟩

/-- Members between braces, in ascending order. -/
def text (s : AddressSet) : String :=
  "\x7b" ++ ", ".intercalate (s.toList.map Address.text) ++ "\x7d"

theorem mem_toList {a : Address} {s : AddressSet} : a ∈ s.toList ↔ a ∈ s := Iff.rfl

theorem not_mem_empty (a : Address) : a ∉ (∅ : AddressSet) := List.not_mem_nil

theorem mem_insert {a b : Address} {s : AddressSet} : b ∈ insert a s ↔ b = a ∨ b ∈ s :=
  Ascending.mem_insert

theorem mem_ofList {a : Address} {l : List Address} : a ∈ ofList l ↔ a ∈ l := by
  induction l with
  | nil => simp [ofList, empty, ← mem_toList]
  | cons x xs ih =>
    show a ∈ insert x (ofList xs) ↔ _
    rw [mem_insert, ih, List.mem_cons]

theorem mem_union {a : Address} {s t : AddressSet} : a ∈ s ∪ t ↔ a ∈ s ∨ a ∈ t := by
  refine (Ascending.mem_merge s.ascending t.ascending).trans ?_
  simp only [Ascending.Kept, mem_toList]
  grind

theorem mem_inter {a : Address} {s t : AddressSet} : a ∈ s ∩ t ↔ a ∈ s ∧ a ∈ t := by
  refine (Ascending.mem_merge s.ascending t.ascending).trans ?_
  simp only [Ascending.Kept, mem_toList]
  grind

theorem mem_sdiff {a : Address} {s t : AddressSet} : a ∈ s \ t ↔ a ∈ s ∧ a ∉ t := by
  refine (Ascending.mem_merge s.ascending t.ascending).trans ?_
  simp only [Ascending.Kept, mem_toList]
  grind

theorem eq_of_mem_iff {s t : AddressSet} (h : ∀ a, a ∈ s ↔ a ∈ t) : s = t := by
  cases s; cases t
  congr 1
  exact Ascending.eq_of_mem_iff (by assumption) (by assumption) h

end AddressSet

end MulticastTunnel

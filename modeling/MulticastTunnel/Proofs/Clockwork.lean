import Mathlib.Data.List.Basic
import MulticastTunnel.Duration

/-!
# Clockworks

A clockwork goes on by itself, at times that it determines, and hears words in between. So what it
does is decided by the words and their times, except that a word may come at the very moment at
which the clockwork is to go on. Then it matters which of both is first.

* `Clockwork.Runs` : how a clockwork runs.
* `Clockwork.Runs.compare` : **of two runs that hear the same, one goes on where the other ends**.
-/

namespace MulticastTunnel

/-- A clockwork with states in `σ` that hears words in `ω`. -/
structure Clockwork (σ ω : Type) where
  /-- When it goes on by itself. -/
  next? : σ → Option Instant
  /-- How it goes on. -/
  step : σ → σ
  hear : Instant → σ → ω → σ
  /-- How far it has come with what it does at one time. -/
  rank : Instant → σ → Nat
  rank_lt : ∀ {state time}, next? state = some time → rank time state < rank time (step state)

/-- A word that is heard, and when. If the clockwork is to go on at this very moment, then also how
far it has come. -/
structure Heard (ω : Type) where
  time : Instant
  rank : Option Nat
  word : ω
  deriving DecidableEq

/-- The word and its time, whatever else happens then. -/
def Heard.said {ω : Type} (h : Heard ω) : Instant × ω := (h.time, h.word)

/-- Who hears the same words at the same times, and each when equally far, hears the same. -/
theorem Heard.eq_of_said {ω : Type} {heard heard' : List (Heard ω)}
    (said : heard.map said = heard'.map said) (rank : heard.map rank = heard'.map rank) :
    heard = heard' := by
  have injective : Function.Injective fun h : Heard ω => (h.said, h.rank) := by
    rintro ⟨time, rank, word⟩ ⟨time', rank', word'⟩ same
    simp only [Heard.said, Prod.mk.injEq] at same
    obtain ⟨⟨rfl, rfl⟩, rfl⟩ := same
    rfl
  have pairs (l : List (Heard ω)) : l.map (fun h => (h.said, h.rank)) =
      (l.map Heard.said).zip (l.map Heard.rank) := (List.zip_map' ..).symm
  refine List.map_injective_iff.2 injective ?_
  rw [pairs, pairs, said, rank]

namespace Clockwork

variable {σ ω : Type} {C : Clockwork σ ω} {now now' time : Instant} {state last last' : σ}
variable {word : ω} {heard : List (Heard ω)}

/-- How a word is heard at some time. -/
def heardAt (C : Clockwork σ ω) (time : Instant) (state : σ) (word : ω) : Heard ω where
  time
  rank := if C.next? state = some time then some (C.rank time state) else none
  word

/-- From some time on, the clockwork goes on, at its times, and hears these words, until the last
state. It does not hear a word when it should have gone on before. -/
inductive Runs (C : Clockwork σ ω) : Instant → σ → List (Heard ω) → σ → Prop
  | rest (now : Instant) (state : σ) : Runs C now state [] state
  | step {now time : Instant} {state last : σ} {heard : List (Heard ω)}
      (next : C.next? state = some time) (later : now ≤ time)
      (rest : Runs C time (C.step state) heard last) : Runs C now state heard last
  | hear {now time : Instant} {state last : σ} {word : ω} {heard : List (Heard ω)}
      (later : now ≤ time) (inTime : ∀ due, C.next? state = some due → time ≤ due)
      (rest : Runs C time (C.hear time state word) heard last) :
      Runs C now state (C.heardAt time state word :: heard) last

namespace Runs

theorem earlier (h : C.Runs now state heard last) (le : now' ≤ now) :
    C.Runs now' state heard last := by
  cases h with
  | rest => exact rest now' state
  | step next later rest => exact step next (Nat.le_trans le later) rest
  | hear later inTime rest => exact hear (Nat.le_trans le later) inTime rest

theorem start_at (h : C.Runs now state [] last)
    (le : ∀ due, C.next? state = some due → now' ≤ due) : C.Runs now' state [] last := by
  cases h with
  | rest => exact rest now' state
  | step next later rest => exact step next (le _ next) rest

/-- The first word is not heard before the run begins, and if it is heard right then, the clockwork
has come no less far. -/
theorem le_first {x : Heard ω} (h : C.Runs now state (x :: heard) last) :
    now ≤ x.time ∧ (x.time = now → ∀ r, x.rank = some r → C.rank now state ≤ r) := by
  -- the run may go on several times before it hears the word
  generalize hall : x :: heard = all at h
  induction h with
  | rest => nomatch hall
  | @step now time state _ _ next later rest ih =>
    obtain ⟨le, far⟩ := ih hall
    refine ⟨Nat.le_trans later le, ?_⟩
    rintro rfl r hr
    obtain rfl : time = x.time := Nat.le_antisymm le later
    exact Nat.le_of_lt (Nat.lt_of_lt_of_le (C.rank_lt next) (far rfl r hr))
  | @hear now time state _ word _ later inTime rest _ =>
    obtain ⟨rfl, -⟩ := List.cons.inj hall
    refine ⟨later, ?_⟩
    rintro rfl r hr
    obtain ⟨-, same⟩ := Option.ite_none_right_eq_some.1 hr
    exact Nat.le_of_eq (Option.some.inj same)

theorem not_after (next : C.next? state = some time) (inTime : now ≤ time)
    (h : C.Runs time (C.step state) (C.heardAt now state word :: heard) last) : False := by
  obtain ⟨le, far⟩ := h.le_first
  obtain rfl : now = time := Nat.le_antisymm inTime le
  exact Nat.lt_irrefl _ (Nat.lt_of_lt_of_le (C.rank_lt next) (far rfl _ (if_pos next)))

/-- **Of two runs that hear the same, one goes on where the other ends**, and hears nothing more. -/
theorem compare (h : C.Runs now state heard last) (h' : C.Runs now' state heard last') :
    (∃ time, C.Runs time last [] last') ∨ ∃ time, C.Runs time last' [] last := by
  -- both runs do the same next: a word that one of them hears before the clockwork goes on can not
  -- be the one that the other hears after it, even if it comes at that very moment
  induction h generalizing now' with
  | rest => exact .inl ⟨now', h'⟩
  | @step now time state last heard next later rest ih =>
    cases h' with
    | rest => exact .inr ⟨now, step next later rest⟩
    | step next' later' rest' =>
      obtain rfl := Option.some.inj (next.symm.trans next')
      exact ih rest'
    | hear later' inTime' rest' => exact (rest.not_after next (inTime' _ next)).elim
  | @hear now time state last word heard later inTime rest ih =>
    generalize hall : C.heardAt time state word :: heard = all at h'
    cases h' with
    | rest => nomatch hall
    | step next' later' rest' => exact ((hall ▸ rest').not_after next' (inTime _ next')).elim
    | @hear _ time' _ _ word' _ later' inTime' rest' =>
      obtain ⟨same, rfl⟩ := List.cons.inj hall
      obtain ⟨rfl, -, rfl⟩ := Heard.mk.inj same
      exact ih rest'

end Runs

end Clockwork

end MulticastTunnel

import Mathlib.Data.List.Basic

/-!
# Attempts

What an operation leads to may not fit: a time is later than the last one of the clock, or a counter
is full. Then the operation breaks off, and leaves behind what it has done so far. As long as that
does not happen, nothing is to be seen of it.

* `Attempts.one`, `Attempts.all` : an attempt, and attempts one after the other.
* `Attempts.foldl_of_all` : **attempts that do not break off lead to the results**.
-/

namespace MulticastTunnel

/-- Operations in `A` on states in `S` that may break off. -/
structure Attempts (S A : Type) where
  result : S → A → S
  fits : S → Bool
  /-- What an operation leaves behind whose result does not fit. -/
  left : S → A → S

namespace Attempts

variable {S A : Type} {m : Attempts S A} {s s' : S} {a : A} {as : List A}

/-- An attempt. Its error is what is left behind. -/
def one (m : Attempts S A) (s : S) (a : A) : Except S S :=
  if m.fits (m.result s a) then .ok (m.result s a) else .error (m.left s a)

/-- Attempts one after the other, until one breaks off. -/
def all (m : Attempts S A) (s : S) (as : List A) : Except S S := as.foldlM m.one s

theorem one_eq_ok_iff : m.one s a = .ok s' ↔ m.fits (m.result s a) ∧ m.result s a = s' := by
  unfold one
  split <;> simp_all

theorem one_of_fits (h : m.fits (m.result s a)) : m.one s a = .ok (m.result s a) := if_pos h

theorem one_of_not_fits (h : m.fits (m.result s a) = false) : m.one s a = .error (m.left s a) :=
  if_neg (by simp [h])

@[simp] theorem all_nil : m.all s [] = .ok s := rfl

theorem all_cons_eq_ok_iff :
    m.all s (a :: as) = .ok s' ↔ m.fits (m.result s a) ∧ m.all (m.result s a) as = .ok s' := by
  rw [all, List.foldlM_cons, one]
  split <;> simp_all [all, bind, Except.bind]

theorem all_append_of_all {more : List A} (h : m.all s as = .ok s') :
    m.all s (as ++ more) = m.all s' more := by
  rw [all, List.foldlM_append]
  show m.all s as >>= _ = _
  rw [h]
  rfl

/-- **Attempts that do not break off lead to the results**, one after the other. -/
theorem foldl_of_all (h : m.all s as = .ok s') : as.foldl m.result s = s' := by
  induction as generalizing s with
  | nil => exact Except.ok.inj h
  | cons a as ih => exact ih (all_cons_eq_ok_iff.1 h).2

theorem all_induction {P : S → Prop} (h : m.all s as = .ok s') (initial : P s)
    (one : ∀ s a, P s → m.fits (m.result s a) → P (m.result s a)) : P s' := by
  induction as generalizing s with
  | nil => exact Except.ok.inj h ▸ initial
  | cons a as ih =>
    obtain ⟨fits, rest⟩ := all_cons_eq_ok_iff.1 h
    exact ih rest (one s a initial fits)

theorem fits_of_all (h : m.all s as = .ok s') (initial : m.fits s) : m.fits s' :=
  all_induction (P := (m.fits ·)) h initial fun _ _ _ fits => fits

theorem all_eq_ok_of_isOk (h : (m.all s as).isOk) : m.all s as = .ok (as.foldl m.result s) := by
  cases reached : m.all s as with
  | error left => simp [reached, Except.isOk, Except.toBool] at h
  | ok s' => rw [foldl_of_all reached]

end Attempts

end MulticastTunnel

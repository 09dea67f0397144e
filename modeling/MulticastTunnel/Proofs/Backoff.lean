import Mathlib.Data.List.Chain
import Mathlib.Tactic.SplitIfs
import MulticastTunnel.Backoff

/-!
# Delays stay on course

A sequence of delays is asked for one delay after the other, and may be started again at any time.
Settings without a problem have a factor of at least one, so rounding down to whole nanoseconds
never makes a delay shorter than the one before; and whatever a delay would grow to, the maximum is
where it stops.

* `Backoff.Call`, `Backoff.delays` : what is asked, and the delays that are returned.
* `Backoff.Follows` : how each delay follows from the one before.
* `Backoff.Sound` : a sequence on its way, with its next delay in range. Every call keeps it.
* `Backoff.Sound.isChain_delays` : the delays of a stretch without a new start.
* `Backoff.delays_on_course` : **all delays are in range, they grow by the factor until the maximum
  is reached, and a new start is like the first one**.
-/

namespace MulticastTunnel

/-- Settings that can be used have an initial delay in range, and do not shrink delays. -/
theorem BackoffConfig.bounds_of_problem {config : BackoffConfig} (h : config.problem = none) :
    config.initial ≤ config.max ∧ 8 ≤ config.factorEighths := by
  unfold problem at h
  split_ifs at h with zero above shrinking
  exact ⟨Nat.not_lt.1 above, Nat.not_lt.1 shrinking⟩

namespace Backoff

/-! ### Calls -/

/-- What a sequence of delays is asked. -/
inductive Call where
  /-- For the next delay. -/
  | next
  /-- To start again. -/
  | reset
  deriving DecidableEq

/-- The delay that a call returns. -/
def returned? (b : Backoff) : Call → Option Duration
  | .next => some b.upcoming
  | .reset => none

/-- The sequence after a call. -/
def react (b : Backoff) : Call → Backoff
  | .next => b.advance
  | .reset => b.reset

/-- The sequence after some calls. -/
def after (b : Backoff) (calls : List Call) : Backoff := calls.foldl react b

/-- The delays that some calls return. -/
def delays (b : Backoff) : List Call → List Duration
  | [] => []
  | call :: calls => (b.returned? call).toList ++ (b.react call).delays calls

variable {config : BackoffConfig} {b : Backoff} {call : Call} {calls : List Call}

theorem delays_append (b : Backoff) (calls more : List Call) :
    b.delays (calls ++ more) = b.delays calls ++ (b.after calls).delays more := by
  induction calls generalizing b with
  | nil => rfl
  | cons call calls ih =>
    rw [List.cons_append, delays, ih, delays, List.append_assoc]
    rfl

theorem head?_delays (h : .reset ∉ calls) : ∀ d ∈ (b.delays calls).head?, d = b.upcoming := by
  cases calls with
  | nil => simp [delays]
  | cons call calls =>
    cases call with
    | next => simp [delays, returned?]
    | reset => simp at h

/-! ### Growing -/

/-- One delay follows another: it is longer by the factor, in whole nanoseconds, but not beyond the
maximum. It is the maximum if the product with the eighths is longer than any duration. -/
structure Follows (config : BackoffConfig) (d d' : Duration) : Prop where
  grown : d * config.factorEighths ≤ Duration.longest →
    d' = min config.max (d * config.factorEighths / 8)
  saturated : Duration.longest < d * config.factorEighths → d' = config.max

theorem follows_grow (config : BackoffConfig) (d : Duration) :
    Follows config d (grow config d) where
  grown fits := by rw [grow, if_pos fits, min_comm]
  saturated long := by rw [grow, if_neg (Nat.not_le.2 long)]

theorem Follows.le_max {d d' : Duration} (h : Follows config d d') : d' ≤ config.max := by
  rcases Nat.lt_or_ge Duration.longest (d * config.factorEighths) with long | fits
  · exact Nat.le_of_eq (h.saturated long)
  · exact h.grown fits ▸ Nat.min_le_left ..

/-- A factor of at least eight eighths does not make a delay shorter, also in whole nanoseconds. -/
theorem Follows.le {d d' : Duration} (h : Follows config d d') (factor : 8 ≤ config.factorEighths)
    (range : d ≤ config.max) : d ≤ d' := by
  rcases Nat.lt_or_ge Duration.longest (d * config.factorEighths) with long | fits
  · rwa [h.saturated long]
  · have grown : d ≤ d * config.factorEighths / 8 :=
      (Nat.le_div_iff_mul_le (by decide)).2 (Nat.mul_le_mul_left d factor)
    rw [h.grown fits]
    exact Nat.le_min.2 ⟨range, grown⟩

/-! ### Sequences on their way -/

/-- A sequence with these settings, whose next delay is in range. -/
structure Sound (config : BackoffConfig) (b : Backoff) : Prop where
  settings : b.config = config
  initial_le : config.initial ≤ b.upcoming
  le_max : b.upcoming ≤ config.max

namespace Sound

theorem start (range : config.initial ≤ config.max) : Sound config (start config) :=
  ⟨rfl, Nat.le_refl _, range⟩

theorem follows (h : Sound config b) : Follows config b.upcoming b.advance.upcoming := by
  have grows : Follows config b.upcoming (grow config b.upcoming) := follows_grow ..
  rwa [advance, h.settings]

theorem react (h : Sound config b) (factor : 8 ≤ config.factorEighths) (call : Call) :
    Sound config (b.react call) := by
  cases call with
  | next =>
    have longer : b.upcoming ≤ b.advance.upcoming := h.follows.le factor h.le_max
    exact ⟨h.settings, Nat.le_trans h.initial_le longer, h.follows.le_max⟩
  | reset =>
    have again : b.react .reset = Backoff.start config := congrArg Backoff.start h.settings
    rw [again]
    exact start (Nat.le_trans h.initial_le h.le_max)

theorem after (h : Sound config b) (factor : 8 ≤ config.factorEighths) (calls : List Call) :
    Sound config (b.after calls) := by
  induction calls generalizing b with
  | nil => exact h
  | cons call calls ih => exact ih (h.react factor call)

theorem mem_delays (h : Sound config b) (factor : 8 ≤ config.factorEighths) :
    ∀ d ∈ b.delays calls, config.initial ≤ d ∧ d ≤ config.max := by
  induction calls generalizing b with
  | nil => simp [delays]
  | cons call calls ih =>
    intro d hd
    rcases List.mem_append.1 hd with now | later
    · cases call with
      | next =>
        obtain rfl : d = b.upcoming := by simpa [returned?] using now
        exact ⟨h.initial_le, h.le_max⟩
      | reset => simp [returned?] at now
    · exact ih (h.react factor call) d later

/-- In a stretch without a new start, each delay follows from the one before, and is no shorter. -/
theorem isChain_delays (h : Sound config b) (factor : 8 ≤ config.factorEighths)
    (stretch : .reset ∉ calls) :
    (b.delays calls).IsChain fun d d' => Follows config d d' ∧ d ≤ d' := by
  induction calls generalizing b with
  | nil => exact .nil
  | cons call calls ih =>
    have rest : .reset ∉ calls := fun later => stretch (List.mem_cons_of_mem _ later)
    cases call with
    | reset => exact absurd List.mem_cons_self stretch
    | next =>
      refine List.isChain_cons.2 ⟨fun d hd => ?_, ih (h.react factor .next) rest⟩
      obtain rfl := head?_delays rest d hd
      exact ⟨h.follows, h.follows.le factor h.le_max⟩

theorem after_reset (h : Sound config b) (factor : 8 ≤ config.factorEighths) (calls : List Call) :
    b.after (calls ++ [.reset]) = Backoff.start config := by
  have again : (b.after calls).reset = Backoff.start config :=
    congrArg Backoff.start (h.after factor calls).settings
  rwa [Backoff.after, List.foldl_append]

end Sound

/-- **Delays stay on course.** Settings without a problem lead to a sequence of delays. It begins
with the initial delay, and whatever is asked of it, the delays that it returns are between the
initial one and the maximum, and it never comes to hold what is no duration. In a stretch without a
new start each delay follows from the one before and is no shorter, and after a new start the delays
are those of a new sequence. -/
theorem delays_on_course {config : BackoffConfig} (usable : config.problem = none)
    (calls : List Call) :
    ∃ b, start? config = .ok b ∧ b.upcoming = config.initial ∧
      (∀ d ∈ b.delays calls, config.initial ≤ d ∧ d ≤ config.max) ∧
      (config.max ≤ Duration.longest → (b.after calls).upcoming ≤ Duration.longest) ∧
      (∀ before stretch rest, calls = before ++ stretch ++ rest → .reset ∉ stretch →
        ((b.after before).delays stretch).IsChain (Follows config) ∧
        ((b.after before).delays stretch).Pairwise (· ≤ ·)) ∧
      ∀ before rest, calls = before ++ .reset :: rest →
        b.after (before ++ [.reset]) = b ∧ b.delays calls = b.delays before ++ b.delays rest := by
  obtain ⟨range, factor⟩ := BackoffConfig.bounds_of_problem usable
  have sound := Sound.start range
  refine ⟨start config, if_neg (Nat.not_lt.2 factor), rfl, sound.mem_delays factor,
    Nat.le_trans (sound.after factor calls).le_max, ?_, ?_⟩
  · intro before stretch rest _ noReset
    have chain := (sound.after factor before).isChain_delays factor noReset
    exact ⟨chain.imp fun _ _ h => h.1, List.isChain_iff_pairwise.1 (chain.imp fun _ _ h => h.2)⟩
  · rintro before rest rfl
    have again := sound.after_reset factor before
    refine ⟨again, ?_⟩
    rw [List.append_cons, delays_append, again, delays_append]
    simp [delays, returned?]

/-- Delays close to the longest duration, and one that 12 eighths round down. -/
theorem delays_on_course_longest :
    let quarter : BackoffConfig := .doubling (Duration.longest / 4) Duration.longest
    let half : BackoffConfig := ⟨5, 100, 12⟩
    let calls : List Call := [.next, .next, .reset, .next]
    quarter.problem = none ∧ half.problem = none ∧
    (∃ b, start? quarter = .ok b ∧
      b.delays calls = [Duration.longest / 4, Duration.longest, Duration.longest / 4]) ∧
    ∃ b, start? half = .ok b ∧ b.delays calls = [5, 7, 5] ∧ Follows half 5 7 := by
  intro quarter half calls
  have usable : quarter.problem = none := by decide
  have usable' : half.problem = none := by decide
  obtain ⟨b, made, -⟩ := delays_on_course usable calls
  obtain ⟨b', made', -, -, -, grow, -⟩ := delays_on_course usable' calls
  obtain rfl := Except.ok.inj made
  obtain rfl := Except.ok.inj made'
  obtain ⟨chain, -⟩ := grow [] [.next, .next] [.reset, .next] rfl (by decide)
  have values : ((start half).after []).delays [.next, .next] = [5, 7] := by decide
  rw [values] at chain
  exact ⟨usable, usable', ⟨_, made, by decide⟩, _, made', by decide, List.isChain_pair.1 chain⟩

end Backoff

end MulticastTunnel

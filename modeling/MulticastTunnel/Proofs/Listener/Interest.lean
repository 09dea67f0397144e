import Mathlib.Data.List.Induction
import MulticastTunnel.Proofs.Listener.Upkeep

/-!
# What is wanted follows the calls

A listener keeps a record of a group as long as it is good for anything, and makes another one when
it is needed again. Behind its records there is one filter for each group, which is what the calls
for this group have made of it, one after the other. Queries, alarms and calls for other groups are
no part of it, whatever they do to the records.

* `Reporting.call?` : the calls for a group that succeed.
* `Reporting.interest_react` : what one event does to what is wanted.
* `Reporting.interest_follows_calls` : **what is wanted is what the calls make of it**.
-/

namespace MulticastTunnel

namespace Listener

variable {l : Listener} {now : Instant} {group : Address} {c : Call}

theorem exists_call (now : Instant) (permitted : c.filter.problemFor group = none)
    (running : l.closed = false) :
    ∃ l', l.call now group c = .ok l' := by
  have permit := permit_eq_ok_iff.2 ⟨permitted, running⟩
  rcases call_cases l now group c with ⟨-, l', success, -⟩ | ⟨e, refused, -⟩
  · exact ⟨l', success⟩
  · simp [permit] at refused

end Listener

namespace Reporting

open Listener (Event Call)

variable {r : Reporting} {group : Address}

/-- The call of an event, if it is for the group and succeeds. -/
def call? (r : Reporting) (group : Address) : Event → Option Call
  | .call now other c =>
    if other = group ∧ (r.listener.call now other c).isOk then some c else none
  | _ => none

/-- The calls for a group that succeed, one after the other. -/
def calls (group : Address) : Reporting → List Event → List Call
  | _, [] => []
  | r, event :: later => (r.call? group event).toList ++ calls group (r.react event) later

theorem calls_concat {events : List Event} {event : Event} :
    calls group r (events ++ [event]) =
      calls group r events ++ ((events.foldl react r).call? group event).toList := by
  induction events generalizing r with
  | nil => simp [calls]
  | cons first later ih => simp [calls, ih]

/-- **What one event does to what is wanted** of a group: a call for the group that succeeds has its
outcome, and nothing else has any. -/
theorem Upkeep.interest_react (h : r.Upkeep) (group : Address) {event : Event}
    (notShut : event ≠ .shutdown) :
    (r.react event).listener.interest group =
      (r.call? group event).elim (r.listener.interest group)
        (Call.outcome (r.listener.interest group)) := by
  -- what goes on inside, with or without a record of the group
  have unchanged (event : Event) (internal : event.IsInternal) :
      (r.listener.react event).1.interest group = r.listener.interest group :=
    congrFun (Listener.interest_react internal h.listener.tidy.ordered) group
  cases event with
  | call now other c =>
    show ((r.listener.call now other c).toOption.getD r.listener).interest group = _
    rcases Listener.call_cases r.listener now other c with
      ⟨-, l', success, called⟩ | ⟨e, -, failure⟩
    · have after : l'.interest group = _ := called.interest group
      rw [call?, success]
      by_cases same : other = group
      · subst same
        rw [if_pos ⟨rfl, rfl⟩]
        exact after.trans (if_pos rfl)
      · rw [if_neg (same ·.1)]
        exact after.trans (if_neg same)
    · rw [call?, failure, if_neg (by simp [Except.isOk, Except.toBool])]
      rfl
  | shutdown => exact absurd rfl notShut
  | query now random q =>
    exact unchanged (.query now random q) trivial
  | cancelPending =>
    exact unchanged .cancelPending trivial
  | begin run job =>
    simp only [Reporting.react]
    split
    · exact unchanged (.begin run job) trivial
    · rfl
  | finish f now =>
    simp only [Reporting.react]
    split
    · exact unchanged (.finish f now) trivial
    · rfl

theorem closed_react_of_ne (r : Reporting) (event : Event) (notShut : event ≠ .shutdown) :
    (r.react event).listener.closed = r.listener.closed := by
  cases event with
  | shutdown => exact absurd rfl notShut
  | begin run job =>
    simp only [react]
    split
    · exact (Listener.Continues.begin run job).closed
    · rfl
  | finish f now =>
    simp only [react]
    split
    · exact (Listener.Continues.finish f now).closed
    · rfl
  | _ => exact (Listener.react_continues (by simp)).closed

/-- What is wanted of a group is what the calls for it that succeed make of no interest. -/
theorem interest_run (config : Config) (group : Address) {events : List Event}
    (notShut : .shutdown ∉ events) :
    (run config events).listener.closed = false ∧
      (run config events).listener.interest group =
        ((start config).calls group events).foldl Call.outcome .noInterest := by
  induction events using List.reverseRecOn with
  | nil => exact ⟨rfl, rfl⟩
  | append_singleton events event ih =>
    simp only [List.mem_append, List.mem_singleton, not_or] at notShut
    obtain ⟨notShut, ne⟩ := notShut
    obtain ⟨running, before⟩ := ih notShut
    have after := (upkeep_run config events).interest_react group (Ne.symm ne)
    have all : run config (events ++ [event]) = (run config events).react event := by simp [run]
    rw [all, calls_concat, after, before, List.foldl_append]
    refine ⟨(closed_react_of_ne _ _ (Ne.symm ne)).trans running, ?_⟩
    show _ = (((run config events).call? group event).toList).foldl Call.outcome _
    cases (run config events).call? group event <;> rfl

end Reporting

end MulticastTunnel

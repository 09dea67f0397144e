import MulticastTunnel.Proofs.Session.Schedule

/-!
# Refreshes at the pace that queries ask for

A query tells how long its sender wants to wait for the next request. A session takes it over for
the refresh after the next one. When the next one is due has been settled by the request before it,
and a query does not move it, unless it is the query with which the tunnel comes up.

* `Orderly.exists_next`, `Orderly.due_le` : the next request is sent at the time that was settled.
* `Orderly.refreshed_iff` : so whether one is sent by some time was settled before.
* `Chronicle.refreshed_within_iff` : **a query is followed by a request within the time that it asks
  for exactly if the refresh was to come by then anyway**.
* `Chronicle.not_refreshed_within` : so a query that asks for a faster pace may have to wait.
-/

namespace MulticastTunnel

namespace Chronicle

/-- A request is sent after the time, but no longer after it than the duration. -/
def RefreshedWithin (moments : List Moment) (time : Instant) (duration : Duration) : Prop :=
  ∃ r ∈ moments, r.requests = true ∧ time < r.time ∧ r.time ≤ time + duration

instance (moments : List Moment) (time : Instant) (duration : Duration) :
    Decidable (RefreshedWithin moments time duration) :=
  inferInstanceAs (Decidable (∃ r ∈ moments, _))

/-- The moments that are not after the time. -/
def upTo (time : Instant) (moments : List Moment) : List Moment :=
  moments.filter fun m => m.time ≤ time

variable {config : Config} {up q m r : Moment} {early late later : List Moment} {time : Instant}
  {i : Duration}

theorem mem_upTo : m ∈ upTo time later ↔ m ∈ later ∧ m.time ≤ time := by simp [upTo]

theorem exists_upTo_append (ordered : later.Pairwise fun m m' => m.time ≤ m'.time)
    (time : Instant) : ∃ late, later = upTo time later ++ late ∧ ∀ m ∈ late, time < m.time := by
  induction later with
  | nil => exact ⟨[], rfl, by simp⟩
  | cons m later ih =>
    obtain ⟨first, ordered⟩ := List.pairwise_cons.1 ordered
    by_cases h : m.time ≤ time
    · obtain ⟨late, parted, after⟩ := ih ordered
      refine ⟨late, ?_, after⟩
      have kept : upTo time (m :: later) = m :: upTo time later := by simp [upTo, h]
      rw [kept, List.cons_append, ← parted]
    · -- the first one is after the time already, and so are all others
      have after : ∀ m' ∈ m :: later, time < m'.time := by
        intro m' hm'
        rcases List.mem_cons.1 hm' with rfl | hm'
        · exact Nat.lt_of_not_le h
        · exact Nat.lt_of_lt_of_le (Nat.lt_of_not_le h) (first m' hm')
      have none : upTo time (m :: later) = [] :=
        List.filter_eq_nil_iff.2 fun m' hm' => by simpa using after m' hm'
      exact ⟨m :: later, by rw [none, List.nil_append], after⟩

/-! ### The next request -/

theorem lastRefresh_mem : lastRefresh up later ∈ up :: later := by
  have last : lastRefresh up later ∈ up :: later.filter Moment.requests :=
    List.mem_of_mem_getLast? (mem_getLast?_refreshes.2 rfl)
  rcases List.mem_cons.1 last with last | last
  · rw [last]
    exact List.mem_cons_self
  · exact List.mem_cons_of_mem _ (List.mem_of_mem_filter last)

theorem lastRefresh_append (quiet : late.filter Moment.requests = []) :
    lastRefresh up (early ++ late) = lastRefresh up early := by
  simp [lastRefresh, quiet]

namespace Orderly

theorem head_refresh (h : Orderly config up (early ++ late))
    (first : (late.filter Moment.requests).head? = some r) : r.time = refreshDue up early := by
  have refreshes := h.refreshes
  rw [List.filter_append, ← List.cons_append, List.isChain_append] at refreshes
  exact refreshes.2.2 _ (mem_getLast?_refreshes.2 rfl) r first

/-- If the next refresh lies in the past, then it has taken place, at its time. -/
theorem exists_next (h : Orderly config up (early ++ late))
    (elapsed : refreshDue up early < refreshDue up (early ++ late)) :
    ∃ r ∈ late, r.requests = true ∧ r.time = refreshDue up early := by
  cases sent : late.filter Moment.requests with
  | nil =>
    rw [refreshDue, refreshDue, lastRefresh_append sent] at elapsed
    exact absurd elapsed (Nat.lt_irrefl _)
  | cons r rest =>
    have first : (late.filter Moment.requests).head? = some r := by rw [sent, List.head?_cons]
    obtain ⟨later, request⟩ := List.mem_filter.1 (List.mem_of_mem_head? first)
    exact ⟨r, later, request, h.head_refresh first⟩

theorem due_le (h : Orderly config up (early ++ late))
    (ordered : late.Pairwise fun m m' => m.time ≤ m'.time) (hr : r ∈ late)
    (request : r.requests = true) : refreshDue up early ≤ r.time := by
  have sent : r ∈ late.filter Moment.requests := List.mem_filter.2 ⟨hr, request⟩
  cases all : late.filter Moment.requests with
  | nil => simp [all] at sent
  | cons first rest =>
    rw [← h.head_refresh (r := first) (by rw [all, List.head?_cons])]
    have inOrder := all ▸ ordered.filter Moment.requests
    rcases List.mem_cons.1 (all ▸ sent) with rfl | hr
    · exact Nat.le_refl _
    · exact (List.pairwise_cons.1 inOrder).1 r hr

/-- A request comes by some time in the past exactly if the next refresh is due by then. -/
theorem refreshed_iff (h : Orderly config up (early ++ late))
    (ordered : late.Pairwise fun m m' => m.time ≤ m'.time)
    (past : time < refreshDue up (early ++ late)) :
    (∃ r ∈ late, r.requests = true ∧ r.time ≤ time) ↔ refreshDue up early ≤ time := by
  constructor
  · rintro ⟨r, hr, request, inTime⟩
    exact (h.due_le ordered hr request).trans inTime
  · intro due
    obtain ⟨r, hr, request, onTime⟩ := h.exists_next (Nat.lt_of_le_of_lt due past)
    exact ⟨r, hr, request, onTime ▸ due⟩

end Orderly

/-! ### The pace -/

theorem refreshedWithin_append (before : ∀ m ∈ early, m.time ≤ time)
    (after : ∀ m ∈ late, time < m.time) :
    RefreshedWithin (early ++ late) time i ↔
      ∃ r ∈ late, r.requests = true ∧ r.time ≤ time + i := by
  constructor
  · rintro ⟨r, hr, request, later, within⟩
    rcases List.mem_append.1 hr with hr | hr
    · exact absurd (before r hr) (Nat.not_le_of_lt later)
    · exact ⟨r, hr, request, within⟩
  · rintro ⟨r, hr, request, within⟩
    exact ⟨r, List.mem_append_right _ hr, request, after r hr, within⟩

/-- **Refreshes at the pace that queries ask for.** Let a query be accepted at some time, as long as
the tunnel is up, and let the alarm have done all that is due until the time that it asks for is
over. Then a request has been sent within that time, exactly if the one that was to come next, an
interval after the last one until then, was due within it. So it has, if that interval is not longer
than what the query asks for; and the tunnel is refreshed in time after the query with which it came
up. -/
theorem refreshed_within_iff (config : Config) (events : List Event)
    (active : (run config events).ActiveSince up later) (asked : q ∈ up :: later)
    (asks : q.exchange.interval? = some i)
    (elapsed : (run config events).alarm.all (q.time + i < ·)) :
    (RefreshedWithin later q.time i ↔ refreshDue up (upTo q.time later) ≤ q.time + i) ∧
    ((lastRefresh up (upTo q.time later)).interval ≤ i → RefreshedWithin later q.time i) ∧
    (q = up → 0 < i → RefreshedWithin later q.time i) := by
  have schedule := onSchedule_run config events active
  have orderly := schedule.orderly
  have past : q.time + i < refreshDue up later := by
    rw [schedule.alarm, Option.all_some, decide_eq_true_iff] at elapsed
    exact Nat.lt_of_lt_of_le elapsed (Nat.min_le_left ..)
  obtain ⟨first, ordered⟩ := List.pairwise_cons.1 active.ordered
  obtain ⟨late, parted, after⟩ := exists_upTo_append ordered q.time
  generalize upTo_eq : upTo q.time later = early at parted ⊢
  have inTime : ∀ m ∈ up :: early, m.time ≤ q.time := by
    intro m hm
    rcases List.mem_cons.1 hm with rfl | hm
    · rcases List.mem_cons.1 asked with rfl | hq
      · exact Nat.le_refl _
      · exact first q hq
    · exact (mem_upTo.1 (upTo_eq ▸ hm)).2
  subst parted
  have iff : RefreshedWithin (early ++ late) q.time i ↔ refreshDue up early ≤ q.time + i :=
    (refreshedWithin_append (fun m hm => inTime m (List.mem_cons_of_mem _ hm)) after).trans
      (orderly.refreshed_iff (List.pairwise_append.1 ordered).2.1 past)
  refine ⟨iff, fun shorter => iff.2 ?_, ?_⟩
  · exact Nat.add_le_add (inTime _ lastRefresh_mem) shorter
  · rintro rfl positive
    have due : refreshDue q [] = q.time + i := by
      rw [refreshDue, lastRefresh, List.filter_nil, List.getLast?_nil, Option.getD_none,
        Moment.interval, Exchange.queryInterval_after, asks, Option.getD_some]
    have whole : Orderly config q ([] ++ (early ++ late)) := orderly
    obtain ⟨r, hr, request, time⟩ := whole.exists_next (due ▸ past)
    rw [due] at time
    exact ⟨r, hr, request, time ▸ Nat.lt_add_of_pos_right positive, Nat.le_of_eq time⟩

/-- A tunnel is up and refreshed, and the answer asks for an interval. -/
def refreshedOnce (relay : Endpoint) (asked : Duration) : List Event :=
  let seconds := Duration.ofSeconds
  [.input (.timer 0 11), .input (.advertisement 11 relay.address), .input (.timer 0 22),
    .input (.query relay 22 0x010203040506 none none 0), .pass (seconds 125),
    .input (.timer (seconds 125) 33), .pass (seconds 1),
    .input (.query relay 33 0x010203040506 none (some asked) (seconds 126))]

theorem refreshed_within_iff_longerInterval :
    let relay := Endpoint.of (.ofOctets 192 0 2 7) tunnelPort
    let config := Config.standard (.of (.ofOctets 192 0 2 1) tunnelPort)
    let seconds := Duration.ofSeconds
    let events := refreshedOnce relay (seconds 200) ++
      [.pass (seconds 124), .input (.timer (seconds 250) 44), .pass (seconds 200)]
    ∃ up later, (run config events).ActiveSince up later ∧ ∃ q ∈ later,
      q.exchange.interval? = some (seconds 200) ∧
      (run config events).alarm.all (q.time + seconds 200 < ·) ∧
      refreshDue up (upTo q.time later) ≤ q.time + seconds 200 ∧
      RefreshedWithin later q.time (seconds 200) := by
  intro relay config seconds events
  let past := (run config events).past
  have active : (run config events).ActiveSince (past.get ⟨3, by decide⟩) (past.drop 4) :=
    ⟨⟨past.take 3, by decide⟩, by decide, by decide⟩
  have asked : past.get ⟨5, by decide⟩ ∈ past.drop 4 := by decide
  have refreshed := refreshed_within_iff config events active (List.mem_cons_of_mem _ asked)
    (i := seconds 200) (by decide) (by decide)
  exact ⟨_, _, active, _, asked, by decide, by decide, refreshed.1.1 (refreshed.2.1 (by decide)),
    refreshed.2.1 (by decide)⟩

/-- A query that asks for a faster pace has to wait for the refresh that was settled before. -/
theorem not_refreshed_within :
    let relay := Endpoint.of (.ofOctets 192 0 2 7) tunnelPort
    let seconds := Duration.ofSeconds
    let config := { Config.standard (.of (.ofOctets 192 0 2 1) tunnelPort) with
      rediscoveryInterval := seconds 130 }
    let events := refreshedOnce relay (seconds 10) ++
      [.pass (seconds 4), .input (.timer (seconds 130) 44), .pass (seconds 120)]
    config.problem = none ∧
      ∃ up later, (run config events).ActiveSince up later ∧ ∃ q ∈ later,
        q.exchange.interval? = some (seconds 10) ∧ q.time + seconds 10 ≤ (run config events).now ∧
        (run config events).alarm.all (q.time + seconds 10 < ·) ∧
        ¬ RefreshedWithin later q.time (seconds 10) := by
  intro relay seconds config events
  let past := (run config events).past
  exact ⟨by decide, past.get ⟨3, by decide⟩, past.drop 4,
    ⟨⟨past.take 3, by decide⟩, by decide, by decide⟩, past.get ⟨5, by decide⟩, by decide,
    by decide, by decide, by decide, by decide⟩

end Chronicle

end MulticastTunnel

import Mathlib.Tactic.SplitIfs
import Mathlib.Tactic.Tauto
import MulticastTunnel.Listener.Calls
import MulticastTunnel.Listener.Firing
import MulticastTunnel.Proofs.Interest.Filter

/-!
# Where a group stands

Of the record of a group, queries and alarms come and go; what is wanted of the group and which
change of it is still to be reported make up its `Standing`. It moves in three ways only: a call of
the host gives the group another filter, the report of its change is handed out, or the end of the
tunnel makes the change be forgotten.

* `Listener.standing_apply` : another filter.
* `Listener.standing_begin` : a report is handed out.
* `Listener.standing_cancelPending` : the change is forgotten.

The other operations leave the standing of every group alone.
-/

namespace MulticastTunnel

/-! ### Records by group -/

namespace Groups

variable {groups : Groups} {state g : GroupState} {group other : Address}

theorem get?_cons :
    get? (g :: groups) other = if g.group = other then some g else groups.get? other := by
  by_cases h : g.group = other <;> simp [get?, h]

theorem group_of_get? (h : groups.get? group = some g) : g.group = group := by
  simpa using List.find?_some h

theorem get?_put : (put state groups).get? other =
    if state.group = other then some state else groups.get? other := by
  induction groups with
  | nil => simp [put, get?_cons]
  | cons g rest ih =>
    simp only [put]
    split
    · simp [get?_cons]
    · split
      · next before =>
        simp only [get?_cons, ih]
        have : g.group ≠ state.group := fun h => Ascending.lt_irrefl _ (h ▸ before)
        split_ifs <;> simp_all
      · next notBefore notAfter =>
        have : state.group = g.group := Ascending.eq_of_not_lt notBefore notAfter
        simp only [get?_cons, this]
        split_ifs <;> rfl

theorem get?_erase :
    (erase group groups).get? other = if group = other then none else groups.get? other := by
  induction groups with
  | nil => simp [erase, get?]
  | cons g rest ih =>
    simp only [erase] at ih ⊢
    by_cases h : g.group = group
    · simp only [List.filter_cons, h, bne_self_eq_false, Bool.false_eq_true, ↓reduceIte, ih,
        get?_cons]
      split_ifs <;> rfl
    · simp only [List.filter_cons, bne_iff_ne, ne_eq, h, not_false_eq_true, ↓reduceIte, get?_cons,
        ih]
      split_ifs <;> simp_all

/-- No group has two records, and they ascend by group. -/
def Ordered (groups : Groups) : Prop := groups.Pairwise fun g h => g.group < h.group

theorem mem_put (h : g ∈ put state groups) : g = state ∨ g ∈ groups := by
  induction groups with
  | nil => simpa [put] using h
  | cons first rest ih =>
    simp only [put] at h
    split_ifs at h <;> simp only [List.mem_cons] at h ⊢ <;> tauto

theorem Ordered.put (h : Ordered groups) : Ordered (put state groups) := by
  induction groups with
  | nil => exact List.pairwise_singleton _ _
  | cons g rest ih =>
    obtain ⟨after, rest'⟩ := List.pairwise_cons.1 h
    simp only [Groups.put]
    split
    · next before =>
      refine List.pairwise_cons.2 ⟨fun other hother => ?_, h⟩
      rcases List.mem_cons.1 hother with rfl | hother
      · exact before
      · exact Ascending.lt_trans before (after other hother)
    · split
      · next before =>
        refine List.pairwise_cons.2 ⟨fun other hother => ?_, ih rest'⟩
        rcases mem_put hother with rfl | hother
        · exact before
        · exact after other hother
      · next notBefore notAfter =>
        have same : state.group = g.group := Ascending.eq_of_not_lt notBefore notAfter
        exact List.pairwise_cons.2 ⟨fun other hother => same ▸ after other hother, rest'⟩

theorem Ordered.get?_of_mem (h : Ordered groups) (hg : g ∈ groups) :
    groups.get? g.group = some g := by
  induction groups with
  | nil => simp at hg
  | cons first rest ih =>
    obtain ⟨after, rest'⟩ := List.pairwise_cons.1 h
    rw [get?_cons]
    rcases List.mem_cons.1 hg with rfl | hg
    · exact if_pos rfl
    · have differs : first.group ≠ g.group := fun same =>
        Ascending.lt_irrefl _ (same ▸ after g hg)
      rw [if_neg differs, ih rest' hg]

theorem Ordered.put_of_get? (h : Ordered groups) (known : groups.get? group = some g) :
    groups.put g = groups := by
  induction groups with
  | nil => simp [get?] at known
  | cons first rest ih =>
    obtain ⟨after, rest'⟩ := List.pairwise_cons.1 h
    have same := group_of_get? known
    rw [get?_cons] at known
    split at known
    · obtain rfl := Option.some.inj known
      have here : ¬ first.group < first.group := Ascending.lt_irrefl _
      simp [Groups.put, here]
    · have later : g ∈ rest := List.mem_of_find?_eq_some known
      have before : first.group < g.group := after g later
      have notBefore : ¬ g.group < first.group := fun h =>
        Ascending.lt_irrefl _ (Ascending.lt_trans before h)
      simp only [Groups.put, notBefore, before, if_true, if_false, ih rest' known]

theorem erase_of_get?_eq_none (unknown : groups.get? group = none) :
    groups.erase group = groups := by
  refine List.filter_eq_self.2 fun g hg => ?_
  simpa using List.find?_eq_none.1 unknown g hg

theorem Ordered.erase (h : Ordered groups) : Ordered (erase group groups) :=
  List.Pairwise.filter _ h

end Groups

/-! ### Standing -/

/-- What is wanted of a group, and the change of it that is still to be reported. -/
structure Standing where
  filter : SourceFilter
  change : Option PendingChange
  deriving DecidableEq

namespace Standing

/-- The standing of a group that is not known. -/
def unknown : Standing := ⟨.noInterest, none⟩

/-- The standing after the group got another filter, whose change is to be reported `robustness`
times. -/
def move (s : Standing) (robustness : Nat) (filter : SourceFilter) : Standing :=
  if s.filter = filter then s
  else ⟨filter, some (.record s.change s.filter filter robustness)⟩

/-- The standing after a report of the change was handed out. -/
def transmitted (s : Standing) : Standing :=
  { s with change := s.change.bind PendingChange.transmitted }

/-- The records that report the change. -/
def changeRecords (s : Standing) (group : Address) : List Record :=
  s.change.elim [] fun change => change.records group s.filter

/-- The standing when the change has been forgotten. -/
def forgotten (s : Standing) : Standing := { s with change := none }

theorem move_of_eq {s : Standing} {filter : SourceFilter} (h : s.filter = filter)
    (robustness : Nat) : s.move robustness filter = s := if_pos h

@[simp] theorem filter_move (s : Standing) (robustness : Nat) (filter : SourceFilter) :
    (s.move robustness filter).filter = filter := by
  unfold move
  split_ifs with h
  · exact h
  · rfl

end Standing

/-- Where the group of a record stands. -/
def GroupState.standing (g : GroupState) : Standing := ⟨g.filter, g.change⟩

/-- Where a group stands by its record. -/
def Groups.standing (groups : Groups) (group : Address) : Standing :=
  ((groups.get? group).map GroupState.standing).getD .unknown

namespace Listener

variable {l : Listener} {g : GroupState} {group other : Address}

/-- Where a group stands. -/
def standing (l : Listener) (group : Address) : Standing := Groups.standing l.groups group

/-- What is wanted of a group. -/
def interest (l : Listener) (group : Address) : SourceFilter :=
  (l.filter? group).getD .noInterest

theorem filter_standing : (l.standing group).filter = l.interest group := by
  cases h : l.groups.get? group <;> simp [standing, Groups.standing, interest, filter?, h] <;> rfl

theorem standing_of_get? (h : l.groups.get? group = some g) : l.standing group = g.standing := by
  simp [standing, Groups.standing, h]

theorem standing_getD_fresh (l : Listener) (group : Address) :
    ((l.groups.get? group).getD (.fresh group)).standing = l.standing group := by
  cases h : l.groups.get? group with
  | none => simp [standing, Groups.standing, h]; rfl
  | some g => simp [standing, Groups.standing, h]

theorem group_getD_fresh (l : Listener) (group : Address) :
    ((l.groups.get? group).getD (.fresh group)).group = group := by
  cases h : l.groups.get? group with
  | none => rfl
  | some g => exact Groups.group_of_get? h

theorem standing_put :
    (l.put g).standing other = if g.group = other then g.standing else l.standing other := by
  simp only [put, standing, Groups.standing, Groups.get?_put]
  split_ifs <;> rfl

theorem standing_drop :
    (l.drop g).standing other = if g.group = other then .unknown else l.standing other := by
  simp only [drop, standing, Groups.standing, Groups.get?_erase]
  split_ifs <;> rfl

theorem standing_keepOrDrop : (l.keepOrDrop g).standing other =
    if g.group = other then g.standing else l.standing other := by
  by_cases evictable : g.isEvictable = true
  · rw [keepOrDrop, if_pos evictable, standing_drop]
    simp only [GroupState.isEvictable, Bool.and_eq_true, SourceFilter.isEmpty_iff,
      Option.isNone_iff_eq_none] at evictable
    simp only [GroupState.standing, evictable.1.1, evictable.2, Standing.unknown]
  · rw [keepOrDrop, if_neg evictable, standing_put]

theorem standing_keepOrDrop_eq_put : (l.keepOrDrop g).standing = (l.put g).standing := by
  funext other
  rw [standing_keepOrDrop, standing_put]

theorem standing_put_of_get? {g' : GroupState} (h : l.groups.get? group = some g)
    (hgroup : g'.group = g.group) (hstanding : g'.standing = g.standing) :
    (l.put g').standing = l.standing := by
  funext other
  rw [standing_put, hgroup, Groups.group_of_get? h, hstanding, ← standing_of_get? h]
  split_ifs with same
  · rw [same]
  · rfl

@[simp] theorem standing_putAlarm (job : ReportJob) (alarm : Alarm) :
    (l.putAlarm job alarm).standing = l.standing := by
  cases job with
  | general => rfl
  | query group =>
    simp only [putAlarm]
    split
    · next g h => exact standing_put_of_get? h rfl rfl
    · rfl
  | change group =>
    simp only [putAlarm]
    split
    · next g h => exact standing_put_of_get? h rfl rfl
    · rfl

/-! ### The operations -/

/-- The group gets its filter, and no other group is concerned. -/
theorem standing_apply (now : Instant) (filter : SourceFilter) :
    (l.apply now group filter).standing other =
      if group = other then (l.standing group).move l.config.robustness.toNat filter
      else l.standing other := by
  have hgroup := group_getD_fresh l group
  have hstanding := standing_getD_fresh l group
  simp only [apply]
  generalize (l.groups.get? group).getD (.fresh group) = g at hgroup hstanding ⊢
  rw [← hstanding]
  by_cases same : g.filter = filter
  · simp only [same, ↓reduceIte, standing_keepOrDrop, hgroup, Standing.move, GroupState.standing]
  · simp only [same, ↓reduceIte, standing_put, hgroup, Standing.move, GroupState.standing]
    rfl

@[simp] theorem standing_generalQuery (now : Instant) (delay : Duration) :
    (l.generalQuery now delay).standing = l.standing := by
  unfold generalQuery
  split_ifs <;> rfl

@[simp] theorem standing_groupQuery (now : Instant) (delay : Duration) (sources : List Address) :
    (l.groupQuery now delay group sources).standing = l.standing := by
  unfold groupQuery
  split
  · rfl
  · next g h =>
    split
    · rfl
    · split
      · exact standing_put_of_get? h rfl rfl
      · split
        · rfl
        · exact standing_put_of_get? (l := { l with timers := _ }) h rfl rfl

@[simp] theorem standing_query (now : Instant) (random : Nat) (q : Query) :
    (l.query now random q).standing = l.standing := by
  unfold query
  split_ifs
  · rfl
  · dsimp only
    split
    · exact standing_generalQuery _ _
    · exact standing_groupQuery _ _ _

/-! ### Reports -/

/-- The reports that a run hands out when it wakes up, if its alarm goes off. -/
def handedOut (firing : Option Firing) : List Report := firing.elim [] Firing.reports

@[simp] theorem parts_nil : l.parts [] = [] := rfl

@[simp] theorem standing_groupResponse : (l.groupResponse group).1.standing = l.standing := by
  unfold groupResponse
  split
  · rfl
  · next g h =>
    split
    · rfl
    · exact standing_keepOrDrop_eq_put.trans (standing_put_of_get? h rfl rfl)

theorem standing_changeReport : (l.changeReport group).1.standing other =
    if group = other then (l.standing group).transmitted else l.standing other := by
  unfold changeReport
  split
  · next h =>
    split_ifs with same
    · simp [← same, standing, Groups.standing, h, Standing.transmitted, Standing.unknown]
    · rfl
  · next g h =>
    rw [standing_of_get? h]
    have hgroup := Groups.group_of_get? h
    split
    · next hchange =>
      split_ifs with same
      · rw [← same, standing_of_get? h]
        simp [Standing.transmitted, GroupState.standing, hchange]
      · rfl
    · next change hchange =>
      dsimp only
      split
      · next left hleft =>
        rw [standing_put, hgroup]
        simp [Standing.transmitted, GroupState.standing, hchange, hleft]
      · next hleft =>
        rw [standing_keepOrDrop, hgroup]
        simp [Standing.transmitted, GroupState.standing, hchange, hleft]

theorem reports_changeReport :
    (l.changeReport group).2.1 = l.parts ((l.standing group).changeRecords group) := by
  unfold changeReport
  split
  · next h => simp [standing, Groups.standing, h, Standing.changeRecords, Standing.unknown]
  · next g h =>
    rw [standing_of_get? h]
    split
    · next hchange => simp [Standing.changeRecords, GroupState.standing, hchange]
    · next change hchange =>
      dsimp only
      split <;> simp [Standing.changeRecords, GroupState.standing, hchange]

@[simp] theorem config_putAlarm (job : ReportJob) (alarm : Alarm) :
    (l.putAlarm job alarm).config = l.config := by
  unfold putAlarm
  split
  · rfl
  all_goals split <;> rfl

/-- A run that wakes up for the report of a group's change either does nothing to the standing of
any group, and hands out nothing, or hands out that report. -/
theorem begin_change (l : Listener) (group : Address) (run : Nat) :
    ((l.begin run (.change group)).1.standing = l.standing ∧
      handedOut (l.begin run (.change group)).2 = []) ∨
    ((∀ other, (l.begin run (.change group)).1.standing other =
        if group = other then (l.standing group).transmitted else l.standing other) ∧
      handedOut (l.begin run (.change group)).2 =
        l.parts ((l.standing group).changeRecords group)) := by
  unfold begin
  split
  · exact .inl ⟨rfl, rfl⟩
  · next alarm _ =>
    dsimp only [report]
    split
    · exact .inl ⟨standing_putAlarm _ _, rfl⟩
    · refine .inr ⟨fun other => ?_, ?_⟩
      · rw [standing_changeReport, standing_putAlarm]
        rfl
      · simp only [handedOut, Option.elim_some, reports_changeReport, standing_putAlarm, parts,
          config_putAlarm]
        rfl

theorem standing_begin_of_ne {job : ReportJob} (hjob : job ≠ .change group) (run : Nat) :
    (l.begin run job).1.standing group = l.standing group := by
  cases job with
  | change other =>
    rcases begin_change l other run with ⟨same, -⟩ | ⟨moves, -⟩
    · rw [same]
    · rw [moves, if_neg fun h => hjob (by rw [h])]
  | general =>
    unfold begin
    split
    · rfl
    · dsimp only [report]
      split <;> rw [standing_putAlarm] <;> rfl
  | query other =>
    unfold begin
    split
    · rfl
    · dsimp only [report]
      split
      · rw [standing_putAlarm]; rfl
      · rw [standing_groupResponse, standing_putAlarm]; rfl

@[simp] theorem standing_finish (f : Firing) (now : Instant) :
    (l.finish f now).standing = l.standing := by
  unfold finish
  split
  · rfl
  · exact standing_putAlarm _ _

/-! ### The end of a tunnel -/

theorem mem_forgetAll {groups : Groups} {timers : Timers ReportJob}
    (h : g ∈ (forgetAll timers groups).2) : ∃ g' ∈ groups, g'.group = g.group := by
  induction groups generalizing timers with
  | nil => simp [forgetAll] at h
  | cons first rest ih =>
    simp only [forgetAll] at h
    split_ifs at h
    · obtain ⟨g', hg', same⟩ := ih h
      exact ⟨g', List.mem_cons_of_mem _ hg', same⟩
    · rcases List.mem_cons.1 h with rfl | h
      · exact ⟨first, by simp, rfl⟩
      · obtain ⟨g', hg', same⟩ := ih h
        exact ⟨g', List.mem_cons_of_mem _ hg', same⟩

theorem ordered_forgetAll {groups : Groups} (ordered : Groups.Ordered groups)
    (timers : Timers ReportJob) : Groups.Ordered (forgetAll timers groups).2 := by
  induction groups generalizing timers with
  | nil => exact List.Pairwise.nil
  | cons g rest ih =>
    obtain ⟨after, ordered⟩ := List.pairwise_cons.1 ordered
    simp only [forgetAll]
    split_ifs
    · exact ih ordered _
    · refine List.pairwise_cons.2 ⟨fun other hother => ?_, ih ordered _⟩
      obtain ⟨g', hg', same⟩ := mem_forgetAll hother
      exact same ▸ after g' hg'

theorem standing_forgetAll {groups : Groups} (ordered : Groups.Ordered groups)
    (timers : Timers ReportJob) :
    Groups.standing (forgetAll timers groups).2 group =
      (Groups.standing groups group).forgotten := by
  induction groups generalizing timers with
  | nil => rfl
  | cons g rest ih =>
    obtain ⟨after, ordered⟩ := List.pairwise_cons.1 ordered
    have ih := ih ordered (forget timers g).1
    simp only [forgetAll, Groups.standing, Groups.get?_cons] at ih ⊢
    by_cases here : g.group = group
    · -- no later record is about this group, so dropping this one makes the group unknown
      have gone : Groups.get? (forgetAll (forget timers g).1 rest).2 group = none := by
        refine List.find?_eq_none.2 fun other hother same => ?_
        obtain ⟨g', hg', same'⟩ := mem_forgetAll hother
        exact Ascending.lt_irrefl group
          (by simpa [here, same', beq_iff_eq.1 same] using after g' hg')
      split_ifs with evictable
      · simp only [GroupState.isEvictable, forget, Bool.and_eq_true, SourceFilter.isEmpty_iff]
          at evictable
        simp [gone, GroupState.standing, Standing.forgotten, Standing.unknown, evictable.1.1]
      · rw [Groups.get?_cons, if_pos (by simpa [forget] using here)]
        simp [forget, GroupState.standing, Standing.forgotten]
    · rw [if_neg here, ← ih]
      split_ifs
      · rfl
      · rw [Groups.get?_cons, if_neg (by simpa [forget] using here)]

theorem standing_cancelPending (ordered : Groups.Ordered l.groups) :
    l.cancelPending.standing group = (l.standing group).forgotten :=
  standing_forgetAll ordered _

end Listener

end MulticastTunnel

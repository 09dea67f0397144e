import MulticastTunnel.Proofs.Listener.Reports
import MulticastTunnel.Proofs.Listener.Run

/-!
# The relay learns what is wanted

A relay learns what is wanted of a group from the reports of changes, each of which may get lost.
A `Link` follows one group: the listener, what the relay holds of the group, and whether a report
has arrived since the group got its filter. What is sent arrives, if it does, before anything else
happens.

A pending change tells the difference between the two ends (`Standing.Explains`), and this is kept
by every step: new filters are folded into the change (`Standing.Explains.move`), and a report of
the change makes the two ends agree (`Standing.Explains.hear`).

* `Link.relay_converges` : **the relay agrees with the listener** after every report that arrives,
  and whenever no change is pending, provided that no change is given up before one of its reports
  has arrived.
-/

namespace MulticastTunnel

/-! ### What a relay hears -/

namespace SourceFilter

/-- Accepts the sources, too. -/
def allow (f : SourceFilter) (sources : List Address) : SourceFilter :=
  match f.mode with
  | .including => f.add sources
  | .excluding => f.remove sources

/-- Accepts the sources no longer. -/
def block (f : SourceFilter) (sources : List Address) : SourceFilter :=
  match f.mode with
  | .including => f.remove sources
  | .excluding => f.add sources

variable {f : SourceFilter} {sources : List Address} {a : Address}

@[simp] theorem mode_allow : (f.allow sources).mode = f.mode := by
  unfold allow
  split <;> rfl

@[simp] theorem mode_block : (f.block sources).mode = f.mode := by
  unfold block
  split <;> rfl

@[simp] theorem accepts_allow :
    (f.allow sources).accepts a = (f.accepts a || decide (a ∈ sources)) := by
  obtain ⟨mode, s⟩ := f
  cases mode <;> simp [allow, add, remove, accepts]

@[simp] theorem accepts_block :
    (f.block sources).accepts a = (f.accepts a && !decide (a ∈ sources)) := by
  obtain ⟨mode, s⟩ := f
  cases mode <;> simp [block, add, remove, accepts]

end SourceFilter

/-- What a relay holds of a group after a record of a report. Answers to queries tell it nothing
new. -/
def Record.heard (group : Address) (view : SourceFilter) (r : Record) : SourceFilter :=
  if r.group ≠ group then view
  else
    match r.kind with
    | .isInclude | .isExclude => view
    | .toInclude => .including (.ofList r.sources)
    | .toExclude => .excluding (.ofList r.sources)
    | .allow => view.allow r.sources
    | .block => view.block r.sources

/-- What a relay holds of a group after some reports. -/
def Report.heardAll (group : Address) (view : SourceFilter) (reports : List Report) :
    SourceFilter :=
  (reports.flatMap Report.records).foldl (Record.heard group) view

/-- Records about other groups, and answers to queries, tell nothing new. -/
theorem Report.heardAll_of_forall {group : Address} {view : SourceFilter} {reports : List Report}
    (h : ∀ part ∈ reports, ∀ r ∈ part.records, r.group ≠ group ∨ r.kind.isCurrentState) :
    heardAll group view reports = view := by
  have deaf : ∀ records : List Record,
      (∀ r ∈ records, r.group ≠ group ∨ r.kind.isCurrentState) →
        records.foldl (Record.heard group) view = view := by
    intro records h
    induction records with
    | nil => rfl
    | cons r rest ih =>
      have quiet : r.heard group view = view := by
        rcases h r (by simp) with other | current
        · exact if_pos other
        · cases hkind : r.kind <;> simp_all [Record.heard, RecordKind.isCurrentState]
      rw [List.foldl_cons, quiet]
      exact ih fun r hr => h r (List.mem_cons_of_mem _ hr)
  refine deaf _ fun r hr => ?_
  obtain ⟨part, hpart, hr⟩ := List.mem_flatMap.1 hr
  exact h part hpart r hr

namespace Listener

theorem heardAll_parts {l : Listener} {group : Address} {records : List Record}
    {view : SourceFilter}
    (fits : Report.encodedLength ⟨records⟩ ≤ min l.config.maxReportLength Report.maxLength) :
    Report.heardAll group view (l.parts records) = records.foldl (Record.heard group) view := by
  rw [parts, Report.splitToFit_of_fits fits]
  cases records <;> simp [Report.heardAll]

end Listener

/-! ### What a pending change tells -/

namespace Standing

variable {s : Standing} {view : SourceFilter} {group : Address}

/-- The pending change explains the difference between what the relay holds and what is wanted. -/
def Explains (s : Standing) (view : SourceFilter) : Prop :=
  match s.change.map PendingChange.change with
  | none => view = s.filter
  | some .mode => True
  | some (.sources allow block) =>
    view.mode = s.filter.mode ∧ (∀ a ∈ allow, s.filter.accepts a = true) ∧
      (∀ a ∈ block, s.filter.accepts a = false) ∧
      ∀ a, a ∉ allow → a ∉ block → view.accepts a = s.filter.accepts a

/-- The relay may come to hold what is wanted before the change is done with. -/
theorem Explains.filter (h : s.Explains view) : s.Explains s.filter := by
  unfold Explains at h ⊢
  split <;> simp_all

theorem Explains.move (h : s.Explains view) (robustness : Nat) (filter : SourceFilter) :
    (s.move robustness filter).Explains view := by
  unfold Standing.move
  split
  · exact h
  simp only [Explains, PendingChange.record, StateChange.fold, Option.map_some] at h ⊢
  generalize s.change.map PendingChange.change = pending at h ⊢
  by_cases hmode : s.filter.mode = filter.mode
  · have hallowed (a : Address) : a ∈ (StateChange.between s.filter filter).1 ↔
        s.filter.accepts a = false ∧ filter.accepts a = true := StateChange.mem_between_fst hmode
    have hblocked (a : Address) : a ∈ (StateChange.between s.filter filter).2 ↔
        s.filter.accepts a = true ∧ filter.accepts a = false := StateChange.mem_between_snd hmode
    simp only [hmode, ne_eq, not_true_eq_false, ↓reduceIte]
    generalize StateChange.between s.filter filter = changed at hallowed hblocked ⊢
    obtain ⟨allowed, blocked⟩ := changed
    cases pending with
    | none =>
      -- both ends agreed, so the new change is the whole difference
      subst h
      refine ⟨hmode, ?_, ?_, ?_⟩
      · intro a ha
        exact ((hallowed a).1 ha).2
      · intro a ha
        exact ((hblocked a).1 ha).2
      · intro a notAllowed notBlocked
        rw [hallowed] at notAllowed
        rw [hblocked] at notBlocked
        grind
    | some change =>
      cases change with
      | mode => trivial
      | sources allow block =>
        -- a source that changes back leaves one list and enters the other
        obtain ⟨sameMode, wanted, unwanted, others⟩ := h
        refine ⟨sameMode.trans hmode, ?_, ?_, ?_⟩
        · intro a ha
          simp only [AddressSet.mem_union, AddressSet.mem_sdiff] at ha
          have := wanted a
          grind
        · intro a ha
          simp only [AddressSet.mem_union, AddressSet.mem_sdiff] at ha
          have := unwanted a
          grind
        · intro a notAllowed notBlocked
          simp only [AddressSet.mem_union, AddressSet.mem_sdiff] at notAllowed notBlocked
          have := others a
          grind
  · simp [hmode]

theorem foldl_heard_sources (group : Address) (view : SourceFilter) (allow block : AddressSet)
    (left : Nat) (current : SourceFilter) :
    let heard := ((PendingChange.mk (.sources allow block) left).records group current).foldl
      (Record.heard group) view
    heard.mode = view.mode ∧ ∀ a,
      heard.accepts a = ((view.accepts a || decide (a ∈ allow)) && !decide (a ∈ block)) := by
  by_cases hallow : allow.isEmpty = true <;> by_cases hblock : block.isEmpty = true <;>
    simp_all [PendingChange.records, Record.heard]

/-- The report of the change makes the relay hold what is wanted. -/
theorem Explains.hear (h : s.Explains view) (group : Address) :
    (s.changeRecords group).foldl (Record.heard group) view = s.filter := by
  obtain ⟨filter, pending⟩ := s
  cases pending with
  | none => exact h
  | some pending =>
    obtain ⟨change, left⟩ := pending
    cases change with
    | mode =>
      obtain ⟨mode, sources⟩ := filter
      cases mode <;>
        simp [changeRecords, PendingChange.records, Record.heard, SourceFilter.including,
          SourceFilter.excluding]
    | sources allow block =>
      obtain ⟨sameMode, wanted, unwanted, others⟩ := h
      obtain ⟨keepsMode, accepts⟩ := foldl_heard_sources group view allow block left filter
      refine SourceFilter.eq_of_accepts (keepsMode.trans sameMode) fun a => (accepts a).trans ?_
      by_cases hblock : a ∈ block
      · simp [hblock, unwanted a hblock]
      · by_cases hallow : a ∈ allow
        · simp [hblock, hallow, wanted a hallow]
        · simp [hblock, hallow, others a hallow hblock]

theorem Explains.transmitted (h : s.Explains view)
    (ended : s.transmitted.change = none → view = s.filter) : s.transmitted.Explains view := by
  obtain ⟨filter, pending⟩ := s
  cases pending with
  | none => exact h
  | some pending =>
    obtain ⟨change, left⟩ := pending
    by_cases last : left - 1 = 0
    · simp_all [Standing.transmitted, PendingChange.transmitted, Explains]
    · simpa [Standing.transmitted, PendingChange.transmitted, last, Explains] using h

end Standing

/-! ### The link -/

/-- One group between a listener and a relay. -/
structure Link where
  listener : Listener
  /-- What the relay holds of the group. -/
  view : SourceFilter
  /-- A report of the group's change has arrived since the group got its filter. -/
  confirmed : Bool
  deriving DecidableEq

/-- The event may hand out the report of a group's change. -/
def Listener.Event.firesChange (group : Address) : Event → Bool
  | .begin _ (.change other) => other == group
  | _ => false

namespace Link

/-- Nothing is wanted, and nothing was reported. -/
def start (config : Config) : Link := ⟨.start config, .noInterest, false⟩

/-- Something happens to the listener, and what is sent arrives or gets lost. -/
def step (group : Address) (k : Link) (event : Listener.Event) (arrives : Bool) : Link where
  listener := (k.listener.react event).1
  view := if arrives then Report.heardAll group k.view (k.listener.react event).2 else k.view
  confirmed :=
    if (k.listener.react event).1.interest group ≠ k.listener.interest group then false
    else k.confirmed ||
      (arrives && event.firesChange group && !(k.listener.react event).2.isEmpty)

/-- The report of the group's change, if there is one, need not be split. -/
def Fits (group : Address) (k : Link) : Prop :=
  (k.listener.standing group).change ≠ none →
    Report.encodedLength ⟨(k.listener.standing group).changeRecords group⟩ ≤
      min k.listener.config.maxReportLength Report.maxLength

/-- What may happen: the tunnel stays up, reports of the group's change fit, and the change is not
given up before one of them has arrived. -/
def Admits (group : Address) (k : Link) (event : Listener.Event) (arrives : Bool) : Prop :=
  event ≠ .cancelPending ∧ event ≠ .shutdown ∧ (event.firesChange group → k.Fits group) ∧
    ((k.listener.standing group).change ≠ none →
      ((k.step group event arrives).listener.standing group).change = none →
      (k.step group event arrives).confirmed)

instance (group : Address) (k : Link) : Decidable (k.Fits group) :=
  inferInstanceAs (Decidable (_ → _))

instance (group : Address) (k : Link) (event : Listener.Event) (arrives : Bool) :
    Decidable (k.Admits group event arrives) :=
  inferInstanceAs (Decidable (_ ∧ _))

/-- The link after some events. -/
def run (group : Address) (k : Link) (events : List (Listener.Event × Bool)) : Link :=
  events.foldl (fun k event => k.step group event.1 event.2) k

/-- All of the events may happen, one after the other. -/
def AdmitsAll (group : Address) : Link → List (Listener.Event × Bool) → Prop
  | _, [] => True
  | k, event :: events =>
    k.Admits group event.1 event.2 ∧ AdmitsAll group (k.step group event.1 event.2) events

instance instDecidableAdmitsAll (group : Address) :
    (k : Link) → (events : List (Listener.Event × Bool)) → Decidable (k.AdmitsAll group events)
  | _, [] => inferInstanceAs (Decidable True)
  | k, event :: events =>
    have := instDecidableAdmitsAll group (k.step group event.1 event.2) events
    inferInstanceAs (Decidable (_ ∧ _))

variable {k : Link} {group : Address}

/-- The pending change explains the difference of the two ends, and there is none once a report of
the present filter has arrived. -/
structure InSync (group : Address) (k : Link) : Prop where
  explains : (k.listener.standing group).Explains k.view
  confirmed : k.confirmed = true → k.view = k.listener.interest group

theorem inSync_start (config : Config) : InSync group (start config) :=
  ⟨rfl, fun h => by simp [start] at h⟩

/-- An event that leaves the relay's view alone keeps the two ends in step, if the standing of the
group stays the same or takes up a new filter. -/
theorem InSync.of_view {event : Listener.Event} {arrives : Bool} (h : InSync group k)
    (view : (k.step group event arrives).view = k.view)
    (silent : event.firesChange group = false ∨ (k.listener.react event).2 = [])
    (moves : (k.listener.react event).1.standing group = k.listener.standing group ∨
      ∃ robustness filter, (k.listener.react event).1.standing group =
        (k.listener.standing group).move robustness filter) :
    InSync group (k.step group event arrives) where
  explains := by
    rw [view, step]
    rcases moves with same | ⟨robustness, filter, moves⟩
    · rw [same]
      exact h.explains
    · rw [moves]
      exact h.explains.move robustness filter
  confirmed hconfirmed := by
    rw [view]
    simp only [step] at hconfirmed ⊢
    split at hconfirmed
    · simp at hconfirmed
    · next kept =>
      have before : k.confirmed = true := by rcases silent with silent | silent <;> simp_all
      rw [h.confirmed before, not_not.1 kept]

theorem InSync.heardAll_changeRecords (h : InSync group k) (fits : k.Fits group) :
    Report.heardAll group k.view
        (k.listener.parts ((k.listener.standing group).changeRecords group)) =
      k.listener.interest group := by
  rw [← Listener.filter_standing, ← h.explains.hear group]
  by_cases pending : (k.listener.standing group).change = none
  · simp [Standing.changeRecords, pending, Report.heardAll]
  · exact Listener.heardAll_parts (fits pending)

theorem InSync.begin_change {run : Nat} {arrives : Bool} (h : InSync group k)
    (fits : (Listener.Event.begin run (.change group)).firesChange group → k.Fits group)
    (heard : (k.listener.standing group).change ≠ none →
      ((k.step group (.begin run (.change group)) arrives).listener.standing group).change = none →
      (k.step group (.begin run (.change group)) arrives).confirmed) :
    InSync group (k.step group (.begin run (.change group)) arrives) := by
  rcases Listener.begin_change k.listener group run with
    ⟨same, nothing⟩ | ⟨moves, reports⟩
  · exact h.of_view (by simp [Link.step, Listener.react, nothing, Report.heardAll])
      (.inr nothing) (.inl (by rw [Listener.react, same]))
  · have standing : (k.step group (.begin run (.change group)) arrives).listener.standing group =
        (k.listener.standing group).transmitted := (moves group).trans (if_pos rfl)
    have interest : (k.listener.begin run (.change group)).1.interest group =
        k.listener.interest group := congrFun (Listener.interest_begin _ _) group
    cases arrives with
    | true =>
      have view : (k.step group (.begin run (.change group)) true).view =
          (k.listener.standing group).filter := by
        have fits := fits (by simp [Listener.Event.firesChange])
        rw [Listener.filter_standing, ← h.heardAll_changeRecords fits]
        simp [Link.step, Listener.react, reports]
      refine ⟨?_, fun _ => ?_⟩
      · rw [standing, view]
        exact h.explains.filter.transmitted fun _ => rfl
      · rw [view, Listener.filter_standing]
        exact interest.symm
    | false =>
      have before
          (hconfirmed : (k.step group (.begin run (.change group)) false).confirmed = true) :
          k.view = k.listener.interest group :=
        h.confirmed (by simpa [Link.step, Listener.react, interest] using hconfirmed)
      refine ⟨?_, fun hconfirmed => (before hconfirmed).trans interest.symm⟩
      rw [standing]
      -- a lost report may be the last one only if an earlier one has arrived
      refine h.explains.transmitted fun ended => ?_
      by_cases pending : (k.listener.standing group).change = none
      · simpa [Standing.Explains, pending] using h.explains
      · rw [Listener.filter_standing]
        exact before (heard pending (standing ▸ ended))

theorem InSync.step {event : Listener.Event} {arrives : Bool} (h : InSync group k)
    (admits : k.Admits group event arrives) : InSync group (k.step group event arrives) := by
  obtain ⟨hcancel, hshutdown, fits, heard⟩ := admits
  cases event with
  | call now other c =>
    refine h.of_view (by simp [Link.step, Listener.react, Report.heardAll]) (.inl rfl) ?_
    rcases Listener.call_cases k.listener now other c with
      ⟨-, l', success, -, standing⟩ | ⟨e, -, failure⟩
    · simp only [Listener.react, success, Except.toOption, Option.getD_some, standing]
      split_ifs with same
      · exact .inr ⟨_, _, by rw [same]⟩
      · exact .inl rfl
    · exact .inl (by simp [Listener.react, failure, Except.toOption])
  | query now random query =>
    exact h.of_view (by simp [Link.step, Listener.react, Report.heardAll]) (.inl rfl)
      (.inl (by rw [Listener.react, Listener.standing_query]))
  | cancelPending => exact absurd rfl hcancel
  | shutdown => exact absurd rfl hshutdown
  | begin run job =>
    by_cases hjob : job = .change group
    · subst hjob
      exact h.begin_change fits heard
    · refine h.of_view ?_ (.inl ?_) (.inl (Listener.standing_begin_of_ne hjob run))
      · have deaf : Report.heardAll group k.view (Listener.handedOut (k.listener.begin run job).2) =
            k.view := by
          refine Report.heardAll_of_forall fun part hpart r hr => ?_
          rcases Listener.records_of_begin hpart hr with current | own
          · exact .inr current
          · exact .inl fun same => hjob (same ▸ own)
        simp [Link.step, Listener.react, deaf]
      · cases job <;> simp_all [Listener.Event.firesChange]
  | finish firing now =>
    exact h.of_view (by simp [Link.step, Listener.react, Report.heardAll]) (.inl rfl)
      (.inl (by rw [Listener.react, Listener.standing_finish]))

theorem InSync.run {events : List (Listener.Event × Bool)} (h : InSync group k)
    (admits : k.AdmitsAll group events) : InSync group (k.run group events) := by
  induction events generalizing k with
  | nil => exact h
  | cons event events ih => exact ih (h.step admits.1) admits.2

/-- **The relay converges to what is wanted.** Let a group's reports get lost or arrive in any way,
while the tunnel stays up, each report of its change fits one message, and no change of it is given
up before one of its reports has arrived. Then the relay holds what is wanted of the group whenever
no change is pending, and right after each report of a change that arrives. -/
theorem relay_converges (config : Config) (group : Address) (events : List (Listener.Event × Bool))
    (admits : (start config).AdmitsAll group events) :
    let k := (start config).run group events
    ((k.listener.standing group).change = none → k.view = k.listener.interest group) ∧
    ∀ run, k.Fits group → (k.listener.react (.begin run (.change group))).2 ≠ [] →
      let k' := k.step group (.begin run (.change group)) true
      k'.view = k'.listener.interest group := by
  intro k
  have inSync : InSync group k := (inSync_start config).run admits
  constructor
  · intro pending
    have agree := inSync.explains
    simpa [Standing.Explains, pending, Listener.filter_standing] using agree
  · intro run fits report
    have confirmed : (k.step group (.begin run (.change group)) true).confirmed = true := by
      simp_all [step, Listener.react, Listener.interest_begin, Listener.Event.firesChange]
    have inSync' := inSync.begin_change (fun _ => fits) fun _ _ => confirmed
    exact inSync'.confirmed confirmed

/-- Events in which the first report of a group gets lost, the group is taken to EXCLUDE mode before
the second one, and of the two reports of that change the last one gets lost. -/
def lossyEvents (group first second : Address) : List (Listener.Event × Bool) :=
  let fire (arrives : Bool) : List (Listener.Event × Bool) :=
    [(.begin 0 (.change group), arrives), (.finish ⟨0, .change group, [], some 1000⟩ 0, false)]
  [(.call 0 group (.join (.including (.ofList [first]))), false)] ++ fire false
    ++ [(.call 0 group (.update (.excluding (.ofList [second]))), false)] ++ fire true ++ fire false

theorem relay_converges_lossyEvents :
    let group := Address.ofOctets 239 1 1 1
    let config := Config.quick
    let events := lossyEvents group (.ofOctets 192 0 2 1) (.ofOctets 192 0 2 2)
    let k := (start config).run group events
    let k' := ((start config).run group (events.take 4)).step group (.begin 0 (.change group)) true
    (start config).AdmitsAll group events ∧
      (k.listener.standing group).change = none ∧ k.view = k.listener.interest group ∧
      k'.view = k'.listener.interest group := by
  intro group config events k k'
  have admits : (start config).AdmitsAll group events := by decide
  have pending : (k.listener.standing group).change = none := by decide
  refine ⟨admits, pending, (relay_converges config group events admits).1 pending, ?_⟩
  exact (relay_converges config group (events.take 4) (by decide)).2 0 (by decide) (by decide)

end Link

end MulticastTunnel

import MulticastTunnel.Proofs.Interest.Coalescing
import MulticastTunnel.Proofs.Listener.Upkeep
import MulticastTunnel.Proofs.Query.Wire
import MulticastTunnel.Proofs.Report.Wire

/-!
# Reports that reach the relay

Nothing looks again at a report that an alarm hands out: if it could not be written, it would be
lost. That it can be written rests on the filters and changes of the records, which are checked
when they are made, and on the sources that queries asked about, which are of one family with the
group because queries are read from packets.

* `Listener.AskedInFamily` : what the sources are that queries asked about.
* `Report.Deliverable` : the report has a packet, is read back from it, and is not too long.
* `Reporting.reports_deliverable` : **every report that is handed out is deliverable**.
-/

namespace MulticastTunnel

/-! ### Sources of queries -/

/-- All sources that were asked about are of the family of the group. -/
def AskedSources.InFamily (group : Address) (asked : AskedSources) : Prop :=
  ∀ sources, asked = only sources → ∀ a ∈ sources, a.isV4 = group.isV4

namespace AskedSources

variable {group : Address} {asked : AskedSources} {sources : List Address}

theorem InFamily.ofQuery (h : ∀ a ∈ sources, a.isV4 = group.isV4) :
    (ofQuery sources).InFamily group := by
  intro set hset a ha
  cases sources with
  | nil => cases hset
  | cons s rest =>
    cases hset
    exact h a (by simpa using ha)

theorem InFamily.merge (h : asked.InFamily group) (hs : ∀ a ∈ sources, a.isV4 = group.isV4) :
    (asked.merge sources).InFamily group := by
  intro set hset a ha
  cases asked with
  | all => cases hset
  | only earlier =>
    cases sources with
    | nil => cases hset
    | cons s rest =>
      cases hset
      rcases AddressSet.mem_union.1 ha with ha | ha
      · exact h earlier rfl a ha
      · exact hs a (by simpa using ha)

end AskedSources

/-- The sources that queries about the group asked about are of its family. -/
def GroupState.AskedInFamily (g : GroupState) : Prop :=
  ∀ asked, g.asked = some asked → asked.InFamily g.group

namespace Listener

/-- The sources that queries asked about are of the family of their group. -/
def AskedInFamily (l : Listener) : Prop := ∀ g ∈ l.groups, g.AskedInFamily

namespace AskedInFamily

variable {l : Listener} {g : GroupState} {group : Address}

theorem timers (h : l.AskedInFamily) (timers : Timers ReportJob) :
    AskedInFamily { l with timers } := h

theorem of_get? (h : l.AskedInFamily) (known : l.groups.get? group = some g) : g.AskedInFamily :=
  h g (List.mem_of_find?_eq_some known)

theorem getD_fresh (h : l.AskedInFamily) :
    ((l.groups.get? group).getD (.fresh group)).AskedInFamily := by
  cases known : l.groups.get? group with
  | none => exact fun _ hasked => nomatch hasked
  | some g => exact h.of_get? known

theorem put (h : l.AskedInFamily) (hg : g.AskedInFamily) : (l.put g).AskedInFamily := by
  intro g' hg'
  rcases Groups.mem_put hg' with rfl | hg'
  · exact hg
  · exact h g' hg'

theorem keepOrDrop (h : l.AskedInFamily) (hg : g.AskedInFamily) :
    (l.keepOrDrop g).AskedInFamily := by
  unfold Listener.keepOrDrop
  split
  · exact fun g' hg' => h g' (List.mem_filter.1 hg').1
  · exact h.put hg

theorem putAlarm (h : l.AskedInFamily) (job : ReportJob) (alarm : Alarm) :
    (l.putAlarm job alarm).AskedInFamily := by
  unfold Listener.putAlarm
  split
  · exact h
  all_goals
    split
    · next g known =>
      have here := h.of_get? known
      exact h.put here
    · exact h

theorem apply (h : l.AskedInFamily) (now : Instant) (filter : SourceFilter) :
    (l.apply now group filter).AskedInFamily := by
  have here : ((l.groups.get? group).getD (.fresh group)).AskedInFamily := h.getD_fresh
  unfold Listener.apply
  dsimp only
  split
  · exact h.keepOrDrop here
  · exact (h.timers _).put here

theorem call (h : l.AskedInFamily) {l' : Listener} (tidy : l.Tidy) {now : Instant} {c : Call}
    (success : l.call now group c = .ok l') : l'.AskedInFamily := by
  obtain ⟨-, rfl | ⟨filter, -, rfl⟩⟩ := tidy.call_cases success
  · exact h
  · exact h.apply now filter

theorem groupQuery (h : l.AskedInFamily) (now : Instant) (delay : Duration)
    {sources : List Address} (family : ∀ a ∈ sources, a.isV4 = group.isV4) :
    (l.groupQuery now delay group sources).AskedInFamily := by
  unfold Listener.groupQuery
  split
  · exact h
  · next g known =>
    obtain rfl := Groups.group_of_get? known
    split
    · exact h
    · split
      · next asked hasked =>
        refine h.put fun merged hmerged => ?_
        obtain rfl := Option.some.inj hmerged
        exact (h.of_get? known asked hasked).merge family
      · split
        · exact h
        · refine (h.timers _).put fun new hnew => ?_
          obtain rfl := Option.some.inj hnew
          exact .ofQuery family

theorem query (h : l.AskedInFamily) (now : Instant) (random : Nat) {q : Query}
    (family : ∀ group ∈ q.group, ∀ a ∈ q.sources, a.isV4 = group.isV4) :
    (l.query now random q).AskedInFamily := by
  unfold Listener.query
  split
  · exact h
  · dsimp only
    split
    · unfold generalQuery
      split
      · exact h
      · exact h
    · next group asks => exact h.groupQuery _ _ (family group asks)

theorem report (h : l.AskedInFamily) (job : ReportJob) : (l.report job).1.AskedInFamily := by
  unfold Listener.report
  split
  · exact h
  · split
    · exact h
    · dsimp only
      unfold groupResponse
      split
      · exact h
      · split
        · exact h
        · exact h.keepOrDrop fun _ hasked => nomatch hasked
    · unfold changeReport
      split
      · exact h
      · next g known =>
        have here := h.of_get? known
        split
        · exact h
        · dsimp only
          split
          · exact h.put here
          · exact h.keepOrDrop here

theorem begin (h : l.AskedInFamily) (run : Nat) (job : ReportJob) :
    (l.begin run job).1.AskedInFamily := by
  unfold Listener.begin
  split
  · exact h
  · exact ((h.timers _).putAlarm _ _).report _

theorem finish (h : l.AskedInFamily) (f : Firing) (now : Instant) :
    (l.finish f now).AskedInFamily := by
  unfold Listener.finish
  split
  · exact h
  · exact (h.timers _).putAlarm _ _

theorem cancelPending (l : Listener) : l.cancelPending.AskedInFamily := by
  intro g hg asked hasked
  obtain ⟨-, g', -, timers, rfl⟩ := of_mem_forgetAll hg
  nomatch hasked

end AskedInFamily

end Listener

/-! ### Records of one family -/

/-- The sources of the record are of the family of its group. -/
def Record.IsOneFamily (r : Record) : Prop := ∀ s ∈ r.sources, s.isV4 = r.group.isV4

namespace GroupState

variable {g : GroupState} {r : Record}

theorem Sound.isV4_of_mem (h : g.Sound) {a : Address} (ha : a ∈ g.filter.sources) :
    a.isV4 = g.group.isV4 := by
  have valid := (SourceFilter.problemFor_eq_none_iff.1 h.filter).2.1 a ha
  simpa [Address.sameFamily] using SourceFilter.sameFamily_of_sourceProblem valid

theorem Sound.isV4_of_mentions (h : g.Sound) {p : PendingChange} (pending : g.change = some p)
    {a : Address} (ha : p.change.Mentions a) : a.isV4 = g.group.isV4 := by
  have valid := h.change p pending a ha
  simpa [Address.sameFamily] using SourceFilter.sameFamily_of_sourceProblem valid

theorem Sound.currentState (h : g.Sound) (hr : g.currentState = some r) :
    r.group = g.group ∧ r.IsOneFamily := by
  unfold GroupState.currentState at hr
  split at hr
  · nomatch hr
  · obtain rfl := Option.some.inj hr
    exact ⟨rfl, fun s hs => h.isV4_of_mem (AddressSet.mem_toList.1 hs)⟩

theorem Sound.response (h : g.Sound) {asked : AskedSources} (family : asked.InFamily g.group)
    (hr : g.response asked = some r) : r.group = g.group ∧ r.IsOneFamily := by
  cases asked with
  | all => exact h.currentState hr
  | only sources =>
    simp only [GroupState.response] at hr
    split at hr
    · nomatch hr
    · obtain rfl := Option.some.inj hr
      refine ⟨rfl, fun s hs => ?_⟩
      have wanted : s ∈ g.wantedAmong sources := hs
      exact family sources rfl s (mem_wantedAmong.1 wanted).1

theorem Sound.changeRecords (h : g.Sound) {p : PendingChange} (pending : g.change = some p)
    (hr : r ∈ p.records g.group g.filter) : r.group = g.group ∧ r.IsOneFamily := by
  have mentioned {a : Address} := h.isV4_of_mentions pending (a := a)
  unfold PendingChange.records at hr
  split at hr
  · obtain rfl := List.mem_singleton.1 hr
    exact ⟨rfl, fun s hs => h.isV4_of_mem (AddressSet.mem_toList.1 hs)⟩
  · next allow block change =>
    rw [change] at mentioned
    rcases List.mem_append.1 hr with hr | hr
    all_goals
      split at hr
      · nomatch hr
      · obtain rfl := List.mem_singleton.1 hr
        refine ⟨rfl, fun s hs => mentioned ?_⟩
        simp_all [StateChange.Mentions]

end GroupState

/-! ### Deliverable reports -/

theorem Config.maxReportLength_of_problem {config : Config} (accepted : config.problem = none) :
    100 ≤ config.maxReportLength ∧ config.maxReportLength ≤ Report.maxLength := by
  unfold Config.problem at accepted
  simp only [Option.orElse_eq_orElse, Option.orElse_eq_or, Option.or_eq_none_iff] at accepted
  obtain ⟨-, -, accepted⟩ := accepted
  split_ifs at accepted
  omega

@[simp] theorem Config.isV4_reporter (config : Config) (v4 : Bool) :
    (config.reporter v4).isV4 = v4 := by
  cases v4 <;> rfl

namespace Report

/-- The report is not empty, all its addresses are of the family of its first group, its packet is
written for a reporter of that family, it is read back from there, and the message in the packet is
not longer than the settings allow. -/
def Deliverable (config : Config) (report : Report) : Prop :=
  ∃ first rest packet message, report.records = first :: rest ∧ report.OfFamily first.group ∧
    report.encode (config.reporter first.group.isV4) = .ok packet ∧ decode packet = .ok report ∧
    ControlPacket.message packet = .ok message ∧ message.length ≤ config.maxReportLength

theorem deliverable_of_fits {config : Config} (accepted : config.problem = none) {report : Report}
    (v4 : Bool) (family : ∀ r ∈ report.records, r.group.isV4 = v4 ∧ r.IsOneFamily)
    (filled : report.records ≠ []) (fits : report.encodedLength ≤ config.maxReportLength) :
    report.Deliverable config := by
  obtain ⟨first, rest, hrecords⟩ := List.exists_cons_of_ne_nil filled
  have hfirst := (family first (by simp [hrecords])).1
  have all (a : Address) (ha : a.isV4 = v4) : report.OfFamily a := by
    intro r hr b hb
    obtain ⟨group, sources⟩ := family r hr
    rw [ha]
    rcases List.mem_cons.1 hb with rfl | hb
    · exact group
    · exact (sources b hb).trans group
  have reporter : (config.reporter first.group.isV4).isV4 = v4 :=
    (config.isV4_reporter _).trans hfirst
  obtain ⟨packet, message, encoded, decoded, -, carried, length, -⟩ := exists_encode_eq
    (all _ reporter) (Nat.le_trans fits (Config.maxReportLength_of_problem accepted).2)
  exact ⟨first, rest, packet, message, hrecords, all _ hfirst, encoded, decoded, carried,
    length ▸ fits⟩

end Report

namespace Listener

variable {l : Listener}

theorem deliverable_parts (accepted : l.config.problem = none) {records : List Record} (v4 : Bool)
    (family : ∀ r ∈ records, r.group.isV4 = v4 ∧ r.IsOneFamily) :
    ∀ part ∈ l.parts records, part.Deliverable l.config := by
  intro part hpart
  have room := (Config.maxReportLength_of_problem accepted).1
  obtain ⟨filled, fits⟩ := Report.splitToFit_fits room part hpart
  refine Report.deliverable_of_fits accepted v4 (fun r hr => ?_) filled fits
  obtain ⟨r', hr', group, sources⟩ := Report.sources_splitToFit hpart hr
  obtain ⟨v4', oneFamily⟩ := family r' hr'
  exact ⟨group ▸ v4', fun s hs => group ▸ oneFamily s (sources hs)⟩

theorem deliverable_generalResponse (accepted : l.config.problem = none) (tidy : l.Tidy) :
    ∀ part ∈ l.generalResponse, part.Deliverable l.config := by
  have family (v4 : Bool) : ∀ r ∈ (l.groups.filterMap GroupState.currentState).filter
      (fun r => r.group.isV4 == v4), r.group.isV4 = v4 ∧ r.IsOneFamily := by
    intro r hr
    obtain ⟨hr, same⟩ := List.mem_filter.1 hr
    obtain ⟨g, hg, current⟩ := List.mem_filterMap.1 hr
    exact ⟨by simpa using same, ((tidy.sound g hg).currentState current).2⟩
  intro part hpart
  simp only [generalResponse, List.partition_eq_filter_filter, List.mem_append] at hpart
  rcases hpart with hpart | hpart
  · exact deliverable_parts accepted true (family true) part (by simpa using hpart)
  · exact deliverable_parts accepted false (family false) part
      (by simpa [Function.comp_def] using hpart)

theorem deliverable_report (accepted : l.config.problem = none) (tidy : l.Tidy)
    (asked : l.AskedInFamily) (job : ReportJob) :
    ∀ part ∈ (l.report job).2.1, part.Deliverable l.config := by
  intro part hpart
  unfold report at hpart
  split at hpart
  · nomatch hpart
  · split at hpart
    · exact deliverable_generalResponse accepted tidy part hpart
    · next group =>
      dsimp only at hpart
      unfold groupResponse at hpart
      split at hpart
      · nomatch hpart
      · next g known =>
        split at hpart
        · nomatch hpart
        · next sources hasked =>
          refine deliverable_parts accepted g.group.isV4 (fun r hr => ?_) part hpart
          obtain ⟨group, family⟩ := (tidy.sound_of_get? known).response
            (asked.of_get? known sources hasked) (Option.mem_toList.1 hr)
          exact ⟨group ▸ rfl, family⟩
    · next group =>
      unfold changeReport at hpart
      split at hpart
      · nomatch hpart
      · next g known =>
        obtain rfl := Groups.group_of_get? known
        split at hpart
        · nomatch hpart
        · next change pending =>
          have reports : part ∈ l.parts (change.records g.group g.filter) := by
            dsimp only at hpart
            split at hpart <;> exact hpart
          refine deliverable_parts accepted g.group.isV4 (fun r hr => ?_) part reports
          obtain ⟨group, family⟩ := (tidy.sound_of_get? known).changeRecords pending hr
          exact ⟨group ▸ rfl, family⟩

/-- **What an alarm hands out is deliverable.** -/
theorem deliverable_begin (accepted : l.config.problem = none) (tidy : l.Tidy)
    (asked : l.AskedInFamily) {run : Nat} {job : ReportJob} {f : Firing}
    (h : (l.begin run job).2 = some f) : ∀ part ∈ f.reports, part.Deliverable l.config := by
  unfold begin at h
  split at h
  · nomatch h
  · next alarm _ =>
    obtain rfl := Option.some.inj h
    have config : (({ l with timers := l.timers.setPhase run .acting }).putAlarm job alarm).config =
        l.config := config_putAlarm _ _
    have handedOut := deliverable_report
      (l := ({ l with timers := l.timers.setPhase run .acting }).putAlarm job alarm)
      (by rw [config]; exact accepted) ((tidy.timers _).putAlarm _ _)
      ((asked.timers _).putAlarm _ _) job
    rwa [config] at handedOut

end Listener

namespace Reporting

open Listener (Event)

/-- The records are such that only deliverable reports are handed out, and only such ones are being
sent. -/
structure Delivers (config : Config) (r : Reporting) : Prop where
  settings : r.listener.config = config
  tidy : r.listener.Tidy
  asked : r.listener.AskedInFamily
  firings : ∀ f ∈ r.firings, ∀ report ∈ f.reports, report.Deliverable config

variable {config : Config} {r : Reporting}

theorem Delivers.start (config : Config) : (start config).Delivers config where
  settings := rfl
  tidy := .start config
  asked _ hg := nomatch hg
  firings _ hf := nomatch hf

/-- Every event leaves it so, if queries are read from packets. -/
theorem Delivers.react (accepted : config.problem = none) (h : r.Delivers config) {event : Event}
    (queries : ∀ now random q, event = .query now random q →
      ∃ packet, Query.decode packet = .ok q) :
    (r.react event).Delivers config := by
  have settings : (r.listener.react event).1.config = config := by
    rw [← h.settings]
    by_cases shutdown : event = .shutdown
    · rw [shutdown]
      rfl
    · exact (Listener.react_continues shutdown).config
  have tidy := h.tidy.react event
  cases event with
  | call now group c =>
    refine ⟨settings, tidy, ?_, h.firings⟩
    cases success : r.listener.call now group c with
    | error e => simpa [Reporting.react, Listener.react, success, Except.toOption] using h.asked
    | ok l' =>
      simpa [Reporting.react, Listener.react, success, Except.toOption] using
        h.asked.call h.tidy success
  | query now random q =>
    refine ⟨settings, tidy, h.asked.query now random ?_, h.firings⟩
    -- a packet asks for sources of its own family only
    obtain ⟨packet, read⟩ := queries now random q rfl
    exact Query.sameFamily_of_decode read
  | cancelPending => exact ⟨settings, tidy, .cancelPending _, h.firings⟩
  | shutdown =>
    refine ⟨settings, tidy, fun g hg => ?_, h.firings⟩
    cases hg
  | begin run job =>
    simp only [Reporting.react]
    split
    · refine ⟨settings, tidy, h.asked.begin run job, fun f hf => ?_⟩
      rcases List.mem_append.1 hf with hf | hf
      · exact h.firings f hf
      · have accepted' : r.listener.config.problem = none := by rw [h.settings]; exact accepted
        have new := Listener.deliverable_begin accepted' h.tidy h.asked (Option.mem_toList.1 hf)
        rwa [h.settings] at new
    · exact h
  | finish f now =>
    simp only [Reporting.react]
    split
    · exact ⟨settings, tidy, h.asked.finish f now, fun f hf => h.firings f (List.mem_filter.1 hf).1⟩
    · exact h

/-- **Every report that is handed out is deliverable.** With settings that can be used, and queries
that were read from packets, whatever the events: each report of a firing, be it a response to
queries about a group, a response to general queries or the report of a change, is not empty and
about one family, its packet is written and read back as the same report, and the message in it is
not longer than the settings allow. -/
theorem reports_deliverable (config : Config) (accepted : config.problem = none)
    (events : List Event) (queries : ∀ now random q, .query now random q ∈ events →
      ∃ packet, Query.decode packet = .ok q) :
    ∀ f ∈ (run config events).firings, ∀ report ∈ f.reports, report.Deliverable config := by
  have delivers : (run config events).Delivers config :=
    List.foldlRecOn events react (.start config) fun _ h event mem =>
      h.react accepted fun now random q heq => queries now random q (heq ▸ mem)
  exact delivers.firings

/-- The packet of an IGMPv3 query about the source 192.0.2.7 of the group 239.1.1.1. -/
def sourceQuery : Bytes :=
  [0x46, 192, 0, 40, 0, 0, 0, 0, 1, 2, 114, 12, 192, 0, 2, 1, 239, 1, 1, 1, 0x94, 4, 0, 0,
    0x11, 10, 60, 234, 239, 1, 1, 1, 0, 0, 0, 1, 192, 0, 2, 7]

/-- The response to a query about a source. -/
theorem reports_deliverable_sourceQuery :
    let group := Address.ofOctets 239 1 1 1
    let source := Address.ofOctets 192 0 2 7
    let query : Query := ⟨some group, [source], .ofSeconds 1, false, none, none⟩
    let events : List Event :=
      [.call 0 group (.join .allSources), .query 0 0 query, .begin 1 (.query group)]
    let report : Report := ⟨[⟨.isInclude, group, [source]⟩]⟩
    ⟨1, .query group, [report], none⟩ ∈ (run Config.quick events).firings ∧
      report.Deliverable Config.quick := by
  intro group source query events report
  have sent : ⟨1, .query group, [report], none⟩ ∈ (run Config.quick events).firings := by decide
  have read : Query.decode sourceQuery = .ok query := by decide +kernel
  have queries : ∀ now random q, .query now random q ∈ events →
      ∃ packet, Query.decode packet = .ok q := by
    intro now random q hq
    obtain ⟨-, -, rfl⟩ : now = 0 ∧ random = 0 ∧ q = query := by simpa [events] using hq
    exact ⟨sourceQuery, read⟩
  exact ⟨sent, reports_deliverable Config.quick (by decide) events queries _ sent _ (by simp)⟩

end Reporting

end MulticastTunnel

/-
# When conditions transition

A condition keeps the time of its last transition as long as its status, reason and message stay
the same.  `DiscoveryTrusted` has two writers.  While discovery fails, a discovery job stores it as
false because of "DiscoveryFailed", and a Reconcile, which reads the outcome back from the status,
as false because of "DiscoveryUntrusted".  An outage of any length is one transition, but in the
status it is one more with every job that is not of the kind of the last one.

* `transitions_kept_iff`: after one failing discovery job and one Reconcile, no transition time moves
  exactly as long as the writer does not change, or changes within one second.
* `alternation_transitions`: a discovery job, a Reconcile and a discovery job with one outcome, and
  three transitions.
-/
import AuroraOperator.Controller.Freeze
import AuroraOperator.Controller.MonitorReport

namespace AuroraOperator

namespace Controller

open Planner Render Program

/-! ## 1. One condition -/

def verdictOf (c : Condition) : Verdict := ⟨c.status, c.reason, c.message⟩

/-- The time of the last transition of a condition. -/
def transitionTime (type : ConditionType) (w : World) : Option Int :=
  (storedCondition type w.stored.resource.status).map (·.lastTransitionTime)

def TransitionsKept (w w' : World) : Prop :=
  ∀ type, transitionTime type w' = transitionTime type w

@[simp] theorem verdictOf_conditionWithTransition (previous : List Condition) (type : ConditionType)
    (verdict : Verdict) (now : Int) :
    verdictOf (conditionWithTransition previous type verdict now) = verdict := by
  unfold conditionWithTransition
  dsimp only
  split
  · rfl
  · split <;> rfl

theorem conditionWithTransition_time {previous : List Condition} {type : ConditionType}
    {old : Condition} (h : previous.find? (·.type = type) = some old) (verdict : Verdict) (now : Int) :
    (conditionWithTransition previous type verdict now).lastTransitionTime
      = if verdictOf old = verdict then old.lastTransitionTime else now := by
  unfold conditionWithTransition
  dsimp only
  rw [h]
  cases verdict with
  | mk status reason message =>
    simp only [verdictOf, Verdict.mk.injEq]
    split <;> rfl

/-- A stored time has been cut to whole seconds. -/
theorem storedCondition_whole {stored : StoredResource} {type : ConditionType} {c : Condition}
    (h : storedCondition type stored.resource.status = some c) : c.marshal = c := by
  have hconditions : stored.resource.status.conditions.map Condition.marshal
      = stored.resource.status.conditions := congrArg Status.conditions stored.canonical
  exact List.map_inj_left.mp (hconditions.trans (List.map_id _).symm) c
    (List.mem_of_find?_eq_some h)

/-- **One condition, rewritten.**  Its transition time stays when its verdict does, or when it moves
within one second. -/
theorem transitionTime_iff {w w' : World} {status : Status} {type : ConditionType} {old : Condition}
    {verdict : Verdict} {now : Int} (hold : storedCondition type w.stored.resource.status = some old)
    (hstored : w'.stored = w.stored.updateStatus status)
    (hnew : storedCondition type status = some (conditionWithTransition
      w.stored.resource.status.conditions type verdict now)) :
    transitionTime type w' = transitionTime type w ↔
      verdictOf old = verdict ∨ old.lastTransitionTime = wholeSeconds now := by
  have hwhole : wholeSeconds old.lastTransitionTime = old.lastTransitionTime :=
    congrArg Condition.lastTransitionTime (storedCondition_whole hold)
  have htime := conditionWithTransition_time hold verdict now
  have hnow : transitionTime type w' = some (wholeSeconds
      (if verdictOf old = verdict then old.lastTransitionTime else now)) := by
    rw [transitionTime, hstored, storedCondition_updateStatus, hnew, ← htime]
    rfl
  rw [hnow, transitionTime, hold, Option.map_some, Option.some.injEq]
  by_cases hsame : verdictOf old = verdict
  · simp [hsame, hwhole]
  · simp [hsame, eq_comm]

/-! ## 2. The list as a whole -/

/-- The list has one condition of each type. -/
def ConditionsDistinct (conditions : List Condition) : Prop := (conditions.map (·.type)).Nodup

theorem map_type_replaceCondition (c : Condition) (previous : List Condition) :
    (replaceCondition c previous).map (·.type)
      = if c.type ∈ previous.map (·.type) then previous.map (·.type)
        else previous.map (·.type) ++ [c.type] := by
  induction previous with
  | nil => simp [replaceCondition]
  | cons old rest ih =>
    unfold replaceCondition
    by_cases h : old.type = c.type
    · simp [h]
    · rw [if_neg h, List.map_cons, ih]
      by_cases hmem : c.type ∈ rest.map (·.type) <;> simp [hmem, Ne.symm h]

theorem ConditionsDistinct.replace {previous : List Condition} (h : ConditionsDistinct previous)
    (c : Condition) : ConditionsDistinct (replaceCondition c previous) := by
  unfold ConditionsDistinct at h ⊢
  rw [map_type_replaceCondition]
  split
  · exact h
  · rename_i hnew
    exact List.nodup_append.mpr ⟨h, List.nodup_singleton _, by
      rintro a ha b hb rfl
      exact hnew (List.mem_singleton.mp hb ▸ ha)⟩

theorem conditionsDistinct_conditionsFor (resource : PgBouncerAurora) (previous : List Condition)
    (discovery : DiscoveryResult) (plan : Output) (monitorErr : String) (now : Int) :
    ConditionsDistinct (conditionsFor resource previous discovery plan monitorErr now) := by
  have htypes : (conditionsFor resource previous discovery plan monitorErr now).map (·.type)
      = (verdictsFor resource discovery plan monitorErr).map (·.1) := by
    rw [conditionsFor_eq, List.map_map]
    exact List.map_congr_left fun entry _ => conditionWithTransition_type _ _ _ _
  rw [ConditionsDistinct, htypes]
  exact nodup_verdictTypes resource discovery plan monitorErr

theorem ConditionsDistinct.stored {status : Status} (h : ConditionsDistinct status.conditions)
    (stored : StoredResource) :
    ConditionsDistinct (stored.updateStatus status).resource.status.conditions := by
  rw [StoredResource.updateStatus_status, Status.marshal_conditions, ConditionsDistinct,
    List.map_map]
  exact h

theorem Move.conditionsDistinct {w w' : World} {step : Step} {events : List Event}
    (hmove : Move w step w' events) (h : ConditionsDistinct w.stored.resource.status.conditions) :
    ConditionsDistinct w'.stored.resource.status.conditions := by
  cases hmove with
  | discovered answered due commit stored =>
    rw [stored]
    refine ConditionsDistinct.stored ?_ _
    rw [discoveryCommit_conditions commit]
    exact h.replace _
  | monitored trusted commit stored =>
    rw [stored]
    refine ConditionsDistinct.stored ?_ _
    rw [(monitorCommit_eq_some.mp commit).2.2]
    exact conditionsDistinct_conditionsFor _ _ _ _ _ _
  | reconciled prepared cluster stored =>
    rw [stored]
    exact (conditionsDistinct_conditionsFor _ _ _ _ _ _).stored _
  | undiscovered unanswered stored | unmonitored stored | attempted stored | edited stored
  | moved stored => rw [stored]; exact h

/-- No run makes two conditions of one type. -/
theorem conditionsDistinct_reached (name : String) (spec : PgBouncerAuroraSpec) (cluster : Cluster)
    (steps : List Step) :
    ConditionsDistinct (reached name spec cluster steps).stored.resource.status.conditions := by
  have hstart : ConditionsDistinct
      (World.initial name spec cluster).stored.resource.status.conditions := List.nodup_nil
  exact Machine.invariant (I := fun w : World =>
    ConditionsDistinct w.stored.resource.status.conditions)
    (fun w step h => (next_move w step).conditionsDistinct h) hstart steps

/-! ## 3. Two writers -/

/-- The step is a Reconcile, or a discovery job that fails with the text; no cached topology
stands in for its result. -/
def FailsWith (text : String) (w : World) : Step → Prop
  | .discover discover _ _ _ =>
    (effectiveDiscovery discover w.stored.resource).1.trusted = false ∧
      (effectiveDiscovery discover w.stored.resource).1.reason = text
  | .reconcile _ _ => True
  | _ => False

/-- The step commits a status. -/
def World.commits (w : World) : Step → Bool
  | .discover discover checkedAt now faults =>
    answer (runDiscoveryJob discover checkedAt now) (w.meet faults)
  | .reconcile now faults =>
    returns (fun _ _ => true) (reconcile .scheduled now) (w.meet faults)
  | _ => false

/-- The reason for `DiscoveryTrusted` being false that the writer behind the step gives. -/
def writerReason : Step → String
  | .discover _ _ _ _ => "DiscoveryFailed"
  | _ => "DiscoveryUntrusted"

/-- The time the step writes. -/
def writerTime : Step → Int
  | .discover _ _ now _ => now
  | .monitor _ _ now _ => now
  | .reconcile now _ => now
  | _ => 0

/-- `DiscoveryTrusted` is stored with the reason that the step would give, or had its last
transition in the same second. -/
def SameWriter (w : World) (step : Step) : Prop :=
  ∃ c ∈ storedCondition .discoveryTrusted w.stored.resource.status,
    c.reason = writerReason step ∨ c.lastTransitionTime = wholeSeconds (writerTime step)

instance (w : World) (step : Step) : Decidable (SameWriter w step) :=
  inferInstanceAs (Decidable (∃ c ∈ storedCondition .discoveryTrusted w.stored.resource.status, _))

/-- The text of a failure once it has been read back from the status. -/
def cachedText (text : String) : String := if text = "" then "using cached discovery" else text

/-- What a Reconcile works on while discovery fails. -/
def untrustedResult (text : String) : DiscoveryResult :=
  { trusted := false, reason := cachedText text }

/-- The verdict on `DiscoveryTrusted` of the writer behind the step. -/
def writerVerdict (text : String) (step : Step) : Verdict :=
  match step with
  | .discover _ _ _ _ => ⟨.false, writerReason step, text⟩
  | _ => ⟨.false, writerReason step, cachedText text⟩

/-- `DiscoveryTrusted` is false, as one of the two writers puts it. -/
structure ReportedDown (text : String) (w : World) : Prop where
  distinct : ConditionsDistinct w.stored.resource.status.conditions
  discovery : ∃ c, storedCondition .discoveryTrusted w.stored.resource.status = some c ∧
    (verdictOf c = ⟨.false, "DiscoveryFailed", text⟩ ∨
      verdictOf c = ⟨.false, "DiscoveryUntrusted", cachedText text⟩)

/-- And the other conditions are as the next Reconcile will put them. -/
structure SettledDown (text : String) (w : World) : Prop extends ReportedDown text w where
  others : ∀ type verdict, type ≠ .discoveryTrusted →
    (type, verdict) ∈ verdictsFor w.stored.resource (untrustedResult text)
      (frozenPlan w.stored.resource) "" →
    ∃ c, storedCondition type w.stored.resource.status = some c ∧ verdictOf c = verdict

section TwoWriters

variable {text : String} {w : World}

theorem find?_of_distinct {conditions : List Condition} (h : ConditionsDistinct conditions)
    {c : Condition} (hc : conditions.find? (·.type = .discoveryTrusted) = some c) :
    conditions.find? (fun c => c.type = .discoveryTrusted && c.message ≠ "")
      = if c.message = "" then none else some c := by
  induction conditions with
  | nil => cases hc
  | cons old rest ih =>
    obtain ⟨hnew, hrest⟩ := List.nodup_cons.mp h
    by_cases htype : old.type = .discoveryTrusted
    · rw [List.find?_cons_of_pos (by simpa using htype)] at hc
      cases hc
      by_cases hmessage : c.message = ""
      · -- a second one of the type would be a second one of the type
        rw [List.find?_cons_of_neg (by simp [hmessage]), if_pos hmessage, List.find?_eq_none]
        intro c' hc' htest
        rw [Bool.and_eq_true, decide_eq_true_eq] at htest
        exact hnew (List.mem_map.mpr ⟨c', hc', htest.1.trans htype.symm⟩)
      · rw [List.find?_cons_of_pos (by simp [htype, hmessage]), if_neg hmessage]
    · rw [List.find?_cons_of_neg (by simpa using htype)] at hc
      rw [List.find?_cons_of_neg (by simp [htype])]
      exact ih hrest hc

theorem ReportedDown.untrusted (h : ReportedDown text w) :
    lastDiscoveryTrusted w.stored.resource = false := by
  obtain ⟨c, hc, hverdict⟩ := h.discovery
  have hstatus : c.status = .false := by
    rcases hverdict with hverdict | hverdict <;> exact congrArg Verdict.status hverdict
  rw [lastDiscoveryTrusted, discoveryVerdict,
    show w.stored.resource.status.conditions.find? (·.type = .discoveryTrusted) = some c from hc]
  simp [hstatus]

/-- Read back, the outcome is the same from either writer. -/
theorem ReportedDown.cachedDiscovery (h : ReportedDown text w) :
    cachedDiscovery w.stored.resource = untrustedResult text := by
  have hmessage : lastDiscoveryMessage w.stored.resource = cachedText text := by
    obtain ⟨c, hc, hverdict⟩ := h.discovery
    rw [lastDiscoveryMessage, find?_of_distinct h.distinct hc]
    rcases hverdict with hverdict | hverdict
    · have htext : c.message = text := congrArg Verdict.message hverdict
      by_cases hempty : text = "" <;> simp [htext, hempty, cachedText]
    · have htext : c.message = cachedText text := congrArg Verdict.message hverdict
      have hne : cachedText text ≠ "" := by
        unfold cachedText
        split
        · decide
        · assumption
      simp [htext, hne]
  rw [Controller.cachedDiscovery, h.untrusted, hmessage]
  rfl

/-- What the verdicts depend on stays while discovery fails. -/
theorem verdictsFor_congr {resource resource' : PgBouncerAurora} {discovery : DiscoveryResult}
    (hspec : resource'.spec = resource.spec)
    (hinstances : resource'.status.instances = resource.status.instances)
    (hmembership : resource'.status.lastAppliedMembership = resource.status.lastAppliedMembership) :
    verdictsFor resource' discovery (frozenPlan resource') ""
      = verdictsFor resource discovery (frozenPlan resource) "" := by
  have hplan : frozenPlan resource' = frozenPlan resource := by
    rw [frozenPlan, hinstances, hmembership]
    rfl
  have hzones (plan : Output) : zoneAwareConflictCondition resource' plan
      = zoneAwareConflictCondition resource plan := by
    have hmessages : zoneConflictMessages resource' = zoneConflictMessages resource := by
      funext topologyKey entry
      simp only [zoneConflictMessages, hspec]
    unfold zoneAwareConflictCondition hasTopologySpreadOnKey
    rw [hmessages, hspec]
  rw [hplan, verdictsFor, hzones]
  rfl

theorem exists_verdict (type : ConditionType) (resource : PgBouncerAurora)
    (discovery : DiscoveryResult) (plan : Output) (monitorErr : String) :
    ∃ verdict, (type, verdict) ∈ verdictsFor resource discovery plan monitorErr := by
  cases type <;> exact ⟨_, by simp [verdictsFor]; rfl⟩

theorem effectiveDiscovery_failed {discover : Discover} {resource : PgBouncerAurora}
    (h : (effectiveDiscovery discover resource).1.trusted = false) :
    (effectiveDiscovery discover resource).2 = true := by
  rcases effectiveDiscovery_cases discover resource with ⟨d, -, ht, heq⟩ | ⟨-, hfailed, -⟩
  · rw [heq, ht] at h
    cases h
  · exact hfailed

/-- **What a failing discovery job writes.** -/
theorem FailsWith.discovered {discover : Discover} {checkedAt now : Int}
    {faults : List (Option Fault)} {status : Status}
    (hfails : FailsWith text w (.discover discover checkedAt now faults))
    (hcommit : (discoveryWork discover w.stored.resource now).commit w.stored.resource
      = some status) :
    status.conditions = replaceCondition (conditionWithTransition
      w.stored.resource.status.conditions .discoveryTrusted ⟨.false, "DiscoveryFailed", text⟩ now)
      w.stored.resource.status.conditions := by
  rw [discoveryCommit_conditions hcommit]
  have hfailed := effectiveDiscovery_failed hfails.1
  simp only [discoveryOnlyConditions, discoveryWork, hfailed, hfails.1, hfails.2, flag]
  rfl

/-- **What a Reconcile writes while discovery fails.** -/
theorem ReportedDown.reconciled (h : ReportedDown text w) {now : Int} {faults : List (Option Fault)}
    {p : Prepared} {w₁ : World} (hp : PrepareSpec now (w.meet faults) p w₁) :
    (p.status w.stored.resource).conditions = conditionsFor w.stored.resource
      w.stored.resource.status.conditions (untrustedResult text) (frozenPlan w.stored.resource) ""
      now := by
  have hcached := h.cachedDiscovery
  have hplan : p.plan = frozenPlan w.stored.resource := by
    rw [hp.plan]
    exact finalPlan_eq_frozenPlan (by
      rw [show (w.meet faults).stored.resource = w.stored.resource from rfl, hcached]
      rfl)
  have hevaluation : p.evaluation.discovery = untrustedResult text := by
    rw [hp.evaluation]
    exact hcached
  have herror : p.evaluation.monitorErr = "" := by
    rw [hp.evaluation]
    rfl
  have hconditions : (p.status w.stored.resource).conditions
      = conditionsFor p.resource w.stored.resource.status.conditions p.evaluation.discovery p.plan
          p.evaluation.monitorErr p.now := rfl
  rw [hconditions, hp.resource, hevaluation, hplan, herror, hp.time]
  rfl

/-- A written verdict is stored. -/
theorem storedCondition_written {stored : StoredResource} {status : Status} {type : ConditionType}
    {previous : List Condition} {verdict : Verdict} {now : Int}
    (h : storedCondition type status = some (conditionWithTransition previous type verdict now)) :
    ∃ c, storedCondition type (stored.updateStatus status).resource.status = some c ∧
      verdictOf c = verdict := by
  refine ⟨_, by rw [storedCondition_updateStatus, h]; rfl, ?_⟩
  exact verdictOf_conditionWithTransition previous type verdict now

/-- What is not written stays, time and all. -/
theorem storedCondition_unwritten {stored : StoredResource} {status : Status} {type : ConditionType}
    (h : storedCondition type status = storedCondition type stored.resource.status) :
    storedCondition type (stored.updateStatus status).resource.status
      = storedCondition type stored.resource.status := by
  rw [storedCondition_updateStatus, h]
  cases hc : storedCondition type stored.resource.status with
  | none => rfl
  | some c => rw [Option.map_some, storedCondition_whole hc]

/-- The reason tells the two writers apart. -/
theorem verdictOf_eq_iff {c : Condition} (h : verdictOf c = ⟨.false, "DiscoveryFailed", text⟩ ∨
    verdictOf c = ⟨.false, "DiscoveryUntrusted", cachedText text⟩) (step : Step) :
    verdictOf c = writerVerdict text step ↔ c.reason = writerReason step := by
  constructor
  · intro hverdict
    have hreason : c.reason = (writerVerdict text step).reason := congrArg Verdict.reason hverdict
    cases step <;> exact hreason
  · intro hreason
    rcases h with h | h
    · have hfailed : writerReason step = "DiscoveryFailed" :=
        hreason.symm.trans (congrArg Verdict.reason h)
      cases step with
      | discover => exact h
      | _ => exact absurd hfailed (by simp [writerReason])
    · have huntrusted : writerReason step = "DiscoveryUntrusted" :=
        hreason.symm.trans (congrArg Verdict.reason h)
      cases step with
      | discover => exact absurd huntrusted (by simp [writerReason])
      | _ => exact h

/-- **One committed step**, when it leaves the times of all other conditions. -/
theorem ReportedDown.kept_iff (h : ReportedDown text w) {w' : World} {status : Status} {step : Step}
    (hstored : w'.stored = w.stored.updateStatus status)
    (hnew : storedCondition .discoveryTrusted status = some (conditionWithTransition
      w.stored.resource.status.conditions .discoveryTrusted (writerVerdict text step)
      (writerTime step)))
    (hothers : ∀ type, type ≠ .discoveryTrusted →
      transitionTime type w' = transitionTime type w) :
    TransitionsKept w w' ↔ SameWriter w step := by
  obtain ⟨c, hc, hverdict⟩ := h.discovery
  have hkept := transitionTime_iff hc hstored hnew
  rw [verdictOf_eq_iff hverdict] at hkept
  constructor
  · intro hall
    exact ⟨c, hc, hkept.mp (hall .discoveryTrusted)⟩
  · rintro ⟨c', hc', hsame⟩ type
    obtain rfl : c = c' := Option.some.inj (hc.symm.trans hc')
    by_cases hne : type = .discoveryTrusted
    · subst hne
      exact hkept.mpr hsame
    · exact hothers type hne

section Discovered

variable {discover : Discover} {checkedAt now : Int} {faults : List (Option Fault)}
  {status : Status} {w' : World}

theorem FailsWith.storedCondition
    (hfails : FailsWith text w (.discover discover checkedAt now faults))
    (hcommit : (discoveryWork discover w.stored.resource now).commit w.stored.resource
      = some status) :
    storedCondition .discoveryTrusted status = some (conditionWithTransition
      w.stored.resource.status.conditions .discoveryTrusted ⟨.false, "DiscoveryFailed", text⟩
      now) := by
  rw [Controller.storedCondition, hfails.discovered hcommit]
  have hfind := find?_replaceCondition (conditionWithTransition w.stored.resource.status.conditions
    .discoveryTrusted ⟨.false, "DiscoveryFailed", text⟩ now) w.stored.resource.status.conditions
  rw [conditionWithTransition_type] at hfind
  exact hfind

theorem ReportedDown.of_discovered
    (hdistinct : ConditionsDistinct w.stored.resource.status.conditions)
    (hfails : FailsWith text w (.discover discover checkedAt now faults))
    (hcommit : (discoveryWork discover w.stored.resource now).commit w.stored.resource
      = some status)
    (hstored : w'.stored = w.stored.updateStatus status) : ReportedDown text w' := by
  refine ⟨?_, ?_⟩
  · rw [hstored]
    refine ConditionsDistinct.stored ?_ _
    rw [hfails.discovered hcommit]
    exact hdistinct.replace _
  · obtain ⟨c, hc, hverdict⟩ :=
      @storedCondition_written w.stored _ _ _ _ _ (hfails.storedCondition hcommit)
    rw [hstored]
    exact ⟨c, hc, Or.inl hverdict⟩

/-- The other conditions do not notice. -/
theorem SettledDown.of_discovered (h : SettledDown text w)
    (hfails : FailsWith text w (.discover discover checkedAt now faults))
    (hcommit : (discoveryWork discover w.stored.resource now).commit w.stored.resource
      = some status)
    (hstored : w'.stored = w.stored.updateStatus status) : SettledDown text w' := by
  obtain ⟨hmembership, -, hinstances, -⟩ := discoveryCommit_frame hcommit
  refine ⟨ReportedDown.of_discovered h.distinct hfails hcommit hstored,
    fun type verdict hne hmem => ?_⟩
  rw [@verdictsFor_congr w.stored.resource _ _ (by rw [hstored]; rfl)
    (by rw [hstored]; exact hinstances) (by rw [hstored]; exact hmembership)] at hmem
  rw [hstored, storedCondition_unwritten (discoveryCommit_condition hcommit hne.symm)]
  exact h.others type verdict hne hmem

theorem ReportedDown.discovered_kept_iff (h : ReportedDown text w)
    (hfails : FailsWith text w (.discover discover checkedAt now faults))
    (hcommit : (discoveryWork discover w.stored.resource now).commit w.stored.resource
      = some status)
    (hstored : w'.stored = w.stored.updateStatus status) :
    TransitionsKept w w' ↔ SameWriter w (.discover discover checkedAt now faults) := by
  refine h.kept_iff hstored (hfails.storedCondition hcommit) fun type hne => ?_
  rw [transitionTime, hstored, storedCondition_unwritten (discoveryCommit_condition hcommit hne.symm)]
  rfl

end Discovered

section Reconciled

variable {now : Int} {faults : List (Option Fault)} {p : Prepared} {w₁ w' : World}

theorem ReportedDown.storedCondition (h : ReportedDown text w)
    (hp : PrepareSpec now (w.meet faults) p w₁)
    {type : ConditionType} {verdict : Verdict}
    (hmem : (type, verdict) ∈ verdictsFor w.stored.resource (untrustedResult text)
      (frozenPlan w.stored.resource) "") :
    storedCondition type (p.status w.stored.resource) = some (conditionWithTransition
      w.stored.resource.status.conditions type verdict now) := by
  rw [Controller.storedCondition, h.reconciled hp]
  exact find?_conditionsFor _ _ hmem

/-- The verdict of a Reconcile on a failing discovery. -/
theorem untrusted_mem_verdictsFor (resource : PgBouncerAurora) (plan : Output) :
    (ConditionType.discoveryTrusted, (⟨.false, "DiscoveryUntrusted", cachedText text⟩ : Verdict))
      ∈ verdictsFor resource (untrustedResult text) plan "" := by
  simp [verdictsFor, flag, untrustedResult]

/-- After a Reconcile the conditions are as the next one will put them. -/
theorem SettledDown.of_reconciled (h : ReportedDown text w)
    (hp : PrepareSpec now (w.meet faults) p w₁)
    (hstored : w'.stored = w.stored.updateStatus (p.status w.stored.resource)) :
    SettledDown text w' := by
  obtain ⟨hretained, -⟩ := prepared_retained hp h.untrusted
  have hinstances : w'.stored.resource.status.instances = w.stored.resource.status.instances := by
    rw [hstored]
    exact hretained.instances
  have hmembership : w'.stored.resource.status.lastAppliedMembership
      = w.stored.resource.status.lastAppliedMembership := by
    rw [hstored]
    exact hretained.membership
  refine ⟨⟨?_, ?_⟩, fun type verdict hne hmem => ?_⟩
  · rw [hstored]
    refine ConditionsDistinct.stored ?_ _
    rw [h.reconciled hp]
    exact conditionsDistinct_conditionsFor _ _ _ _ _ _
  · obtain ⟨c, hc, hverdict⟩ := @storedCondition_written w.stored _ _ _ _ _
      (h.storedCondition hp (untrusted_mem_verdictsFor _ _))
    rw [hstored]
    exact ⟨c, hc, Or.inr hverdict⟩
  · rw [@verdictsFor_congr w.stored.resource _ _ (by rw [hstored]; rfl) hinstances
      hmembership] at hmem
    rw [hstored]
    exact storedCondition_written (h.storedCondition hp hmem)

theorem SettledDown.reconciled_kept_iff (h : SettledDown text w)
    (hp : PrepareSpec now (w.meet faults) p w₁)
    (hstored : w'.stored = w.stored.updateStatus (p.status w.stored.resource)) :
    TransitionsKept w w' ↔ SameWriter w (.reconcile now faults) := by
  refine h.kept_iff hstored (h.storedCondition hp (untrusted_mem_verdictsFor _ _)) fun type hne => ?_
  -- every other condition is rewritten with the verdict it has
  obtain ⟨verdict, hmem⟩ := exists_verdict type w.stored.resource (untrustedResult text)
    (frozenPlan w.stored.resource) ""
  obtain ⟨old, hold, hsame⟩ := h.others type verdict hne hmem
  exact (transitionTime_iff hold hstored (h.storedCondition hp hmem)).mpr (Or.inl hsame)

end Reconciled

end TwoWriters

/-! ## 4. Whole runs -/

section Runs

variable {text : String} {w : World}

theorem SettledDown.same (h : SettledDown text w) {w' : World} (hstored : w'.stored = w.stored) :
    SettledDown text w' := by
  refine ⟨⟨?_, ?_⟩, ?_⟩
  · rw [hstored]
    exact h.distinct
  · rw [hstored]
    exact h.discovery
  · rw [hstored]
    exact h.others

theorem TransitionsKept.of_stored {w' : World} (h : w'.stored = w.stored) : TransitionsKept w w' := by
  intro type
  rw [transitionTime, h, transitionTime]

/-- **One step**: it leaves the status settled, and the times if it does not change the writer. -/
theorem SettledDown.next (h : SettledDown text w) {step : Step} (hfails : FailsWith text w step) :
    SettledDown text (w.next step) ∧
      (TransitionsKept w (w.next step) ↔ (w.commits step = true → SameWriter w step)) := by
  cases step with
  | discover discover checkedAt now faults =>
    rcases discover_cases w discover checkedAt now faults with
      ⟨hyes, -, status, hcommit, hstored⟩ | ⟨hno, hstored⟩
    · have hcommits : w.commits (.discover discover checkedAt now faults) = true := hyes
      refine ⟨h.of_discovered hfails hcommit hstored, ?_⟩
      rw [h.discovered_kept_iff hfails hcommit hstored]
      exact ⟨fun hsame _ => hsame, fun hsame => hsame hcommits⟩
    · have hcommits : w.commits (.discover discover checkedAt now faults) = false := hno
      refine ⟨h.same hstored, iff_of_true (TransitionsKept.of_stored hstored) ?_⟩
      simp [hcommits]
  | reconcile now faults =>
    rcases reconcile_cases w now faults with
      ⟨p, w', hrun, w₁, hp, -, hstored⟩ | ⟨e, w', hrun, hstored⟩
    · have hcommits : w.commits (.reconcile now faults) = true :=
        returns_iff.mpr ⟨p, w', hrun, rfl⟩
      refine ⟨SettledDown.of_reconciled h.toReportedDown hp hstored, ?_⟩
      rw [h.reconciled_kept_iff hp hstored]
      exact ⟨fun hsame _ => hsame, fun hsame => hsame hcommits⟩
    · have hcommits : w.commits (.reconcile now faults) = false := by
        simp [World.commits, returns, hrun]
      refine ⟨h.same hstored, iff_of_true (TransitionsKept.of_stored hstored) ?_⟩
      simp [hcommits]
  | monitor | editSpec | environment => exact hfails.elim

/-- The first cycle settles the status. -/
theorem settled_of_cycle (hdistinct : ConditionsDistinct w.stored.resource.status.conditions)
    {discover : Discover} {checkedAt now later : Int} {faults laterFaults : List (Option Fault)}
    (hfails : FailsWith text w (.discover discover checkedAt now faults))
    (hdiscovered : w.commits (.discover discover checkedAt now faults) = true)
    (hreconciled : (w.next (.discover discover checkedAt now faults)).commits
      (.reconcile later laterFaults) = true) :
    SettledDown text ((w.next (.discover discover checkedAt now faults)).next
      (.reconcile later laterFaults)) := by
  rcases discover_cases w discover checkedAt now faults with
    ⟨-, -, status, hcommit, hstored⟩ | ⟨hno, -⟩
  · have hdown := ReportedDown.of_discovered hdistinct hfails hcommit hstored
    rcases reconcile_cases (w.next (.discover discover checkedAt now faults)) later laterFaults with
      ⟨p, w', -, w₁, hp, -, hstored'⟩ | ⟨e, w', hrun, -⟩
    · exact SettledDown.of_reconciled hdown hp hstored'
    · obtain ⟨p, w₂, hok, -⟩ := returns_iff.mp hreconciled
      rw [hrun] at hok
      cases hok
  · rw [World.commits, hno] at hdiscovered
    cases hdiscovered

end Runs

/-- **Transition times, as long as discovery fails.**  A run reaches a state, a discovery job fails
and a Reconcile follows.  From there on, through any discovery jobs that fail the same way and any
Reconciles, no transition time changes exactly when no committed step changes the writer of
`DiscoveryTrusted`, except within the second of its last transition. -/
theorem transitions_kept_iff (name : String) (spec : PgBouncerAuroraSpec) (cluster : Cluster)
    (before : List Step) (text : String) (discover : Discover) (checkedAt now later : Int)
    (faults laterFaults : List (Option Fault)) (steps : List Step) :
    let w := reached name spec cluster before
    let discovered := w.next (.discover discover checkedAt now faults)
    let settled := discovered.next (.reconcile later laterFaults)
    FailsWith text w (.discover discover checkedAt now faults) →
    w.commits (.discover discover checkedAt now faults) = true →
    discovered.commits (.reconcile later laterFaults) = true →
    Machine.Along World.next (FailsWith text) settled steps →
    (Machine.Along World.next (fun w step => TransitionsKept w (w.next step)) settled steps ↔
      Machine.Along World.next (fun w step => w.commits step = true → SameWriter w step)
        settled steps) := by
  intro w discovered settled hfails hdiscovered hreconciled hsteps
  have hsettled : SettledDown text settled := settled_of_cycle
    (conditionsDistinct_reached name spec cluster before) hfails hdiscovered hreconciled
  exact Machine.Along.congr_along hsteps (fun w step h hfails => (h.next hfails).2)
    (fun w step h hfails => (h.next hfails).1) hsettled

/-- The first discovery job finds the writer, the later ones fail; one failure is enough. -/
def outageSpec : PgBouncerAuroraSpec := { discovery := { failureThreshold := 1 } }

def outageStart : List Step :=
  [.discover (fun _ => .ok { trusted := true, instances := [{ name := "a", role := .writer }] })
    (10 * second) (10 * second) []]

def failingDiscovery : Discover := fun _ => .ok { trusted := false, reason := "no rows" }

/-- A discovery job fails, and a Reconcile follows. -/
def outageSettled : World :=
  ((reached "db" outageSpec {} outageStart).next
    (.discover failingDiscovery (20 * second) (20 * second) [])).next (.reconcile (21 * second) [])

/-- Nothing changes but the writer, and every change of the writer counts as a transition. -/
theorem alternation_transitions :
    transitionTime .discoveryTrusted outageSettled = some (21 * second) ∧
    transitionTime .discoveryTrusted (outageSettled.next
      (.discover failingDiscovery (30 * second) (30 * second) [])) = some (30 * second) ∧
    transitionTime .discoveryTrusted ((outageSettled.next
      (.discover failingDiscovery (30 * second) (30 * second) [])).next
      (.reconcile (31 * second) [])) = some (31 * second) := by
  decide +kernel

/-- Reconciles alone leave the times. -/
theorem transitions_kept_by_reconciles :
    Machine.Along World.next (fun w step => TransitionsKept w (w.next step)) outageSettled
      [.reconcile (40 * second) [], .reconcile (50 * second) []] := by
  refine (transitions_kept_iff "db" outageSpec {} outageStart "no rows" failingDiscovery
    (20 * second) (20 * second) (21 * second) [] []
    [.reconcile (40 * second) [], .reconcile (50 * second) []] ?_ ?_ ?_ ?_).mpr ?_
  · exact ⟨by decide +kernel, by decide +kernel⟩
  · decide +kernel
  · decide +kernel
  · exact ⟨trivial, trivial, trivial⟩
  · refine ⟨fun _ => ?_, fun _ => ?_, trivial⟩
    · decide +kernel
    · decide +kernel

end Controller

end AuroraOperator

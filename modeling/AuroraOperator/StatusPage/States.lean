/-
# What a state on the status page says

The page reads a state off the conditions of a resource and its generations.  The conditions are
written by monitor jobs and Reconciles, all of them at once, and by discovery jobs, which replace
one; the observed generation is written by Reconciles alone.  Jobs, Reconciles and edits of the spec
interleave as in `Controller/Interleaving.lean`.

* `page_state_exact`: in any interleaving, each of the four states says one thing about the last
  commit of a monitor job or Reconcile and about the last Reconcile.  In particular `ready` means
  that everything was well there, and that a Reconcile has planned with the spec the resource has.

That the state turns on `Reconciled` at all makes no difference: whoever writes it as false writes
`Frozen` as true.
-/
import AuroraOperator.StatusPage
import AuroraOperator.Controller.Generations
import AuroraOperator.Controller.Transitions

namespace AuroraOperator

namespace StatusPage

open Controller Planner Program

/-! ## 1. Reports -/

/-- What all the conditions are computed from. -/
structure Report where
  resource : PgBouncerAurora
  discovery : DiscoveryResult
  plan : Output
  monitorErr : String

def Report.verdicts (r : Report) : List (ConditionType × Verdict) :=
  verdictsFor r.resource r.discovery r.plan r.monitorErr

/-- A monitor job reports on the fresh copy it commits to, a Reconcile on its snapshot. -/
def reports (s : Flight) : Turn → List Report
  | .commitMonitor faults =>
    ((s.world.lands MonitorWork.commit faults s.monitor).map fun work =>
      ⟨s.world.stored.resource, work.discovery, work.plan, work.monitorErr⟩).toList
  | .commitReconcile faults =>
    ((s.world.lands Prepared.commit faults s.reconcile).map fun p =>
      ⟨p.resource, p.evaluation.discovery, p.plan, p.evaluation.monitorErr⟩).toList
  | _ => []

/-- The operator with the commits and the reports so far, newest first. -/
abbrev reporting : (Flight × List Commit) × List Report → Turn →
    (Flight × List Commit) × List Report :=
  Machine.traced committed fun t turn => reports t.1 turn

/-- Nothing is wrong, as far as the report goes. -/
structure Report.AllWell (r : Report) : Prop where
  trusted : r.discovery.trusted = true
  monitored : r.monitorErr = ""
  unfrozen : r.plan.frozen = false
  backends : activePlanInstances r.plan.instances ≠ [] ∧
    ∀ entry ∈ activePlanInstances r.plan.instances, entry.healthy = true
  ready : ∀ role, ∃ member ∈ membersOf r.plan.membership role, ∃ entry,
    planByName (activePlanInstances r.plan.instances) member = some entry ∧ 0 < entry.readyReplicas
  matching : ∀ entry ∈ activePlanInstances r.plan.instances,
    containsText entry.reason "role mismatch" = false
  reasons : ∀ reason ∈ r.plan.reasons, reason = "reader fallback to writer"

/-! ## 2. The verdict on `Degraded` -/

section Degraded

variable (plan : Output)

theorem backendHealthy_iff : (backendHealthyCondition plan).status = .true ↔
    activePlanInstances plan.instances ≠ [] ∧
      ∀ entry ∈ activePlanInstances plan.instances, entry.healthy = true := by
  unfold backendHealthyCondition
  dsimp only
  split
  · rename_i hnone
    simp [List.length_eq_zero_iff.mp hnone]
  · rename_i hsome
    have hne : activePlanInstances plan.instances ≠ [] := fun h => hsome (by rw [h]; rfl)
    split
    · rename_i hunhealthy
      obtain ⟨entry, hentry, hbad⟩ : ∃ entry ∈ activePlanInstances plan.instances,
          entry.healthy = false := by
        rw [gt_iff_lt, List.length_map, List.length_pos_iff_exists_mem] at hunhealthy
        obtain ⟨entry, hentry⟩ := hunhealthy
        exact ⟨entry, (List.mem_filter.mp hentry).1, by simpa using (List.mem_filter.mp hentry).2⟩
      constructor
      · intro h
        cases h
      · rintro ⟨-, hall⟩
        rw [hall entry hentry] at hbad
        cases hbad
    · rename_i hhealthy
      refine ⟨fun _ => ⟨hne, fun entry hentry => ?_⟩, fun _ => rfl⟩
      by_contra hbad
      refine hhealthy ?_
      rw [gt_iff_lt, List.length_map, List.length_pos_iff_exists_mem]
      exact ⟨entry, List.mem_filter.mpr ⟨hentry, by simpa using hbad⟩⟩

theorem roleReady_iff (role : Role) : (roleReadyCondition plan role).status = .true ↔
    ∃ member ∈ membersOf plan.membership role, ∃ entry,
      planByName (activePlanInstances plan.instances) member = some entry ∧
        0 < entry.readyReplicas := by
  have hany : ((membersOf plan.membership role).any fun member =>
      (planByName (activePlanInstances plan.instances) member).any (·.readyReplicas > 0)) = true ↔
      ∃ member ∈ membersOf plan.membership role, ∃ entry,
        planByName (activePlanInstances plan.instances) member = some entry ∧
          0 < entry.readyReplicas := by
    simp only [List.any_eq_true, Option.any_eq_true, decide_eq_true_eq, gt_iff_lt]
  rw [← hany]
  unfold roleReadyCondition
  dsimp only
  split
  · rename_i hnone
    rw [List.length_eq_zero_iff.mp hnone]
    constructor
    · intro h
      split at h <;> cases h
    · intro h
      cases h
  · split
    · rename_i hready
      exact iff_of_true rfl hready
    · rename_i hready
      exact iff_of_false (fun h => by cases h) hready

theorem roleMismatchMessage_eq_empty : roleMismatchMessage plan = "" ↔
    ∀ entry ∈ activePlanInstances plan.instances,
      containsText entry.reason "role mismatch" = false := by
  have hnone : roleMismatchMessage plan = "" ↔
      (activePlanInstances plan.instances).filter
        (fun entry => containsText entry.reason "role mismatch") = [] := by
    unfold roleMismatchMessage
    dsimp only
    cases (activePlanInstances plan.instances).filter
        fun entry => containsText entry.reason "role mismatch" with
    | nil => exact iff_of_true rfl rfl
    | cons entry rest =>
      -- a message has at least the separator between the name and the reason
      refine iff_of_false (fun h => ?_) (List.cons_ne_nil _ _)
      have hin : containsText (joinStrings ((entry :: rest).map fun entry =>
          entry.name ++ ": " ++ entry.reason) "; ") (entry.name ++ ": " ++ entry.reason) = true :=
        containsText_joinStrings (List.mem_map_of_mem List.mem_cons_self)
      rw [h] at hin
      simp [containsText] at hin
  rw [hnone, List.filter_eq_nil_iff]
  simp only [Bool.not_eq_true]

variable {discovery : DiscoveryResult} {monitorErr roleMismatch : String}
  {backendHealthy writerReady readerReady : Verdict}

theorem degradedCondition_status :
    (degradedCondition discovery plan monitorErr backendHealthy writerReady readerReady
      roleMismatch).status = if discovery.trusted = true ∧ monitorErr = "" ∧ plan.frozen = false ∧
        backendHealthy.status = .true ∧ writerReady.status = .true ∧ readerReady.status = .true ∧
        roleMismatch = "" ∧ degradedPlanReasons plan.reasons = [] then .false else .true := by
  have hreasons : ∀ reasons : List String,
      (if reasons.length = 0 then (⟨.false, "Healthy", ""⟩ : Verdict)
        else ⟨.true, "Degraded", joinStrings reasons "; "⟩).status
          = if reasons = [] then .false else .true := by
    intro reasons
    cases reasons <;> rfl
  unfold degradedCondition
  dsimp only
  rw [hreasons]
  refine if_congr ?_ rfl rfl
  simp [List.append_eq_nil_iff]

end Degraded

/-- **Nothing is degraded exactly if all is well.** -/
theorem Report.degraded_iff (r : Report) {verdict : Verdict}
    (h : (.degraded, verdict) ∈ r.verdicts) :
    (verdict.status = .true ↔ ¬ r.AllWell) ∧ (verdict.status = .false ↔ r.AllWell) := by
  have hverdict : verdict = degradedCondition r.discovery r.plan r.monitorErr
      (backendHealthyCondition r.plan) (roleReadyCondition r.plan .writer)
      (roleReadyCondition r.plan .reader) (roleMismatchMessage r.plan) := by
    simpa [Report.verdicts, verdictsFor] using h
  subst hverdict
  have hwell : r.AllWell ↔ r.discovery.trusted = true ∧ r.monitorErr = "" ∧
      r.plan.frozen = false ∧ (backendHealthyCondition r.plan).status = .true ∧
      (roleReadyCondition r.plan .writer).status = .true ∧
      (roleReadyCondition r.plan .reader).status = .true ∧ roleMismatchMessage r.plan = "" ∧
      degradedPlanReasons r.plan.reasons = [] := by
    rw [backendHealthy_iff, roleReady_iff, roleReady_iff, roleMismatchMessage_eq_empty,
      degradedPlanReasons, List.filter_eq_nil_iff]
    constructor
    · rintro ⟨htrusted, hmonitored, hunfrozen, hbackends, hready, hmatching, hreasons⟩
      exact ⟨htrusted, hmonitored, hunfrozen, hbackends, hready .writer, hready .reader, hmatching,
        fun reason hreason => by simpa using hreasons reason hreason⟩
    · rintro ⟨htrusted, hmonitored, hunfrozen, hbackends, hwriter, hreader, hmatching, hreasons⟩
      refine ⟨htrusted, hmonitored, hunfrozen, hbackends, fun role => ?_, hmatching,
        fun reason hreason => by simpa using hreasons reason hreason⟩
      cases role with
      | writer => exact hwriter
      | reader => exact hreader
  rw [hwell, degradedCondition_status]
  split
  · rename_i hall
    exact ⟨iff_of_false (fun h => by cases h) (not_not.mpr hall), iff_of_true rfl hall⟩
  · rename_i hnot
    exact ⟨iff_of_true rfl hnot, iff_of_false (fun h => by cases h) hnot⟩

/-! ## 3. The conditions are those of the last report -/

/-- Except for the one that discovery jobs replace. -/
structure Told (status : Status) (told : List Report) : Prop where
  nothing : told = [] → ∀ type, type ≠ .discoveryTrusted → storedCondition type status = none
  last : ∀ r, told.head? = some r → ∀ type, type ≠ .discoveryTrusted →
    ∀ verdict, (type, verdict) ∈ r.verdicts →
      ∃ c, storedCondition type status = some c ∧ verdictOf c = verdict

/-- Both records of a run. -/
structure Recorded (u : (Flight × List Commit) × List Report) : Prop where
  observes : Observes u.1
  told : Told u.1.1.world.stored.resource.status u.2
  -- a Reconcile reports whenever it commits
  heard : u.2 = [] → lastReconciled u.1.2 = none

section Recorded

variable {s : Flight} {told : List Report}

theorem Told.keeps {status status' : Status} (h : Told status told)
    (hsame : ∀ type, type ≠ .discoveryTrusted →
      storedCondition type status' = storedCondition type status) : Told status' told where
  nothing hnil type hne := (hsame type hne).trans (h.nothing hnil type hne)
  last r hr type hne verdict hverdict := by
    rw [hsame type hne]
    exact h.last r hr type hne verdict hverdict

/-- A commit that writes all conditions. -/
theorem told_written {stored : StoredResource} {status : Status} {r : Report}
    {previous : List Condition} {now : Int}
    (h : status.conditions
      = conditionsFor r.resource previous r.discovery r.plan r.monitorErr now)
    (told : List Report) : Told (stored.updateStatus status).resource.status (r :: told) where
  nothing hnil := by cases hnil
  last r' hr type _ verdict hverdict := by
    cases hr
    have hwritten : storedCondition type status
        = some (conditionWithTransition previous type verdict now) := by
      rw [storedCondition, h]
      exact find?_conditionsFor previous now hverdict
    exact storedCondition_written hwritten

/-- What a turn stores, and what it reports. -/
theorem Told.lands (h : Told s.world.stored.resource.status told) {turn : Turn}
    {stored : StoredResource} {commits : List Commit} (hlands : s.Lands turn stored commits) :
    Told stored.resource.status (reports s turn ++ told) := by
  cases hlands with
  | nothing idle =>
    have hquiet : reports s turn = [] := by
      cases turn <;> simp_all [reports, Flight.landing]
    rw [hquiet]
    exact h
  | edited spec => exact h
  | @discovered faults work status job commit =>
    exact h.keeps fun type hne =>
      storedCondition_unwritten (discoveryCommit_condition commit hne.symm)
  | @monitored faults work status job lands commit =>
    obtain ⟨-, -, hstatus⟩ := monitorCommit_eq_some.mp commit
    rw [reports, lands]
    exact told_written (congrArg Status.conditions hstatus) told
  | @reconciled faults p job lands =>
    rw [reports, lands]
    exact told_written rfl told

theorem Recorded.next {u : (Flight × List Commit) × List Report} (h : Recorded u) (turn : Turn) :
    Recorded (reporting u turn) where
  observes := h.observes.next turn
  told := h.told.lands (u.1.1.next_lands turn)
  heard hnone := by
    obtain ⟨hquiet, hbefore⟩ := List.append_eq_nil_iff.mp hnone
    rcases (u.1.1.next_lands turn).observed with ⟨p, faults, rfl, -, hcommits, -⟩ | ⟨hcommits, -⟩
    · -- the Reconcile that commits reports too
      cases hlands : u.1.1.world.lands Prepared.commit faults u.1.1.reconcile with
      | none => simp [Flight.commits, hlands] at hcommits
      | some p' => simp [reports, hlands] at hquiet
    · simp only [reporting, committed, Machine.traced, lastReconciled, List.findSome?_append]
        at hcommits ⊢
      rw [hcommits, Option.none_or]
      exact h.heard hbefore

/-- The operator with its records, after some turns on a new resource. -/
abbrev recorded (name : String) (spec : PgBouncerAuroraSpec) (cluster : Cluster)
    (turns : List Turn) : (Flight × List Commit) × List Report :=
  Machine.run reporting (({ world := World.initial name spec cluster }, []), []) turns

theorem recorded_run (name : String) (spec : PgBouncerAuroraSpec) (cluster : Cluster)
    (turns : List Turn) : Recorded (recorded name spec cluster turns) := by
  refine Machine.invariant (fun u turn h => h.next turn) ?_ turns
  refine ⟨observes_run name spec cluster [], ⟨fun _ _ _ => rfl, fun r hr => ?_⟩, fun _ => rfl⟩
  cases hr

end Recorded

/-! ## 4. The states -/

theorem conditionStatus_eq (type : ConditionType) (status : Status) :
    conditionStatus status.conditions type
      = ((storedCondition type status).map (·.status)).getD .unknown := by
  unfold storedCondition
  induction status.conditions with
  | nil => rfl
  | cons condition rest ih =>
    by_cases htype : condition.type = type
    · simp [conditionStatus, htype]
    · simp [conditionStatus, htype, ih]

section States

variable {status : Status} {told : List Report}

theorem Told.conditionStatus {r : Report} (h : Told status told) (hr : told.head? = some r)
    {type : ConditionType} (hne : type ≠ .discoveryTrusted) {verdict : Verdict}
    (hverdict : (type, verdict) ∈ r.verdicts) :
    conditionStatus status.conditions type = verdict.status := by
  obtain ⟨c, hc, hstored⟩ := h.last r hr type hne verdict hverdict
  rw [conditionStatus_eq, hc, ← hstored]
  rfl

theorem Told.unknown (h : Told status []) {type : ConditionType} (hne : type ≠ .discoveryTrusted) :
    StatusPage.conditionStatus status.conditions type = .unknown := by
  rw [conditionStatus_eq, h.nothing rfl type hne]
  rfl

/-- The page lags behind exactly if every Reconcile so far has planned with an older spec. -/
theorem observed_lt_iff {t : Flight × List Commit} (h : Observes t) :
    t.1.world.stored.resource.status.observedGeneration < t.1.world.stored.resource.generation ↔
      ∀ p, lastReconciled t.2 = some p →
        p.resource.generation < t.1.world.stored.resource.generation := by
  rw [h.last]
  cases hlast : lastReconciled t.2 with
  | none => exact iff_of_true h.created fun p hp => by cases hp
  | some p =>
    constructor
    · intro hlt q hq
      cases hq
      exact hlt
    · intro hall
      exact hall p rfl

/-- It does not lag behind exactly if the last Reconcile has planned with the spec there is. -/
theorem not_observed_lt_iff {t : Flight × List Commit} (h : Observes t) :
    ¬ t.1.world.stored.resource.status.observedGeneration
        < t.1.world.stored.resource.generation ↔
      ∃ p, lastReconciled t.2 = some p ∧
        p.resource.generation = t.1.world.stored.resource.generation ∧
        p.resource.spec = t.1.world.stored.resource.spec := by
  rw [observed_lt_iff h]
  constructor
  · intro hnot
    push Not at hnot
    obtain ⟨p, hp, hle⟩ := hnot
    have hprecedes := h.seen p hp
    have heq := le_antisymm hprecedes.generation hle
    exact ⟨p, hp, heq, hprecedes.spec heq⟩
  · rintro ⟨p, hp, heq, -⟩ hall
    exact (hall p hp).ne heq

/-- The state after a report. -/
theorem Told.state {resource : PgBouncerAurora} (h : Told resource.status told) {r : Report}
    (hr : told.head? = some r) :
    (r.plan.frozen = true → resourceState resource = .frozen) ∧
    (r.plan.frozen = false → ¬ r.AllWell → resourceState resource = .degraded) ∧
    (r.AllWell → resourceState resource =
      if resource.status.observedGeneration < resource.generation then .progressing
      else .ready) := by
  have hfrozen : StatusPage.conditionStatus resource.status.conditions .frozen
      = (flag r.plan.frozen "Frozen" "NotFrozen" (joinStrings r.plan.reasons "; ")).status :=
    h.conditionStatus hr (by decide) (by simp [Report.verdicts, verdictsFor])
  have hreconciled : StatusPage.conditionStatus resource.status.conditions .reconciled
      = (flag (!r.plan.frozen) "Applied" "Frozen" "").status :=
    h.conditionStatus hr (by decide) (by simp [Report.verdicts, verdictsFor])
  obtain ⟨verdict, hverdict⟩ :=
    exists_verdict .degraded r.resource r.discovery r.plan r.monitorErr
  have hdegraded := h.conditionStatus hr (by decide) hverdict
  obtain ⟨htrue, hfalse⟩ := r.degraded_iff hverdict
  rw [flag_status] at hfrozen hreconciled
  unfold resourceState
  rw [hfrozen, hreconciled, hdegraded]
  refine ⟨fun hyes => ?_, fun hno hnot => ?_, fun hwell => ?_⟩
  · simp [hyes]
  · simp [hno, htrue.mpr hnot]
  · simp [hwell.unfrozen, hfalse.mpr hwell]

end States

/-- **The states are exact.**  After any turns, the page says

* `frozen` if the last report has a frozen plan;
* `degraded` if the last report has an unfrozen plan, and something is not well;
* `progressing` if all is well in the last report, if any, and the spec has been edited since the
  last Reconcile took it up, or none has gone through;
* `ready` if all is well in the last report and the last Reconcile planned with the spec that the
  resource has. -/
theorem page_state_exact (name : String) (spec : PgBouncerAuroraSpec) (cluster : Cluster)
    (turns : List Turn) :
    let u := recorded name spec cluster turns
    let resource := u.1.1.world.stored.resource
    (resourceState resource = .frozen ↔ ∃ r, u.2.head? = some r ∧ r.plan.frozen = true) ∧
    (resourceState resource = .degraded ↔
      ∃ r, u.2.head? = some r ∧ r.plan.frozen = false ∧ ¬ r.AllWell) ∧
    (resourceState resource = .progressing ↔ (∀ r, u.2.head? = some r → r.AllWell) ∧
      ∀ p, lastReconciled u.1.2 = some p → p.resource.generation < resource.generation) ∧
    (resourceState resource = .ready ↔ (∃ r, u.2.head? = some r ∧ r.AllWell) ∧
      ∃ p, lastReconciled u.1.2 = some p ∧ p.resource.generation = resource.generation ∧
        p.resource.spec = resource.spec) := by
  intro u resource
  have h : Recorded u := recorded_run name spec cluster turns
  have hcurrent : ¬ resource.status.observedGeneration < resource.generation ↔
      ∃ p, lastReconciled u.1.2 = some p ∧ p.resource.generation = resource.generation ∧
        p.resource.spec = resource.spec := not_observed_lt_iff h.observes
  have hbehind : resource.status.observedGeneration < resource.generation ↔
      ∀ p, lastReconciled u.1.2 = some p → p.resource.generation < resource.generation :=
    observed_lt_iff h.observes
  cases hhead : u.2.head? with
  | none =>
    have hnil : u.2 = [] := List.head?_eq_none_iff.mp hhead
    have hnone : lastReconciled u.1.2 = none := h.heard hnil
    have htold : Told resource.status [] := hnil ▸ h.told
    have hlt : resource.status.observedGeneration < resource.generation :=
      hbehind.mpr fun p hp => by rw [hnone] at hp; cases hp
    have hstate : resourceState resource = .progressing := by
      unfold resourceState
      rw [htold.unknown (by decide), htold.unknown (by decide), htold.unknown (by decide)]
      simp [hlt]
    rw [hstate]
    simp [hnone]
  | some r =>
    obtain ⟨hfrozen, hdegraded, hwell⟩ := h.told.state hhead
    by_cases hf : r.plan.frozen = true
    · have hnot : ¬ r.AllWell := fun hall => by simp [hall.unfrozen] at hf
      rw [hfrozen hf]
      simp [hf, hnot]
    · rw [Bool.not_eq_true] at hf
      by_cases hall : r.AllWell
      · rw [← hbehind, ← hcurrent, hwell hall]
        by_cases hlt : resource.status.observedGeneration < resource.generation
        · rw [if_pos hlt]
          simp [hf, hall, hlt]
        · rw [if_neg hlt]
          simp [hf, hall, hlt]
      · rw [hdegraded hf hall]
        simp [hf, hall]

end StatusPage

end AuroraOperator

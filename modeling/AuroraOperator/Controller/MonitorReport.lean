/-
# What is reported about the monitor

`MonitorSucceeded` is meant to report the last monitor job.  Two components rebuild the list of
conditions: a monitor job, which knows how its probe ended, and a Reconcile, which in scheduled
mode does not, and passes an empty error.  An empty error counts as success.

So the report of a failure lasts until the next Reconcile commits, and each monitor job asks for
one right after its own commit.

* `monitor_reported_iff`: the exact condition under which the report is right along a run.
* `reconcile_drops_monitor_failure`: three steps after which it is not.
-/
import AuroraOperator.Controller.Safety

namespace AuroraOperator

namespace Controller

open Planner Render Program

/-! ## 1. The two conditions -/

theorem mem_infix_intercalate {α : Type*} {sep s : List α} {l : List (List α)} (h : s ∈ l) :
    s <:+: sep.intercalate l := by
  refine List.infix_of_mem_flatten ?_
  induction l with
  | nil => cases h
  | cons a l ih =>
    cases l with
    | nil => exact h
    | cons b l =>
      rw [List.intersperse_cons_cons]
      rcases List.mem_cons.mp h with rfl | hin
      · exact List.mem_cons_self ..
      · exact List.mem_cons_of_mem _ (List.mem_cons_of_mem _ (ih hin))

theorem containsText_joinStrings {values : List String} {sep value : String} (h : value ∈ values) :
    containsText (joinStrings values sep) value = true := by
  rw [containsText, decide_eq_true_eq, joinStrings, String.toList_intercalate]
  exact mem_infix_intercalate (List.mem_map_of_mem h)

def storedCondition (type : ConditionType) (status : Status) : Option Condition :=
  status.conditions.find? (·.type = type)

theorem storedCondition_updateStatus (type : ConditionType) (stored : StoredResource)
    (status : Status) :
    storedCondition type (stored.updateStatus status).resource.status
      = (storedCondition type status).map Condition.marshal := by
  rw [storedCondition, StoredResource.updateStatus_status, Status.marshal_conditions,
    List.find?_map]
  rfl

theorem find?_replaceCondition_of_ne {condition : Condition} {type : ConditionType}
    (hne : condition.type ≠ type) (previous : List Condition) :
    (replaceCondition condition previous).find? (·.type = type)
      = previous.find? (·.type = type) := by
  induction previous with
  | nil => simp [replaceCondition, hne]
  | cons old rest ih =>
    unfold replaceCondition
    split
    · rename_i hsame
      simp [hne, hsame]
    · by_cases h : old.type = type
      · simp [h]
      · simp [h, ih]

theorem discoveryCommit_conditions {discovery : DiscoveryResult}
    {missing : List MissingInstanceStatus} {failed : Bool} {now : Int} {fresh : PgBouncerAurora}
    {next : Status} (h : discoveryCommit discovery missing failed now fresh = some next) :
    next.conditions = discoveryOnlyConditions fresh.status.conditions discovery failed now := by
  unfold discoveryCommit at h
  dsimp only at h
  split at h
  · cases h
  · cases h
    split <;> rfl

/-- A discovery commit touches no condition but its own. -/
theorem discoveryCommit_condition {discovery : DiscoveryResult}
    {missing : List MissingInstanceStatus} {failed : Bool} {now : Int} {fresh : PgBouncerAurora}
    {next : Status} (h : discoveryCommit discovery missing failed now fresh = some next)
    {type : ConditionType} (hne : ConditionType.discoveryTrusted ≠ type) :
    storedCondition type next = storedCondition type fresh.status := by
  rw [storedCondition, discoveryCommit_conditions h]
  exact find?_replaceCondition_of_ne (by rw [conditionWithTransition_type]; exact hne) _

theorem conditionWithTransition_message (previous : List Condition) (type : ConditionType)
    (verdict : Verdict) (now : Int) :
    (conditionWithTransition previous type verdict now).message = verdict.message := by
  unfold conditionWithTransition
  dsimp only
  split
  · rfl
  · split <;> rfl

/-- A monitor failure is among the reasons for `Degraded`. -/
theorem degradedCondition_monitorErr (discovery : DiscoveryResult) (plan : Output)
    {monitorErr : String} (h : monitorErr ≠ "")
    (backendHealthy writerReady readerReady : Verdict) (roleMismatch : String) :
    (degradedCondition discovery plan monitorErr backendHealthy writerReady readerReady
      roleMismatch).status = .true ∧
    containsText (degradedCondition discovery plan monitorErr backendHealthy writerReady readerReady
      roleMismatch).message ("monitor failed: " ++ monitorErr) = true := by
  have hreasons : ∀ reasons : List String, "monitor failed: " ++ monitorErr ∈ reasons →
      ∀ verdict : Verdict, verdict = (if reasons.length = 0 then ⟨.false, "Healthy", ""⟩
        else ⟨.true, "Degraded", joinStrings reasons "; "⟩) →
      verdict.status = .true ∧
        containsText verdict.message ("monitor failed: " ++ monitorErr) = true := by
    rintro reasons hin verdict rfl
    rw [if_neg (by simpa using List.ne_nil_of_mem hin)]
    exact ⟨rfl, containsText_joinStrings hin⟩
  exact hreasons _ (by simp [h]) _ rfl

/-! ## 2. One step -/

/-- How a committed monitor job ended: without an error, or with one. -/
def World.monitorEnd (w : World) : Step → List (Option String)
  | .monitor check checkedAt now faults =>
    if answer (runMonitorJob check checkedAt now) (w.meet faults) then
      match check w.stored.resource (cachedDiscovery w.stored.resource).instances with
      | .ok _ => [none]
      | .error err => [some err]
    else []
  | _ => []

/-- A step of the world, with how the committed monitor jobs ended, newest first. -/
abbrev reporting : World × List (Option String) → Step → World × List (Option String) :=
  Machine.traced World.next World.monitorEnd

/-- The error of the monitor job that was committed last. -/
def lastError (ends : List (Option String)) : Option String := ends.head?.join

/-- `MonitorSucceeded` is stored as false. -/
def reportsFailure (status : Status) : Bool :=
  (storedCondition .monitorSucceeded status).any (·.status = .false)

/-- `Degraded` is stored as true and names the monitor failure. -/
def degradedBy (err : String) (status : Status) : Bool :=
  (storedCondition .degraded status).any fun condition =>
    condition.status = .true && containsText condition.message ("monitor failed: " ++ err)

/-- The report is right: a failure is stored exactly when the last monitor job failed, and then
`Degraded` has it too. -/
structure Reported (t : World × List (Option String)) : Prop where
  succeeded : reportsFailure t.1.stored.resource.status = (lastError t.2).isSome
  degraded : ∀ err, lastError t.2 = some err → degradedBy err t.1.stored.resource.status = true

/-- The step does not lose the report: an error has a text, and a Reconcile commits only after a
monitor job without an error. -/
def ReportKept (t : World × List (Option String)) : Step → Prop
  | .monitor check checkedAt now faults =>
    answer (runMonitorJob check checkedAt now) (t.1.meet faults) = true →
      check t.1.stored.resource (cachedDiscovery t.1.stored.resource).instances ≠ .error ""
  | .reconcile now faults =>
    returns (fun _ _ => true) (reconcile .scheduled now) (t.1.meet faults) = true →
      lastError t.2 = none
  | _ => True

section OneStep

variable {t : World × List (Option String)} {w : World} {status : Status}

theorem reportsFailure_updateStatus (stored : StoredResource) (status : Status) :
    reportsFailure (stored.updateStatus status).resource.status = reportsFailure status := by
  rw [reportsFailure, storedCondition_updateStatus, reportsFailure]
  cases storedCondition .monitorSucceeded status <;> rfl

theorem degradedBy_updateStatus (err : String) (stored : StoredResource) (status : Status) :
    degradedBy err (stored.updateStatus status).resource.status = degradedBy err status := by
  rw [degradedBy, storedCondition_updateStatus, degradedBy]
  cases storedCondition .degraded status <;> rfl

/-- What the two writers of the list report. -/
theorem reportsFailure_of_conditions {resource : PgBouncerAurora} {previous : List Condition}
    {discovery : DiscoveryResult} {plan : Output} {monitorErr : String} {now : Int}
    (h : status.conditions = conditionsFor resource previous discovery plan monitorErr now) :
    reportsFailure status = decide (monitorErr ≠ "") := by
  have hverdict : (ConditionType.monitorSucceeded,
      flag (monitorErr = "") "MonitorSucceeded" "MonitorFailed" monitorErr)
      ∈ verdictsFor resource discovery plan monitorErr := by simp [verdictsFor]
  rw [reportsFailure, storedCondition, h, find?_conditionsFor _ _ hverdict]
  by_cases hempty : monitorErr = "" <;> simp [flag, hempty]

theorem degradedBy_of_conditions {resource : PgBouncerAurora} {previous : List Condition}
    {discovery : DiscoveryResult} {plan : Output} {monitorErr : String} {now : Int}
    (h : status.conditions = conditionsFor resource previous discovery plan monitorErr now)
    (herr : monitorErr ≠ "") : degradedBy monitorErr status = true := by
  obtain ⟨hstatus, hmessage⟩ := degradedCondition_monitorErr discovery plan herr
    (backendHealthyCondition plan) (roleReadyCondition plan .writer)
    (roleReadyCondition plan .reader) (roleMismatchMessage plan)
  have hverdict : (ConditionType.degraded, degradedCondition discovery plan monitorErr
      (backendHealthyCondition plan) (roleReadyCondition plan .writer)
      (roleReadyCondition plan .reader) (roleMismatchMessage plan))
      ∈ verdictsFor resource discovery plan monitorErr := by simp [verdictsFor]
  rw [degradedBy, storedCondition, h, find?_conditionsFor _ _ hverdict]
  simp [hstatus, conditionWithTransition_message, hmessage]

theorem Reported.same {step : Step} (h : Reported t) (hquiet : t.1.monitorEnd step = [])
    (hsucceeded : reportsFailure (t.1.next step).stored.resource.status
      = reportsFailure t.1.stored.resource.status)
    (hdegraded : ∀ err, degradedBy err (t.1.next step).stored.resource.status
      = degradedBy err t.1.stored.resource.status) :
    Reported (reporting t step) := by
  have hends : (reporting t step).2 = t.2 := by
    show t.1.monitorEnd step ++ t.2 = t.2
    rw [hquiet, List.nil_append]
  refine ⟨?_, fun err herr => ?_⟩
  · rw [hends]
    exact hsucceeded.trans h.succeeded
  · rw [hends] at herr
    exact (hdegraded err).trans (h.degraded err herr)

/-- A monitor job reports how it ended, if its error has a text. -/
theorem reported_monitor (h : Reported t) (check : Check) (checkedAt now : Int)
    (faults : List (Option Fault)) :
    Reported (reporting t (.monitor check checkedAt now faults)) ↔
      ReportKept t (.monitor check checkedAt now faults) := by
  rcases monitor_cases t.1 check checkedAt now faults with
    ⟨hanswer, -, status, hcommit, hstored⟩ | ⟨hanswer, hstored⟩
  · have hends : (reporting t (.monitor check checkedAt now faults)).2
        = t.1.monitorEnd (.monitor check checkedAt now faults) ++ t.2 := rfl
    have hnext : (reporting t (.monitor check checkedAt now faults)).1.stored
        = t.1.stored.updateStatus status := hstored
    rw [World.monitorEnd, if_pos hanswer] at hends
    cases hcheck : check t.1.stored.resource (cachedDiscovery t.1.stored.resource).instances with
    | ok health =>
      rw [MonitorWork.commit, monitorWork_ok hcheck] at hcommit
      obtain ⟨-, -, rfl⟩ := monitorCommit_eq_some.mp hcommit
      rw [hcheck] at hends
      refine iff_of_true ⟨?_, ?_⟩ fun _ => ?_
      · rw [hnext, hends, reportsFailure_updateStatus, reportsFailure_of_conditions rfl]
        rfl
      · rw [hends]
        exact nofun
      · rw [hcheck]
        exact nofun
    | error err =>
      rw [MonitorWork.commit, monitorWork_error hcheck] at hcommit
      obtain ⟨-, -, rfl⟩ := monitorCommit_eq_some.mp hcommit
      rw [hcheck] at hends
      constructor
      · rintro ⟨hsucceeded, -⟩ -
        rw [hnext, hends, reportsFailure_updateStatus, reportsFailure_of_conditions rfl] at hsucceeded
        rw [hcheck]
        rintro ⟨⟩
        simp [lastError] at hsucceeded
      · intro hkept
        have herr : err ≠ "" := by
          rintro rfl
          exact hkept hanswer hcheck
        refine ⟨?_, fun err' herr' => ?_⟩
        · rw [hnext, hends, reportsFailure_updateStatus, reportsFailure_of_conditions rfl]
          simp [herr, lastError]
        · rw [hends] at herr'
          cases herr'
          rw [hnext, degradedBy_updateStatus]
          exact degradedBy_of_conditions rfl herr
  · refine iff_of_true (h.same ?_ (by rw [hstored]) fun err => by rw [hstored]) fun hyes => ?_
    · rw [World.monitorEnd, if_neg (by simp [hanswer])]
    · rw [hanswer] at hyes
      cases hyes

/-- **A committed Reconcile reports success**, whatever the last monitor job said. -/
theorem reported_reconcile (h : Reported t) (now : Int) (faults : List (Option Fault)) :
    Reported (reporting t (.reconcile now faults)) ↔ ReportKept t (.reconcile now faults) := by
  rcases reconcile_cases t.1 now faults with
    ⟨p, w', hrun, w₁, hprepared, -, hstored⟩ | ⟨e, w', hrun, hstored⟩
  · have hconditions : (p.status t.1.stored.resource).conditions
        = conditionsFor p.resource t.1.stored.resource.status.conditions
            p.evaluation.discovery p.plan "" p.now := by
      rw [Prepared.status, hprepared.evaluation]
      rfl
    have hreports : reportsFailure (reporting t (.reconcile now faults)).1.stored.resource.status
        = false := by
      rw [show (reporting t (.reconcile now faults)).1.stored = _ from hstored,
        reportsFailure_updateStatus, reportsFailure_of_conditions hconditions]
      rfl
    have hcommitted : returns (fun _ _ => true) (reconcile .scheduled now) (t.1.meet faults) = true :=
      returns_iff.mpr ⟨p, w', hrun, rfl⟩
    constructor
    · rintro ⟨hsucceeded, -⟩ -
      have hnone : (lastError t.2).isSome = false := hsucceeded.symm.trans hreports
      simpa using hnone
    · intro hkept
      have hnone : lastError t.2 = none := hkept hcommitted
      refine ⟨?_, fun err herr => ?_⟩
      · rw [hreports, show (reporting t (.reconcile now faults)).2 = t.2 from rfl, hnone]
        rfl
      · rw [show (reporting t (.reconcile now faults)).2 = t.2 from rfl, hnone] at herr
        cases herr
  · refine iff_of_true (h.same rfl (by rw [hstored]) fun err => by rw [hstored]) fun hyes => ?_
    obtain ⟨p, w₂, hok, -⟩ := returns_iff.mp hyes
    rw [hrun] at hok
    cases hok

/-- A discovery job leaves both conditions alone. -/
theorem Move.discover_reports {w' : World} {discover : Discover} {checkedAt now : Int}
    {faults : List (Option Fault)} {events : List Event}
    (hmove : Move w (.discover discover checkedAt now faults) w' events) :
    reportsFailure w'.stored.resource.status = reportsFailure w.stored.resource.status ∧
      ∀ err, degradedBy err w'.stored.resource.status
        = degradedBy err w.stored.resource.status := by
  cases hmove with
  | discovered answered due commit stored =>
    refine ⟨?_, fun err => ?_⟩
    · rw [stored, reportsFailure_updateStatus, reportsFailure, reportsFailure,
        discoveryCommit_condition commit (by decide)]
    · rw [stored, degradedBy_updateStatus, degradedBy, degradedBy,
        discoveryCommit_condition commit (by decide)]
  | undiscovered unanswered stored => exact ⟨by rw [stored], fun err => by rw [stored]⟩

theorem reported_iff_kept (h : Reported t) (step : Step) :
    Reported (reporting t step) ↔ ReportKept t step := by
  cases step with
  | monitor check checkedAt now faults => exact reported_monitor h check checkedAt now faults
  | reconcile now faults => exact reported_reconcile h now faults
  | discover discover checkedAt now faults =>
    obtain ⟨hsucceeded, hdegraded⟩ := (next_move t.1 _).discover_reports
    exact iff_of_true (h.same rfl hsucceeded hdegraded) trivial
  | editSpec spec | environment cluster => exact iff_of_true (h.same rfl rfl fun err => rfl) trivial

end OneStep

/-! ## 3. Whole runs -/

/-- **When the report is right.**  In a run from a new resource, after every step
`MonitorSucceeded` is stored as false exactly when the monitor job committed last has failed, and
`Degraded` names the failure then, exactly when every committed error has a text and no Reconcile
commits after a failure, before another monitor job. -/
theorem monitor_reported_iff (name : String) (spec : PgBouncerAuroraSpec) (cluster : Cluster)
    (steps : List Step) :
    Machine.Along reporting (fun t step => Reported (reporting t step))
        (World.initial name spec cluster, []) steps ↔
      Machine.Along reporting ReportKept (World.initial name spec cluster, []) steps :=
  Machine.Along.congr (I := Reported) (fun _ step h => reported_iff_kept h step)
    (fun _ _ _ hkept => hkept) ⟨rfl, fun err herr => by simp [lastError] at herr⟩ steps

/-- A monitor job whose probe fails. -/
def failingProbe (now : Int) : Step := .monitor (fun _ _ => .error "secret missing") now now []

def failedMonitor : List Step :=
  [.discover (fun resource => .ok (exampleProvider.discover resource)) (10 * second) (10 * second) [],
    failingProbe (20 * second)]

/-- The next monitor job succeeds before a Reconcile commits. -/
def recoveredMonitor : List Step :=
  failedMonitor ++ [.monitor (fun _ _ => .ok ∅) (80 * second) (80 * second) [],
    .reconcile (81 * second) []]

theorem monitor_reported_in_turn :
    Machine.Along reporting (fun t step => Reported (reporting t step))
      (World.initial "db" exampleSpec {}, []) recoveredMonitor := by
  refine (monitor_reported_iff "db" exampleSpec {} recoveredMonitor).mpr
    ⟨trivial, fun _ => ?_, fun _ => nofun, fun _ => ?_, trivial⟩
  · show (Except.error "secret missing" : Except String (StringMap HealthStatus)) ≠ .error ""
    simp
  · decide +kernel

/-- **A Reconcile drops the monitor failure.**  The only monitor job has failed; the Reconcile that
it asks for stores `MonitorSucceeded` as true, and takes the failure from `Degraded`. -/
theorem reconcile_drops_monitor_failure :
    let before := Machine.run reporting (World.initial "db" exampleSpec {}, []) failedMonitor
    let after := Machine.run reporting before [.reconcile (21 * second) []]
    lastError after.2 = some "secret missing" ∧
      reportsFailure before.1.stored.resource.status = true ∧
      degradedBy "secret missing" before.1.stored.resource.status = true ∧
      reportsFailure after.1.stored.resource.status = false ∧
      degradedBy "secret missing" after.1.stored.resource.status = false := by
  decide +kernel

end Controller

end AuroraOperator

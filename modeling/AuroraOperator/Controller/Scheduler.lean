/-
# The scheduled jobs

The scheduler runs two kinds of jobs beside the Reconciles: discovery jobs and monitor jobs.
A job reads a snapshot, works on it, and commits to a freshly read copy.  The two halves have
names of their own here (`takeDiscovery`, `takeMonitor` and the two commits), because another
writer may come between them.

A job asks the clock twice: once to see whether it is due (`checkedAt`), and once for the time
it writes (`now`).  The providers are taken to be configured, and the resource to be one that
the scheduler watches; a job for any other does nothing.
-/
import AuroraOperator.Controller.Reconcile

namespace AuroraOperator

namespace Controller

open Planner Render Program

/-! ## 1. Discovery jobs -/

/-- What a discovery job brings to its commit. -/
structure DiscoveryWork where
  discovery : DiscoveryResult
  missing : List MissingInstanceStatus
  failed : Bool
  now : Int

/-- The result a job goes on with, and whether it stands for a failure. -/
def effectiveDiscovery (discover : Discover) (resource : PgBouncerAurora) :
    DiscoveryResult × Bool :=
  match discover resource with
  | .error err => ({ trusted := false, reason := "discovery errored: " ++ err }, true)
  | .ok discovery =>
    if discovery.trusted then (discovery, false)
    else (discoveryAfterFailureThreshold resource discovery, true)

/-- The call of a discovery job failed or was not trusted. -/
def Unobserved (discover : Discover) (resource : PgBouncerAurora) : Prop :=
  ∀ discovery, discover resource = .ok discovery → discovery.trusted = false

def discoveryWork (discover : Discover) (resource : PgBouncerAurora) (now : Int) :
    DiscoveryWork :=
  let result := effectiveDiscovery discover resource
  { discovery := result.1
    missing := missingInstancesFor resource result.1 true now
    failed := result.2
    now := now }

def DiscoveryWork.commit (work : DiscoveryWork) (fresh : PgBouncerAurora) : Option Status :=
  discoveryCommit work.discovery work.missing work.failed work.now fresh

/-- The first half of a job, up to the commit. -/
def takeDiscovery (discover : Discover) (checkedAt now : Int) (resource : PgBouncerAurora) :
    Option DiscoveryWork :=
  if discoveryDue resource checkedAt then some (discoveryWork discover resource now) else none

/-! ## 2. Monitor jobs -/

/-- What a monitor job brings to its commit. -/
structure MonitorWork where
  discovery : DiscoveryResult
  plan : Output
  monitorErr : String
  now : Int

def monitorWork (check : Check) (resource : PgBouncerAurora) (now : Int) : MonitorWork :=
  let discovery := cachedDiscovery resource
  let planWith (health : StringMap HealthStatus) (cachedHealth : Bool) : Output := plan
    { resource := resource
      discoveryTrusted := discovery.trusted
      discovered := discovery.instances
      health := health
      cachedHealth := cachedHealth
      missingInstances := resource.status.missingInstances }
  match check resource discovery.instances with
  | .error err =>
    { discovery := discovery, plan := planWith (healthFromStatus resource.status.instances) true
      monitorErr := err, now := now }
  | .ok health =>
    { discovery := discovery, plan := planWith health false, monitorErr := "", now := now }

/-- What a monitor job hands to the planner. -/
abbrev monitorInput (resource : PgBouncerAurora) (health : StringMap HealthStatus)
    (cachedHealth : Bool) : Input :=
  { resource := resource
    discoveryTrusted := (cachedDiscovery resource).trusted
    discovered := (cachedDiscovery resource).instances
    health := health
    cachedHealth := cachedHealth
    missingInstances := resource.status.missingInstances }

theorem monitorWork_ok {check : Check} {resource : PgBouncerAurora} {health : StringMap HealthStatus}
    (h : check resource (cachedDiscovery resource).instances = .ok health) (now : Int) :
    monitorWork check resource now =
      { discovery := cachedDiscovery resource, plan := plan (monitorInput resource health false)
        monitorErr := "", now := now } := by
  simp only [monitorWork, h]

/-- A failed probe plans on what is stored. -/
theorem monitorWork_error {check : Check} {resource : PgBouncerAurora} {err : String}
    (h : check resource (cachedDiscovery resource).instances = .error err) (now : Int) :
    monitorWork check resource now =
      { discovery := cachedDiscovery resource
        plan := plan (monitorInput resource (healthFromStatus resource.status.instances) true)
        monitorErr := err, now := now } := by
  simp only [monitorWork, h]

@[simp] theorem monitorWork_discovery (check : Check) (resource : PgBouncerAurora) (now : Int) :
    (monitorWork check resource now).discovery = cachedDiscovery resource := by
  unfold monitorWork
  dsimp only
  split <;> rfl

theorem monitorWork_now (check : Check) (resource : PgBouncerAurora) (now : Int) :
    (monitorWork check resource now).now = now := by
  unfold monitorWork
  dsimp only
  split <;> rfl

def MonitorWork.commit (work : MonitorWork) (fresh : PgBouncerAurora) : Option Status :=
  monitorCommit work.discovery work.plan work.monitorErr work.now fresh

def takeMonitor (check : Check) (checkedAt now : Int) (resource : PgBouncerAurora) :
    Option MonitorWork :=
  if monitorDue resource checkedAt && (cachedDiscovery resource).trusted then
    some (monitorWork check resource now)
  else none

/-! ## 3. Whole jobs -/

/-- Read a snapshot, work on it, commit.  The answer is whether a status was committed. -/
def runJob {W : Type} (take : PgBouncerAurora → Option W)
    (commit : W → PgBouncerAurora → Option Status) : Api Bool := do
  let resource ← getResource
  match take resource with
  | none => pure false
  | some work => commitStatus (commit work)

def runDiscoveryJob (discover : Discover) (checkedAt now : Int) : Api Bool :=
  runJob (takeDiscovery discover checkedAt now) DiscoveryWork.commit

def runMonitorJob (check : Check) (checkedAt now : Int) : Api Bool :=
  runJob (takeMonitor check checkedAt now) MonitorWork.commit

/-- The answer of a program, with an error for "no". -/
def answer (m : Api Bool) (w : World) : Bool :=
  match m w with
  | .ok committed _ => committed
  | .error _ _ => false

/-- **What a commit does, failures included.** -/
theorem commitStatus_cases (next : PgBouncerAurora → Option Status) (w : World) :
    (answer (commitStatus next) w = true ∧ ∃ status, next w.stored.resource = some status ∧
      (final (commitStatus next) w).stored = w.stored.updateStatus status) ∨
    (answer (commitStatus next) w = false ∧
      (final (commitStatus next) w).stored = w.stored) := by
  unfold answer final
  cases h : commitStatus next w with
  | error e w' => exact Or.inr ⟨rfl, congrArg (fun v => v.1) (commitStatus_clean next h)⟩
  | ok committed w' =>
    have hnext := commitStatus_ensures next h
    dsimp only at hnext
    cases hn : next w.stored.resource with
    | none =>
      rw [hn] at hnext
      exact Or.inr hnext
    | some status =>
      rw [hn] at hnext
      exact Or.inl ⟨hnext.1, status, rfl, hnext.2⟩

/-- A job whose read returns goes on with the stored resource. -/
theorem runJob_of_read {W : Type} (take : PgBouncerAurora → Option W)
    (commit : W → PgBouncerAurora → Option Status) {w w₁ : World} {resource : PgBouncerAurora}
    (hg : getResource w = .ok resource w₁) :
    w₁.visible = w.visible ∧
    (take w.stored.resource = none → runJob take commit w = .ok false w₁) ∧
    ∀ work, take w.stored.resource = some work →
      runJob take commit w = commitStatus (commit work) w₁ := by
  obtain rfl := getResource_eq_ok hg
  refine ⟨getResource_keeps.of_ok hg, fun ht => ?_, fun work ht => ?_⟩
  · exact bind_eq_ok.mpr ⟨_, w₁, hg, by rw [ht]; rfl⟩
  · show (getResource >>= _) w = _
    simp only [bind, EStateM.bind, hg, ht]

/-- **What a job does.**  It commits its work on the very resource it was computed from, or it
changes nothing. -/
theorem runJob_cases {W : Type} (take : PgBouncerAurora → Option W)
    (commit : W → PgBouncerAurora → Option Status) (w : World) :
    (answer (runJob take commit) w = true ∧ ∃ work status,
      take w.stored.resource = some work ∧ commit work w.stored.resource = some status ∧
      (final (runJob take commit) w).stored = w.stored.updateStatus status) ∨
    (answer (runJob take commit) w = false ∧
      (final (runJob take commit) w).stored = w.stored) := by
  cases hg : getResource w with
  | error e w₁ =>
    have hrun : runJob take commit w = .error e w₁ := bind_eq_error.mpr (Or.inl hg)
    refine Or.inr ⟨by rw [answer, hrun], ?_⟩
    rw [final_of_error hrun]
    exact congrArg (fun v => v.1) (getResource_keeps.of_error hg)
  | ok resource w₁ =>
    obtain ⟨hv, hidle, hcommit⟩ := runJob_of_read take commit hg
    have hs : w₁.stored = w.stored := congrArg (fun v => v.1) hv
    cases ht : take w.stored.resource with
    | none =>
      have hrun := hidle ht
      exact Or.inr ⟨by rw [answer, hrun], by rw [final_of_ok hrun, hs]⟩
    | some work =>
      have hrun := hcommit work ht
      have hanswer : answer (runJob take commit) w = answer (commitStatus (commit work)) w₁ := by
        rw [answer, answer, hrun]
      have hfinal : final (runJob take commit) w = final (commitStatus (commit work)) w₁ := by
        rw [final, final, hrun]
      rw [hanswer, hfinal]
      rcases commitStatus_cases (commit work) w₁ with ⟨hyes, status, hnext, hst⟩ | ⟨hno, hst⟩
      · rw [hs] at hnext hst
        exact Or.inl ⟨hyes, work, status, rfl, hnext, hst⟩
      · rw [hs] at hst
        exact Or.inr ⟨hno, hst⟩

/-- Without failures, what can be committed is. -/
theorem answer_commitStatus {next : PgBouncerAurora → Option Status} {w : World} {status : Status}
    (hfaults : w.faults = []) (hnext : next w.stored.resource = some status) :
    answer (commitStatus next) w = true := by
  unfold answer commitStatus retryOnConflict retry
  by_cases heq : hashObject w.stored.resource.status.marshal = hashObject status.marshal
  · simp [getResource, call, hfaults, bind, EStateM.bind, hnext, heq, pure, EStateM.pure]
  · simp [getResource, updateResourceStatus, call, hfaults, bind, EStateM.bind, hnext, heq, pure,
      EStateM.pure]

theorem answer_runJob {W : Type} {take : PgBouncerAurora → Option W}
    {commit : W → PgBouncerAurora → Option Status} {w : World} {work : W} {status : Status}
    (hfaults : w.faults = []) (htake : take w.stored.resource = some work)
    (hcommit : commit work w.stored.resource = some status) :
    answer (runJob take commit) w = true := by
  have hrun : runJob take commit w = commitStatus (commit work) w := by
    simp [runJob, getResource, call, hfaults, bind, EStateM.bind, htake]
  rw [answer, hrun]
  exact answer_commitStatus hfaults hcommit

theorem runJob_keeps {W : Type} (take : PgBouncerAurora → Option W)
    (commit : W → PgBouncerAurora → Option Status) :
    Keeps World.namespaceSide (runJob take commit) := by
  refine Keeps.bind (Keeps.namespaceSide getResource_keeps) fun resource => ?_
  split
  · exact Keeps.pure _
  · exact commitStatus_keeps _

/-! ## 4. What the jobs work with -/

/-- The result a job goes on with is its own, or an untrusted one, or the cached topology. -/
theorem effectiveDiscovery_cases (discover : Discover) (resource : PgBouncerAurora) :
    (∃ d, discover resource = .ok d ∧ d.trusted = true ∧
      effectiveDiscovery discover resource = (d, false)) ∨
    ((∀ d, discover resource = .ok d → d.trusted = false) ∧
      (effectiveDiscovery discover resource).2 = true ∧
      ((effectiveDiscovery discover resource).1.trusted = false ∨
        ((effectiveDiscovery discover resource).1.instances
            = topologyObservations resource.status.lastKnownTopology ∧
          resource.status.lastKnownTopology ≠ []))) := by
  unfold effectiveDiscovery
  cases hd : discover resource with
  | error err =>
    exact Or.inr ⟨(fun d h => by cases h), rfl, Or.inl rfl⟩
  | ok d =>
    cases ht : d.trusted with
    | true => exact Or.inl ⟨d, rfl, ht, by simp [ht]⟩
    | false =>
      refine Or.inr ⟨(fun d' h => by cases h; exact ht), by simp [ht], ?_⟩
      simp only [ht, Bool.false_eq_true, if_false]
      rcases discoveryAfterFailureThreshold_cases resource d with heq | hcached
      · left; rw [heq]; exact ht
      · exact Or.inr hcached

end Controller

end AuroraOperator

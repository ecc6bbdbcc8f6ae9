/-
# The three writers of the status

A discovery job, a monitor job and a Reconcile each compute from a snapshot of the resource
and then write to a freshly read copy of it.  This file has what each of them writes, as a
function of the fresh copy: `discoveryCommit`, `monitorCommit` and `reconcileCommit`.  The
first two may find that the fresh copy is newer than their own work and give up (`none`).

A fourth writer, the spec edit, never touches the status.
-/
import AuroraOperator.Controller.Memory

namespace AuroraOperator

namespace Controller

open Planner Render

/-! ## 1. What is written about instances and Services -/

def instanceStatus (instances : List InstancePlan) : List InstanceStatus :=
  instances.map fun entry =>
    { instanceName := entry.name
      endpoint := entry.endpoint
      port := entry.port
      role := entry.role
      availabilityZone := entry.availabilityZone
      dbiResourceId := entry.dbiResourceId
      disabled := entry.disabled
      healthy := entry.healthy
      desiredReplicas := entry.replicas
      readyReplicas := entry.readyReplicas
      consecutiveFailures := entry.consecutiveFailures
      consecutiveSuccesses := entry.consecutiveSuccesses
      reason := entry.reason }

/-- One more candidate, healthy or not. -/
def RoleServiceSummaryStatus.addCandidate (summary : RoleServiceSummaryStatus) (healthy : Bool) :
    RoleServiceSummaryStatus :=
  { summary with
    totalCandidates := summary.totalCandidates + 1
    healthy := if healthy then summary.healthy + 1 else summary.healthy
    unhealthy := if healthy then summary.unhealthy else summary.unhealthy + 1 }

/-- The second loop of `roleServiceSummary`, over the members.  `counted` holds the names that
are candidates already. -/
def summarizeMembers (instances : List InstancePlan) (role : Role) :
    List String → List String → RoleServiceSummaryStatus → RoleServiceSummaryStatus
  | [], _, summary => summary
  | member :: rest, counted, summary =>
    match planByName instances member with
    | none => summarizeMembers instances role rest counted summary
    | some entry =>
      let summary := if entry.readyReplicas > 0 then
        { summary with readyMembers := summary.readyMembers + 1 } else summary
      if role = .reader ∧ entry.role = .writer then
        let summary := { summary with fallbackFromWriter := true }
        if stringSet counted member then summarizeMembers instances role rest counted summary
        else summarizeMembers instances role rest (member :: counted)
          (RoleServiceSummaryStatus.addCandidate summary entry.healthy)
      else summarizeMembers instances role rest counted summary

def roleServiceSummary (resource : PgBouncerAurora) (instances : List InstancePlan)
    (members : List String) (role : Role) : RoleServiceSummaryStatus :=
  let candidates := instances.filter (·.role = role)
  let summary : RoleServiceSummaryStatus :=
    { serviceName := serviceNameForRole resource role
      desiredRole := some role
      members := Int32.ofNat members.length }
  summarizeMembers instances role members (candidates.map (·.name))
    (candidates.foldl (fun summary entry =>
      RoleServiceSummaryStatus.addCandidate summary entry.healthy) summary)

def serviceSummaryStatus (resource : PgBouncerAurora) (plan : Output) : ServiceSummaryStatus :=
  let active := activePlanInstances plan.instances
  { writer := roleServiceSummary resource active plan.membership.writer .writer
    reader := roleServiceSummary resource active plan.membership.reader .reader }

def membershipChanged (a b : List String) : Bool :=
  a.length ≠ b.length || b.any fun value => !stringSet a value

/-- `time.After`, with an unset time after nothing. -/
def isNewer (time : Option Int) (now : Int) : Bool := time.any (now < ·)

/-! ## 2. The discovery job -/

/-- `updateDiscoveryStatus`, between the fresh read and the write. -/
def discoveryCommit (discovery : DiscoveryResult) (missing : List MissingInstanceStatus)
    (discoveryFailed : Bool) (now : Int) (fresh : PgBouncerAurora) : Option Status :=
  let status := fresh.status
  if isNewer status.lastDiscoveryTime now then none
  else
    let topology := topologyStatus discovery.instances
    let status := { status with
      lastDiscoveryTime := some now
      consecutiveDiscoveryFailures :=
        if discoveryFailed then status.consecutiveDiscoveryFailures + 1 else 0
      conditions := discoveryOnlyConditions status.conditions discovery discoveryFailed now }
    some (if discovery.trusted then
      { status with
        lastKnownTopology := topology
        missingInstances := missing
        topologyHash := some (hashObject topology) }
    else status)

/-! ## 3. The monitor job -/

/-- `updateMonitorStatus`.  A topology hash that was never written stops nothing. -/
def monitorCommit (discovery : DiscoveryResult) (plan : Output) (monitorErr : String) (now : Int)
    (fresh : PgBouncerAurora) : Option Status :=
  let status := fresh.status
  let monitorTopologyHash := hashObject (topologyStatus discovery.instances)
  if isNewer status.lastMonitorTime now then none
  else if status.topologyHash.any (· ≠ monitorTopologyHash) then none
  else some { status with
    lastMonitorTime := some now
    instances := instanceStatus plan.instances
    serviceSummary := serviceSummaryStatus fresh plan
    conditions := conditionsFor fresh status.conditions discovery plan monitorErr now }

/-! ## 4. Reconcile -/

/-- What a Reconcile knows before it plans. -/
structure Evaluation where
  discovery : DiscoveryResult
  discoveryRan : Bool := false
  discoveryFailed : Bool := false
  health : StringMap HealthStatus := ∅
  monitorRan : Bool := false
  cachedHealth : Bool := true
  monitorErr : String := ""

/-- With a scheduler, a Reconcile observes nothing itself. -/
def scheduledEvaluation (resource : PgBouncerAurora) : Evaluation :=
  { discovery := cachedDiscovery resource
    health := healthFromStatus resource.status.instances }

/-- `updateStatus`.  `resource` is the snapshot the Reconcile worked on. -/
def reconcileCommit (resource : PgBouncerAurora) (evaluation : Evaluation) (plan : Output)
    (missing : List MissingInstanceStatus) (now : Int) (fresh : PgBouncerAurora) : Status :=
  let status := fresh.status
  let discovery := evaluation.discovery
  let discoveryWrites := evaluation.discoveryRan && !isNewer status.lastDiscoveryTime now
  let monitorNewer := isNewer status.lastMonitorTime now
  let monitorWrites := evaluation.monitorRan && !monitorNewer
  let topologyWrites := discovery.trusted && discoveryWrites
  let topology := if topologyWrites then topologyStatus discovery.instances
    else status.lastKnownTopology
  let membersChanged :=
    membershipChanged status.lastAppliedMembership.writer plan.membership.writer ||
    membershipChanged status.lastAppliedMembership.reader plan.membership.reader
  let membership := if !plan.frozen && membersChanged then plan.membership
    else status.lastAppliedMembership
  { observedGeneration := resource.generation
    lastDiscoveryTime := if discoveryWrites then some now else status.lastDiscoveryTime
    consecutiveDiscoveryFailures :=
      if discoveryWrites then
        if evaluation.discoveryFailed then resource.status.consecutiveDiscoveryFailures + 1 else 0
      else status.consecutiveDiscoveryFailures
    lastMonitorTime := if monitorWrites then some now else status.lastMonitorTime
    lastKnownTopology := topology
    topologyHash := if topologyWrites then some (hashObject topology) else status.topologyHash
    missingInstances :=
      if topologyWrites then missing
      else if discovery.trusted && !evaluation.discoveryRan &&
          hashObject (status.missingInstances.map MissingInstanceStatus.marshal) ≠
            hashObject (missing.map MissingInstanceStatus.marshal) then missing
      else status.missingInstances
    instances :=
      if !plan.frozen && (monitorWrites || status.instances.length = 0) then
        instanceStatus plan.instances
      else status.instances
    serviceSummary :=
      if monitorNewer then status.serviceSummary else serviceSummaryStatus resource plan
    lastAppliedTime :=
      if !plan.frozen && (membersChanged || status.lastAppliedTime.isNone) then some now
      else status.lastAppliedTime
    lastAppliedMembership := membership
    membershipHash := some (hashObject membership)
    conditions := conditionsFor resource status.conditions discovery plan evaluation.monitorErr now }

/-! ## 5. Field by field -/

section DiscoveryFields

variable {discovery : DiscoveryResult} {missing : List MissingInstanceStatus} {failed : Bool}
  {now : Int} {fresh : PgBouncerAurora} {next : Status}

theorem discoveryCommit_eq_some :
    (discoveryCommit discovery missing failed now fresh).isSome = true ↔
      isNewer fresh.status.lastDiscoveryTime now = false := by
  unfold discoveryCommit
  cases h : isNewer fresh.status.lastDiscoveryTime now <;> simp [h]

/-- A discovery commit never touches the membership, and stores the verdict of its result. -/
theorem discoveryCommit_frame (h : discoveryCommit discovery missing failed now fresh = some next) :
    next.lastAppliedMembership = fresh.status.lastAppliedMembership ∧
    next.lastAppliedTime = fresh.status.lastAppliedTime ∧
    next.instances = fresh.status.instances ∧
    next.observedGeneration = fresh.status.observedGeneration ∧
    next.lastDiscoveryTime = some now ∧
    discoveryVerdict next.conditions = discovery.trusted := by
  unfold discoveryCommit at h
  dsimp only at h
  split at h
  · cases h
  · cases h
    split <;> exact ⟨rfl, rfl, rfl, rfl, rfl, discoveryVerdict_discoveryOnly _ _ _ _⟩

theorem discoveryCommit_lastMonitorTime
    (h : discoveryCommit discovery missing failed now fresh = some next) :
    next.lastMonitorTime = fresh.status.lastMonitorTime := by
  unfold discoveryCommit at h
  dsimp only at h
  split at h
  · cases h
  · cases h
    split <;> rfl

theorem discoveryCommit_failures
    (h : discoveryCommit discovery missing failed now fresh = some next) :
    next.consecutiveDiscoveryFailures
      = if failed then fresh.status.consecutiveDiscoveryFailures + 1 else 0 := by
  unfold discoveryCommit at h
  dsimp only at h
  split at h
  · cases h
  · cases h
    split <;> rfl

theorem discoveryCommit_trusted (h : discoveryCommit discovery missing failed now fresh = some next)
    (ht : discovery.trusted = true) :
    next.lastKnownTopology = topologyStatus discovery.instances ∧
    next.missingInstances = missing ∧
    next.topologyHash = some (hashObject (topologyStatus discovery.instances)) := by
  simp only [discoveryCommit, ht, if_true] at h
  split at h
  · cases h
  · cases h
    exact ⟨rfl, rfl, rfl⟩

theorem discoveryCommit_untrusted
    (h : discoveryCommit discovery missing failed now fresh = some next)
    (ht : discovery.trusted = false) :
    next.lastKnownTopology = fresh.status.lastKnownTopology ∧
    next.missingInstances = fresh.status.missingInstances ∧
    next.topologyHash = fresh.status.topologyHash := by
  simp only [discoveryCommit, ht, Bool.false_eq_true, if_false] at h
  split at h
  · cases h
  · cases h
    exact ⟨rfl, rfl, rfl⟩

end DiscoveryFields

section MonitorFields

variable {discovery : DiscoveryResult} {plan : Output} {monitorErr : String} {now : Int}
  {fresh : PgBouncerAurora} {next : Status}

theorem monitorCommit_eq_some :
    monitorCommit discovery plan monitorErr now fresh = some next ↔
      isNewer fresh.status.lastMonitorTime now = false ∧
      fresh.status.topologyHash.all (· = hashObject (topologyStatus discovery.instances)) = true ∧
      next = { fresh.status with
        lastMonitorTime := some now
        instances := instanceStatus plan.instances
        serviceSummary := serviceSummaryStatus fresh plan
        conditions := conditionsFor fresh fresh.status.conditions discovery plan monitorErr now } := by
  have hguard : fresh.status.topologyHash.all (· = hashObject (topologyStatus discovery.instances))
      = !fresh.status.topologyHash.any (· ≠ hashObject (topologyStatus discovery.instances)) := by
    cases fresh.status.topologyHash <;> simp
  rw [hguard]
  unfold monitorCommit
  dsimp only
  cases isNewer fresh.status.lastMonitorTime now with
  | true => simp
  | false =>
    cases fresh.status.topologyHash.any (· ≠ hashObject (topologyStatus discovery.instances)) with
    | true => simp
    | false => simp [eq_comm]

/-- A monitor commit touches neither topology, missing list nor membership, and stores the
verdict it started from. -/
theorem monitorCommit_frame (h : monitorCommit discovery plan monitorErr now fresh = some next) :
    next.lastKnownTopology = fresh.status.lastKnownTopology ∧
    next.missingInstances = fresh.status.missingInstances ∧
    next.topologyHash = fresh.status.topologyHash ∧
    next.lastAppliedMembership = fresh.status.lastAppliedMembership ∧
    next.lastAppliedTime = fresh.status.lastAppliedTime ∧
    next.lastDiscoveryTime = fresh.status.lastDiscoveryTime ∧
    discoveryVerdict next.conditions = discovery.trusted := by
  obtain ⟨-, -, rfl⟩ := monitorCommit_eq_some.mp h
  exact ⟨rfl, rfl, rfl, rfl, rfl, rfl, discoveryVerdict_conditionsFor _ _ _ _ _ _⟩

theorem monitorCommit_failures (h : monitorCommit discovery plan monitorErr now fresh = some next) :
    next.consecutiveDiscoveryFailures = fresh.status.consecutiveDiscoveryFailures := by
  obtain ⟨-, -, rfl⟩ := monitorCommit_eq_some.mp h
  rfl

end MonitorFields

section ReconcileFields

variable (resource : PgBouncerAurora) (plan : Output) (missing : List MissingInstanceStatus)
  (now : Int) (fresh : PgBouncerAurora)

/-- A scheduled Reconcile leaves to the discovery job what is the discovery job's. -/
theorem reconcileCommit_frame :
    (reconcileCommit resource (scheduledEvaluation resource) plan missing now
      fresh).lastKnownTopology = fresh.status.lastKnownTopology ∧
    (reconcileCommit resource (scheduledEvaluation resource) plan missing now
      fresh).topologyHash = fresh.status.topologyHash ∧
    (reconcileCommit resource (scheduledEvaluation resource) plan missing now
      fresh).lastDiscoveryTime = fresh.status.lastDiscoveryTime := by
  simp [reconcileCommit, scheduledEvaluation]

theorem reconcileCommit_verdict (evaluation : Evaluation) :
    discoveryVerdict (reconcileCommit resource evaluation plan missing now fresh).conditions
      = evaluation.discovery.trusted :=
  discoveryVerdict_conditionsFor _ _ _ _ _ _

/-- The missing list of a scheduled Reconcile, in its stored form: its own list when the
snapshot was trusted, and the fresh one otherwise. -/
theorem reconcileCommit_missing :
    (reconcileCommit resource (scheduledEvaluation resource) plan missing now
        fresh).missingInstances.map MissingInstanceStatus.marshal
      = (if (cachedDiscovery resource).trusted then missing
        else fresh.status.missingInstances).map MissingInstanceStatus.marshal := by
  simp only [reconcileCommit, scheduledEvaluation, Bool.false_and, Bool.and_false,
    Bool.not_false, Bool.and_true, Bool.false_eq_true, if_false, ne_eq, hashObject_inj,
    decide_not, Bool.and_eq_true, Bool.not_eq_true', decide_eq_false_iff_not]
  cases ht : (cachedDiscovery resource).trusted with
  | false => simp
  | true =>
    by_cases heq : fresh.status.missingInstances.map MissingInstanceStatus.marshal
        = missing.map MissingInstanceStatus.marshal
    · simp [heq]
    · simp [heq]

/-- A frozen Reconcile leaves membership, its time and the instances alone. -/
theorem reconcileCommit_frozen (evaluation : Evaluation) (h : plan.frozen = true) :
    (reconcileCommit resource evaluation plan missing now fresh).lastAppliedMembership
      = fresh.status.lastAppliedMembership ∧
    (reconcileCommit resource evaluation plan missing now fresh).lastAppliedTime
      = fresh.status.lastAppliedTime ∧
    (reconcileCommit resource evaluation plan missing now fresh).instances
      = fresh.status.instances := by
  simp [reconcileCommit, h]

/-- An unfrozen one stores its membership, unless the stored one passes for the same. -/
theorem reconcileCommit_membership (evaluation : Evaluation) (h : plan.frozen = false) :
    (reconcileCommit resource evaluation plan missing now fresh).lastAppliedMembership
      = if membershipChanged fresh.status.lastAppliedMembership.writer plan.membership.writer ||
          membershipChanged fresh.status.lastAppliedMembership.reader plan.membership.reader
        then plan.membership else fresh.status.lastAppliedMembership := by
  simp [reconcileCommit, h]

end ReconcileFields

end Controller

end AuroraOperator

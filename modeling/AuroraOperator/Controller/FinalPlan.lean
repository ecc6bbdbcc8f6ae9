/-
# From the plan to the final plan

`Reconcile` does not apply what the planner returns.  Two functions of
`internal/controller/reconciler.go` come in between:

* `applyWriterFailoverFastPath` puts the one discovered writer behind the writer Service
  before the monitor has confirmed it, when the last applied writer is another instance and
  the new one has a ready pod;
* `applyZoneAwareConflictPolicy` freezes the plan when the spec asks for that and the
  instances' zones cannot be reconciled with the user's own scheduling constraints.
-/
import AuroraOperator.Render.Resources

namespace AuroraOperator

namespace Controller

open Planner Render

/-! ## 1. Pods -/

/-- The label selector of every list call: the objects of one resource. -/
def managed (resource : PgBouncerAurora) (labels : StringMap String) : Bool :=
  labels[labelManagedBy]? == some managedByValue &&
    labels[labelCluster]? == some (clusterLabelValue resource.name)

def podReady (pod : Pod) : Bool := !pod.deleting && pod.ready

/-- The instance a pod belongs to, "" when it has no such label. -/
def podInstance (pod : Pod) : String := pod.labels[labelInstance]?.getD ""

def readyPodCounts (pods : List Pod) : StringMap Int32 :=
  pods.foldl (fun counts pod =>
    if !podReady pod || podInstance pod = "" then counts
    else counts.insert (podInstance pod) (counts[podInstance pod]?.getD 0 + 1)) ∅

/-! ## 2. The failover fast path -/

/-- The loop of `singleDiscoveredWriter`, with the writer seen so far. -/
def singleDiscoveredWriterFrom (writer : String) : List InstanceObservation → String
  | [] => writer
  | observed :: rest =>
    if observed.role ≠ .writer then singleDiscoveredWriterFrom writer rest
    else if writer ≠ "" then ""
    else singleDiscoveredWriterFrom observed.name rest

def singleDiscoveredWriter (instances : List InstanceObservation) : String :=
  singleDiscoveredWriterFrom "" instances

def sameStringSet (left right : List String) : Bool :=
  left.length == right.length && right.all (stringSet left)

/-- The guards of the fast path, up to the pod count: the writer it would switch to. -/
def failoverCandidate (resource : PgBouncerAurora) (discovery : DiscoveryResult)
    (plan : Output) : Option String :=
  let newWriter := singleDiscoveredWriter discovery.instances
  let last := resource.status.lastAppliedMembership.writer
  if plan.frozen || !discovery.trusted then none
  else if newWriter = "" || sameStringSet last [newWriter] || last.length = 0 then none
  else if instanceDisabled resource.spec.pgbouncer newWriter then none
  else if sameStringSet plan.membership.writer [newWriter] then none
  else some newWriter

def raiseReadyReplicas (newWriter : String) (ready : Int32) (entry : InstancePlan) :
    InstancePlan :=
  if entry.name = newWriter ∧ entry.readyReplicas < ready then
    { entry with readyReplicas := ready }
  else entry

/-- What the fast path writes into the plan. -/
def switchWriter (plan : Output) (newWriter : String) (ready : Int32) : Output :=
  { plan with
    membership := { plan.membership with writer := [newWriter] }
    instances := plan.instances.map (raiseReadyReplicas newWriter ready)
    reasons := plan.reasons ++ ["writer failover fast path"] }

def applyWriterFailoverFastPath (resource : PgBouncerAurora) (discovery : DiscoveryResult)
    (readyCounts : StringMap Int32) (plan : Output) : Output :=
  match failoverCandidate resource discovery plan with
  | none => plan
  | some newWriter =>
    let ready := readyCounts[newWriter]?.getD 0
    if ready = 0 then plan else switchWriter plan newWriter ready

/-! ## 3. The plan of a scheduled Reconcile -/

/-- The health the last monitor run left in the status. -/
def healthFromStatus (statuses : List InstanceStatus) : StringMap HealthStatus :=
  statuses.foldl (fun out status =>
    if status.instanceName = "" then out
    else out.insert status.instanceName { healthy := status.healthy, reason := status.reason }) ∅

/-- In scheduled mode a Reconcile observes nothing itself: it plans over a cached discovery
and the cached health. -/
def scheduledInput (resource : PgBouncerAurora) (discovery : DiscoveryResult)
    (missing : List MissingInstanceStatus) : Input :=
  { resource := resource
    discoveryTrusted := discovery.trusted
    discovered := discovery.instances
    health := healthFromStatus resource.status.instances
    cachedHealth := true
    missingInstances := missing }

/-- `planner.Plan`, then the fast path. -/
def scheduledPlan (resource : PgBouncerAurora) (discovery : DiscoveryResult)
    (missing : List MissingInstanceStatus) (pods : List Pod) : Output :=
  applyWriterFailoverFastPath resource discovery (readyPodCounts pods)
    (plan (scheduledInput resource discovery missing))

/-! ## 4. The zone policy -/

def activePlanInstances (instances : List InstancePlan) : List InstancePlan :=
  instances.filter fun entry => !entry.disabled

/-- The `firstNonEmpty` of this package, which does trim. -/
def firstNonBlank (value fallback : String) : String :=
  if trimSpace value ≠ "" then value else if trimSpace fallback ≠ "" then fallback else ""

/-- The first expression on the key that uses one of the four operators decides. -/
def nodeSelectorTermAllowsZone (term : NodeSelectorTerm) (topologyKey zone : String) : Bool :=
  let verdicts := term.matchExpressions.filterMap fun expression =>
    if expression.key ≠ topologyKey then none
    else match expression.operator with
      | .In => some (expression.values.contains zone)
      | .NotIn => some (!expression.values.contains zone)
      | .Exists => some true
      | .DoesNotExist => some false
      | .Gt | .Lt => none
  verdicts.headD true

def requiredNodeAffinityConflicts (affinity : Option Affinity) (topologyKey zone : String) :
    Bool :=
  match (affinity.bind (·.nodeAffinity)).bind (·.required) with
  | none | some [] => false
  | some terms => !terms.any (nodeSelectorTermAllowsZone · topologyKey zone)

def hasTopologySpreadOnKey (resource : PgBouncerAurora) (topologyKey : String) : Bool :=
  resource.spec.pgbouncer.topologySpreadConstraints.any (·.topologyKey == topologyKey)

/-- The conflicts one active instance has with the user's constraints. -/
def zoneConflictMessages (resource : PgBouncerAurora) (topologyKey : String)
    (entry : InstancePlan) : List String :=
  if entry.availabilityZone = "" then []
  else
    let required := entry.name ++ " requires " ++ topologyKey ++ "=" ++ entry.availabilityZone
    let bySelector := match resource.spec.pgbouncer.nodeSelector[topologyKey]? with
      | some selected =>
        if selected ≠ entry.availabilityZone then
          [required ++ " but nodeSelector fixes " ++ topologyKey ++ "=" ++ selected]
        else []
      | none => []
    let byAffinity :=
      if requiredNodeAffinityConflicts resource.spec.pgbouncer.affinity topologyKey
          entry.availabilityZone then
        [required ++ " but required nodeAffinity excludes it"]
      else []
    bySelector ++ byAffinity

/-- Status, reason and message of one condition. -/
structure Verdict where
  status : ConditionStatus
  reason : String
  message : String := ""
  deriving DecidableEq, Repr

def zoneAwareConflictCondition (resource : PgBouncerAurora) (plan : Output) : Verdict :=
  let zoneAware := resource.spec.topologyPolicy.zoneAware
  if !enabledDefaultTrue zoneAware.enabled then ⟨.false, "ZoneAwareDisabled", ""⟩
  else
    let policy := zoneAware.conflictPolicy.getD .warn
    if policy = .ignore then ⟨.false, "ConflictIgnored", ""⟩
    else
      let topologyKey := firstNonBlank zoneAware.topologyKey "topology.kubernetes.io/zone"
      let perInstance := (activePlanInstances plan.instances).flatMap
        (zoneConflictMessages resource topologyKey)
      let spread :=
        if zoneAware.enforcement = some .required ∧ hasTopologySpreadOnKey resource topologyKey then
          ["zoneAware Required pins pods to a single " ++ topologyKey ++
            " while topologySpreadConstraints also spread by " ++ topologyKey]
        else []
      let messages := perInstance ++ spread
      if messages.length = 0 then ⟨.false, "NoZoneAwareConflict", ""⟩
      else ⟨.true, if policy = .fail then "ZoneAwareConflictFail" else "ZoneAwareConflictWarn",
        joinStrings (sortStrings messages) "; "⟩

def applyZoneAwareConflictPolicy (resource : PgBouncerAurora) (plan : Output) : Output :=
  if plan.frozen || resource.spec.topologyPolicy.zoneAware.conflictPolicy ≠ some .fail then plan
  else
    let verdict := zoneAwareConflictCondition resource plan
    if verdict.status ≠ .true then plan
    else
      let message := if verdict.message = "" then verdict.reason else verdict.message
      { plan with frozen := true
                  reasons := plan.reasons ++ ["zoneAware conflict: " ++ message] }

/-- The zone policy only ever freezes. -/
theorem zonePolicy_cases (resource : PgBouncerAurora) (plan : Output) :
    applyZoneAwareConflictPolicy resource plan = plan ∨
      (applyZoneAwareConflictPolicy resource plan).frozen = true := by
  unfold applyZoneAwareConflictPolicy
  split
  · exact Or.inl rfl
  · dsimp only
    split
    · exact Or.inl rfl
    · exact Or.inr rfl

theorem zonePolicy_instances (resource : PgBouncerAurora) (plan : Output) :
    (applyZoneAwareConflictPolicy resource plan).instances = plan.instances := by
  unfold applyZoneAwareConflictPolicy
  split
  · rfl
  · dsimp only
    split <;> rfl

/-- A plan that leaves the zone policy unfrozen went through it untouched. -/
theorem zonePolicy_eq_of_not_frozen {resource : PgBouncerAurora} {plan : Output}
    (h : (applyZoneAwareConflictPolicy resource plan).frozen = false) :
    applyZoneAwareConflictPolicy resource plan = plan := by
  rcases zonePolicy_cases resource plan with heq | hfrozen
  · exact heq
  · rw [hfrozen] at h
    exact absurd h (by simp)

theorem zonePolicy_frozen {resource : PgBouncerAurora} {plan : Output}
    (h : plan.frozen = true) : applyZoneAwareConflictPolicy resource plan = plan := by
  simp [applyZoneAwareConflictPolicy, h]

end Controller

end AuroraOperator

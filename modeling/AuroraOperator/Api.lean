/-
# The `PgBouncerAurora` resource

`api/v1alpha1/pgbounceraurora_types.go` and `internal/domain/topology.go`: the spec, the
status and the values that travel between discovery, the planner and the controller.

An optional enumeration is an `Option`: the empty string of the source is `none`, and the
CRD schema admits no other value.  The discovery and authentication fields that only the
SQL and RDS clients read are left out.

**Stored statuses.**  The API server keeps a status in its JSON form, so every time in it
has been cut to whole seconds (`Status.marshal`).  `StoredResource` carries that fact as a
field: a resource that could not have come back from the API server cannot be built.
-/
import AuroraOperator.Kube

namespace AuroraOperator

/-! ## 1. The spec -/

structure DiscoverySpec where
  clusterName : String := ""
  domainName : String := ""
  port : Int32 := 0
  interval : Int := 0
  timeout : Int := 0
  failureThreshold : Int32 := 0
  deriving DecidableEq, Repr

structure MonitorSpec where
  interval : Int := 0
  timeout : Int := 0
  failureThreshold : Int32 := 0
  recoveryThreshold : Int32 := 0
  deriving DecidableEq, Repr

structure PgBouncerConfigSpec where
  pgbouncer : StringMap String := ∅
  databases : StringMap (StringMap String) := ∅
  users : StringMap (StringMap String) := ∅
  peers : StringMap (StringMap String) := ∅
  deriving DecidableEq

structure InstanceOverrideSpec where
  name : String
  enabled : Option Bool := none
  replicas : Int32 := 0
  config : PgBouncerConfigSpec := {}
  deriving DecidableEq

structure PgBouncerSpec where
  image : String := ""
  replicas : Option Int32 := none
  config : PgBouncerConfigSpec := {}
  instanceOverrides : List InstanceOverrideSpec := []
  authFileSecretRef : String := ""
  labels : StringMap String := ∅
  annotations : StringMap Value := ∅
  resources : ResourceRequirements := {}
  serviceAccountName : String := ""
  nodeSelector : StringMap String := ∅
  affinity : Option Affinity := none
  tolerations : List Raw := []
  priorityClassName : String := ""
  runtimeClassName : String := ""
  podSecurityContext : Option SecurityContext := none
  containerSecurityContext : Option SecurityContext := none
  livenessProbe : Option Probe := none
  readinessProbe : Option Probe := none
  sidecars : List Container := []
  volumes : List Volume := []
  volumeMounts : List VolumeMount := []
  imagePullSecrets : List String := []
  topologySpreadConstraints : List TopologySpreadConstraint := []
  /-- Where the parts that are copied into a pod template spell out an empty map or list. -/
  hollow : List String := []
  deriving DecidableEq

structure ServiceRoleSpec where
  name : String := ""
  type : Option ServiceType := none
  annotations : StringMap Value := ∅
  deriving DecidableEq

structure PerInstanceServiceSpec where
  type : Option ServiceType := none
  annotations : StringMap Value := ∅
  deriving DecidableEq

structure ServicesSpec where
  writer : ServiceRoleSpec := {}
  reader : ServiceRoleSpec := {}
  perInstances : PerInstanceServiceSpec := {}
  deriving DecidableEq

inductive ZoneAwareEnforcement
  | preferred | required
  deriving DecidableEq, Repr

inductive ZoneAwareConflictPolicy
  | warn | fail | ignore
  deriving DecidableEq, Repr

structure ZoneAwareSpec where
  enabled : Option Bool := none
  enforcement : Option ZoneAwareEnforcement := none
  topologyKey : String := ""
  conflictPolicy : Option ZoneAwareConflictPolicy := none
  deriving DecidableEq, Repr

structure TopologyPolicySpec where
  removeAfterMissingCount : Int32 := 0
  removedInstanceRetention : Int := 0
  writerChangeConnectionHandling : Option WriterChangeConnectionHandling := none
  readerEmptyFallback : Option Bool := none
  zoneAware : ZoneAwareSpec := {}
  deriving DecidableEq, Repr

structure PgBouncerAuroraSpec where
  discovery : DiscoverySpec := {}
  monitor : MonitorSpec := {}
  pgbouncer : PgBouncerSpec := {}
  services : ServicesSpec := {}
  topologyPolicy : TopologyPolicySpec := {}
  deriving DecidableEq

/-! ## 2. The status -/

structure InstanceTopologyStatus where
  instanceName : String
  endpoint : String := ""
  port : Int32 := 0
  role : Role
  availabilityZone : String := ""
  dbiResourceId : String := ""
  deriving DecidableEq, Repr

structure MembershipStatus where
  writer : List String := []
  reader : List String := []
  deriving DecidableEq, Repr

structure MissingInstanceStatus where
  instanceName : String
  missingCount : Int32 := 0
  firstMissingTime : Option Int := none
  lastMissingTime : Option Int := none
  deriving DecidableEq, Repr

structure RoleServiceSummaryStatus where
  serviceName : String := ""
  desiredRole : Option Role := none
  totalCandidates : Int32 := 0
  healthy : Int32 := 0
  unhealthy : Int32 := 0
  members : Int32 := 0
  readyMembers : Int32 := 0
  fallbackFromWriter : Bool := false
  deriving DecidableEq, Repr

structure ServiceSummaryStatus where
  writer : RoleServiceSummaryStatus := {}
  reader : RoleServiceSummaryStatus := {}
  deriving DecidableEq, Repr

structure InstanceStatus where
  instanceName : String
  endpoint : String := ""
  port : Int32 := 0
  role : Role
  availabilityZone : String := ""
  dbiResourceId : String := ""
  disabled : Bool := false
  healthy : Bool := false
  desiredReplicas : Int32 := 0
  readyReplicas : Int32 := 0
  consecutiveFailures : Int32 := 0
  consecutiveSuccesses : Int32 := 0
  reason : String := ""
  deriving DecidableEq, Repr

/-- The condition types `conditionsFor` writes. -/
inductive ConditionType
  | discoveryTrusted | monitorSucceeded | reconciled | frozen | backendHealthy | writerReady
  | readerReady | readerFallback | readerFallbackSuppressed | roleMismatch
  | trafficTransitioning | zoneAwareConflict | degraded
  deriving DecidableEq, Repr

inductive ConditionStatus
  | true | false | unknown
  deriving DecidableEq, Repr

structure Condition where
  type : ConditionType
  status : ConditionStatus
  reason : String := ""
  message : String := ""
  lastTransitionTime : Int := 0
  deriving DecidableEq, Repr

/-- A hash field that was never written is `none`. -/
structure Status where
  observedGeneration : Int := 0
  topologyHash : Option (Digest (List InstanceTopologyStatus)) := none
  membershipHash : Option (Digest MembershipStatus) := none
  consecutiveDiscoveryFailures : Int32 := 0
  lastDiscoveryTime : Option Int := none
  lastMonitorTime : Option Int := none
  lastAppliedTime : Option Int := none
  lastKnownTopology : List InstanceTopologyStatus := []
  lastAppliedMembership : MembershipStatus := {}
  serviceSummary : ServiceSummaryStatus := {}
  missingInstances : List MissingInstanceStatus := []
  instances : List InstanceStatus := []
  conditions : List Condition := []
  deriving DecidableEq, Repr

structure PgBouncerAurora where
  name : String
  nameSpace : String := ""
  uid : String := ""
  generation : Int := 1
  spec : PgBouncerAuroraSpec := {}
  status : Status := {}
  deriving DecidableEq

/-! ## 3. Values in flight (`internal/domain`) -/

structure InstanceObservation where
  name : String
  endpoint : String := ""
  port : Int32 := 0
  role : Role
  availabilityZone : String := ""
  dbiResourceId : String := ""
  deriving DecidableEq, Repr

structure DiscoveryResult where
  trusted : Bool
  instances : List InstanceObservation := []
  reason : String := ""
  deriving DecidableEq, Repr

structure HealthStatus where
  healthy : Bool
  reason : String := ""
  readyReplicas : Int32 := 0
  deriving DecidableEq, Repr

structure InstancePlan extends InstanceObservation where
  healthy : Bool := false
  disabled : Bool := false
  reason : String := ""
  replicas : Int32 := 0
  readyReplicas : Int32 := 0
  consecutiveFailures : Int32 := 0
  consecutiveSuccesses : Int32 := 0
  deriving DecidableEq, Repr

abbrev ServiceMembership := MembershipStatus

/-! ## 4. The stored form -/

def MissingInstanceStatus.marshal (m : MissingInstanceStatus) : MissingInstanceStatus :=
  { m with firstMissingTime := m.firstMissingTime.map wholeSeconds
           lastMissingTime := m.lastMissingTime.map wholeSeconds }

def Condition.marshal (c : Condition) : Condition :=
  { c with lastTransitionTime := wholeSeconds c.lastTransitionTime }

/-- The JSON form of a status: the same status, with every time cut to whole seconds. -/
def Status.marshal (s : Status) : Status :=
  { s with lastDiscoveryTime := s.lastDiscoveryTime.map wholeSeconds
           lastMonitorTime := s.lastMonitorTime.map wholeSeconds
           lastAppliedTime := s.lastAppliedTime.map wholeSeconds
           missingInstances := s.missingInstances.map MissingInstanceStatus.marshal
           conditions := s.conditions.map Condition.marshal }

theorem map_wholeSeconds_idem (t : Option Int) :
    (t.map wholeSeconds).map wholeSeconds = t.map wholeSeconds := by
  cases t <;> simp

@[simp] theorem MissingInstanceStatus.marshal_idem (m : MissingInstanceStatus) :
    m.marshal.marshal = m.marshal := by
  simp only [MissingInstanceStatus.marshal, map_wholeSeconds_idem]

@[simp] theorem Condition.marshal_idem (c : Condition) : c.marshal.marshal = c.marshal := by
  simp only [Condition.marshal, wholeSeconds_idem]

/-- Storing what was stored changes nothing. -/
@[simp] theorem Status.marshal_idem (s : Status) : s.marshal.marshal = s.marshal := by
  have hm : MissingInstanceStatus.marshal ∘ MissingInstanceStatus.marshal
      = MissingInstanceStatus.marshal := funext MissingInstanceStatus.marshal_idem
  have hc : Condition.marshal ∘ Condition.marshal = Condition.marshal :=
    funext Condition.marshal_idem
  simp only [Status.marshal, map_wholeSeconds_idem, List.map_map, hm, hc]

section MarshalFields

variable (s : Status)

@[simp] theorem Status.marshal_lastKnownTopology :
    s.marshal.lastKnownTopology = s.lastKnownTopology := rfl

@[simp] theorem Status.marshal_lastAppliedMembership :
    s.marshal.lastAppliedMembership = s.lastAppliedMembership := rfl

@[simp] theorem Status.marshal_topologyHash : s.marshal.topologyHash = s.topologyHash := rfl

@[simp] theorem Status.marshal_instances : s.marshal.instances = s.instances := rfl

@[simp] theorem Status.marshal_missingInstances :
    s.marshal.missingInstances = s.missingInstances.map MissingInstanceStatus.marshal := rfl

@[simp] theorem Status.marshal_conditions :
    s.marshal.conditions = s.conditions.map Condition.marshal := rfl

@[simp] theorem Status.marshal_lastDiscoveryTime :
    s.marshal.lastDiscoveryTime = s.lastDiscoveryTime.map wholeSeconds := rfl

@[simp] theorem Status.marshal_lastAppliedTime :
    s.marshal.lastAppliedTime = s.lastAppliedTime.map wholeSeconds := rfl

end MarshalFields

@[simp] theorem MissingInstanceStatus.marshal_instanceName (m : MissingInstanceStatus) :
    m.marshal.instanceName = m.instanceName := rfl

@[simp] theorem MissingInstanceStatus.marshal_missingCount (m : MissingInstanceStatus) :
    m.marshal.missingCount = m.missingCount := rfl

@[simp] theorem Condition.marshal_type (c : Condition) : c.marshal.type = c.type := rfl

@[simp] theorem Condition.marshal_status (c : Condition) : c.marshal.status = c.status := rfl

/-- A resource as the API server holds it. -/
structure StoredResource where
  resource : PgBouncerAurora
  canonical : resource.status.marshal = resource.status

namespace StoredResource

/-- A new resource, with the empty status. -/
def create (name : String) (spec : PgBouncerAuroraSpec) : StoredResource :=
  ⟨{ name := name, spec := spec }, rfl⟩

/-- `Status().Update`: the status is replaced, the rest stays. -/
def updateStatus (s : StoredResource) (status : Status) : StoredResource :=
  ⟨{ s.resource with status := status.marshal }, Status.marshal_idem status⟩

/-- An edit of the spec.  The API server bumps the generation and leaves the status. -/
def editSpec (s : StoredResource) (spec : PgBouncerAuroraSpec) : StoredResource :=
  ⟨{ s.resource with spec := spec, generation := s.resource.generation + 1 }, s.canonical⟩

@[simp] theorem updateStatus_status (s : StoredResource) (status : Status) :
    (s.updateStatus status).resource.status = status.marshal := rfl

@[simp] theorem editSpec_status (s : StoredResource) (spec : PgBouncerAuroraSpec) :
    (s.editSpec spec).resource.status = s.resource.status := rfl

/-- An update that changes nothing visible leaves the stored resource as it was. -/
theorem updateStatus_self {s : StoredResource} {status : Status}
    (h : status.marshal = s.resource.status) : s.updateStatus status = s := by
  obtain ⟨r, hr⟩ := s
  simp only [updateStatus, h]

theorem marshal_missingInstances (s : StoredResource) :
    s.resource.status.missingInstances.map MissingInstanceStatus.marshal
      = s.resource.status.missingInstances := by
  conv_rhs => rw [← s.canonical]
  rfl

theorem marshal_missing (s : StoredResource) {m : MissingInstanceStatus}
    (hm : m ∈ s.resource.status.missingInstances) : m.marshal = m :=
  List.map_inj_left.mp (s.marshal_missingInstances.trans (List.map_id _).symm) m hm

end StoredResource

end AuroraOperator

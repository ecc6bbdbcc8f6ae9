/-
# The Kubernetes objects the operator reads and writes

The operator renders ConfigMaps, Deployments and Services and labels Pods.  This file has
the object types of `k8s.io/api` as far as the operator looks into them.  What it copies
from the spec into a pod template without looking inside (tolerations, resources, security
contexts, ...) is a `Raw`: the JSON text of that part, compared as a whole.

An annotation value is a `Value`, not a bare string, because some of the annotations the
operator writes are SHA-256 digests; see `Go.lean` for how those are modelled.
-/
import AuroraOperator.Go

namespace AuroraOperator

/-- A part of an object that is copied and compared, never inspected. -/
structure Raw where
  json : String
  deriving DecidableEq, Repr

/-! ## 1. Node selection -/

inductive NodeSelectorOperator
  | In | NotIn | Exists | DoesNotExist | Gt | Lt
  deriving DecidableEq, Repr

structure NodeSelectorRequirement where
  key : String
  operator : NodeSelectorOperator
  values : List String := []
  deriving DecidableEq, Repr

structure NodeSelectorTerm where
  matchExpressions : List NodeSelectorRequirement := []
  matchFields : List NodeSelectorRequirement := []
  deriving DecidableEq, Repr

structure PreferredSchedulingTerm where
  weight : Int32
  preference : NodeSelectorTerm
  deriving DecidableEq, Repr

/-- `required` is `RequiredDuringSchedulingIgnoredDuringExecution`, a list of alternative
terms when it is set; `preferred` is its preferred counterpart. -/
structure NodeAffinity where
  required : Option (List NodeSelectorTerm) := none
  preferred : List PreferredSchedulingTerm := []
  deriving DecidableEq, Repr

structure Affinity where
  nodeAffinity : Option NodeAffinity := none
  podAffinity : Option Raw := none
  podAntiAffinity : Option Raw := none
  deriving DecidableEq, Repr

structure TopologySpreadConstraint where
  topologyKey : String
  rest : Raw
  deriving DecidableEq, Repr

/-! ## 2. Pods and their templates -/

structure ContainerPort where
  name : String := ""
  containerPort : Int32
  protocol : String := ""
  rest : Option Raw := none
  deriving DecidableEq, Repr

/-- What a probe does, when it does anything.  A port that has a name is part of the `rest`. -/
inductive ProbeHandler
  | tcpSocket (port : Int32) (rest : Option Raw := none)
  | httpGet (scheme : String) (rest : Raw)
  | exec (command : Raw)
  | grpc (rest : Raw)
  deriving DecidableEq, Repr

structure Probe where
  handler : Option ProbeHandler := none
  initialDelaySeconds : Int32 := 0
  timeoutSeconds : Int32 := 0
  periodSeconds : Int32 := 0
  successThreshold : Int32 := 0
  failureThreshold : Int32 := 0
  rest : Option Raw := none
  deriving DecidableEq, Repr

structure VolumeMount where
  name : String
  mountPath : String
  subPath : String := ""
  readOnly : Bool := false
  rest : Option Raw := none
  deriving DecidableEq, Repr

inductive VolumeSource
  | configMap (name : String) (defaultMode : Option Int32) (rest : Option Raw := none)
  | secret (secretName : String) (defaultMode : Option Int32) (rest : Option Raw := none)
  | other (rest : Raw)
  deriving DecidableEq, Repr

structure Volume where
  name : String
  source : VolumeSource
  deriving DecidableEq, Repr

/-- `limits` and `requests` are `none` when the map is empty. -/
structure ResourceRequirements where
  limits : Option Raw := none
  requests : Option Raw := none
  claims : Option Raw := none
  deriving DecidableEq, Repr

/-- A security context is `none` when unset; `some none` is the empty one. -/
abbrev SecurityContext := Option Raw

structure Container where
  name : String
  image : String := ""
  imagePullPolicy : String := ""
  ports : List ContainerPort := []
  readinessProbe : Option Probe := none
  livenessProbe : Option Probe := none
  startupProbe : Option Probe := none
  resources : ResourceRequirements := {}
  securityContext : Option SecurityContext := none
  volumeMounts : List VolumeMount := []
  terminationMessagePath : String := ""
  terminationMessagePolicy : String := ""
  rest : Option Raw := none
  deriving DecidableEq, Repr

structure PodSpec where
  serviceAccountName : String := ""
  deprecatedServiceAccount : String := ""
  nodeSelector : StringMap String := ∅
  affinity : Option Affinity := none
  tolerations : List Raw := []
  imagePullSecrets : List String := []
  topologySpreadConstraints : List TopologySpreadConstraint := []
  priorityClassName : String := ""
  runtimeClassName : Option String := none
  securityContext : Option SecurityContext := none
  initContainers : List Container := []
  containers : List Container := []
  volumes : List Volume := []
  restartPolicy : String := ""
  dnsPolicy : String := ""
  schedulerName : String := ""
  terminationGracePeriodSeconds : Option Int := none
  enableServiceLinks : Option Bool := none
  deriving DecidableEq

/-! ## 3. Object metadata -/

/-- The metadata of a Secret that `authFileMetadataHash` digests. -/
structure AuthFileMetadata where
  nameSpace : String
  name : String
  uid : String
  resourceVersion : String
  deriving DecidableEq, Repr

inductive Role
  | writer | reader
  deriving DecidableEq, Repr

/-- The string behind a `Role`. -/
def Role.text : Role → String
  | .writer => "writer"
  | .reader => "reader"

inductive WriterChangeConnectionHandling
  | keepExisting | restartWriters | restartAll
  deriving DecidableEq, Repr

/-- The part of an instance that decides whether its objects must be applied again. -/
structure InstanceApplyShape where
  name : String
  endpoint : String
  port : Int32
  role : Role
  availabilityZone : String
  dbiResourceId : String
  disabled : Bool
  replicas : Int32
  deriving DecidableEq, Repr

/-- What the restart annotation is a digest of. -/
structure WriterRestartTokenPayload where
  policy : WriterChangeConnectionHandling
  previousWriter : List String
  desiredWriter : List String
  restartTargets : List String
  instances : List InstanceApplyShape
  deriving DecidableEq, Repr

/-- The value of an annotation. -/
inductive Value
  | text (s : String)
  | textHash (digest : Digest String)
  | authFileHash (digest : Digest AuthFileMetadata)
  | restartToken (digest : Digest WriterRestartTokenPayload)
  deriving DecidableEq, Repr

structure OwnerReference where
  name : String
  uid : String
  deriving DecidableEq, Repr

/-- The namespace is left out: every object of one resource lives in that resource's
namespace, and the operator lists and reads nowhere else. -/
structure ObjectMeta where
  name : String
  labels : StringMap String := ∅
  annotations : StringMap Value := ∅
  ownerReferences : List OwnerReference := []
  deriving DecidableEq

structure PodTemplateSpec where
  labels : StringMap String := ∅
  annotations : StringMap Value := ∅
  spec : PodSpec := {}
  deriving DecidableEq

/-! ## 4. The objects -/

structure ConfigMap where
  metadata : ObjectMeta
  data : StringMap String := ∅
  binaryData : StringMap String := ∅
  deriving DecidableEq

structure Deployment where
  metadata : ObjectMeta
  replicas : Option Int32 := none
  strategyType : String := ""
  rollingUpdate : Option (Int × Int) := none
  selector : StringMap String := ∅
  template : PodTemplateSpec := {}
  deriving DecidableEq

inductive ServiceType
  | clusterIP | nodePort | loadBalancer | externalName
  deriving DecidableEq, Repr

structure ServicePort where
  name : String := ""
  protocol : String := ""
  port : Int32
  targetPort : Int32
  nodePort : Int32 := 0
  appProtocol : Option String := none
  deriving DecidableEq, Repr

structure ServiceSpec where
  type : ServiceType := .clusterIP
  selector : StringMap String := ∅
  ports : List ServicePort := []
  clusterIP : String := ""
  clusterIPs : List String := []
  ipFamilies : List String := []
  ipFamilyPolicy : Option String := none
  loadBalancerClass : Option String := none
  healthCheckNodePort : Int32 := 0
  externalTrafficPolicy : String := ""
  deriving DecidableEq

structure Service where
  metadata : ObjectMeta
  spec : ServiceSpec := {}
  deriving DecidableEq

/-- `ready` is the truth of the `PodReady` condition. -/
structure Pod where
  labels : StringMap String := ∅
  ready : Bool := false
  deleting : Bool := false
  deriving DecidableEq

structure Secret where
  uid : String
  resourceVersion : String
  deriving DecidableEq, Repr

/-- The objects of one namespace, each kind keyed by object name. -/
structure Cluster where
  configMaps : StringMap ConfigMap := ∅
  deployments : StringMap Deployment := ∅
  services : StringMap Service := ∅
  pods : StringMap Pod := ∅
  secrets : StringMap Secret := ∅
  deriving DecidableEq

/-! ## 5. Empty maps and lists -/

/-- A map or list that is *hollow*: there, but empty.  The maps and lists above do not tell it from
one that is nil, and neither does the store, where both are left out: an object that is read has no
hollow part.  Go's `reflect.DeepEqual` does.  The parts that a merge may replace have constructors
of their own. -/
inductive Part
  | labels | annotations | templateAnnotations | nodeSelector | clusterIPs | ipFamilies
  | other (path : String)
  deriving DecidableEq, Repr

end AuroraOperator

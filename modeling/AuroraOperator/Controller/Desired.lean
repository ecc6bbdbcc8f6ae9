/-
# Bringing an object to its desired form

`copyDesired` turns an existing object into the rendered one.  It is not an assignment: the
cluster owns some fields (allocated IPs and node ports), and the operator itself leaves marks
on a Deployment that the renderer does not know of (the restart annotation, the identity of
the database instance).

The second half of the file is the opposite question: does an existing object still look like
the rendered one?  `podTemplateSemanticallyEqual` compares two pod templates up to what the
API server fills in.
-/
import AuroraOperator.Controller.Server

namespace AuroraOperator

namespace Controller

open Planner Render

/-! ## 1. Services -/

def servicePortKey (port : ServicePort) : String :=
  if port.name ≠ "" then "name:" ++ port.name
  else port.protocol ++ ":" ++ toString port.port

def shouldPreserveNodePorts (target : ServiceSpec) : Bool :=
  target.type = .nodePort || target.type = .loadBalancer

def shouldPreserveHealthCheckNodePort (target : ServiceSpec) : Bool :=
  target.type = .loadBalancer && target.externalTrafficPolicy = "Local"

/-- The last allocated node port of a key wins. -/
def preserveServiceNodePorts (target allocated : List ServicePort) : List ServicePort :=
  target.map fun port =>
    match allocated.reverse.find? fun old =>
        old.nodePort ≠ 0 && servicePortKey old = servicePortKey port with
    | some old => { port with nodePort := old.nodePort }
    | none => port

def preserveServiceAllocatedFields (target allocated : ServiceSpec) : ServiceSpec :=
  { target with
    clusterIP := if allocated.clusterIP ≠ "" then allocated.clusterIP else target.clusterIP
    clusterIPs := if allocated.clusterIP ≠ "" then allocated.clusterIPs else target.clusterIPs
    ipFamilies := if allocated.ipFamilies.length > 0 then allocated.ipFamilies
      else target.ipFamilies
    ipFamilyPolicy := allocated.ipFamilyPolicy.or target.ipFamilyPolicy
    loadBalancerClass := allocated.loadBalancerClass.or target.loadBalancerClass
    healthCheckNodePort :=
      if shouldPreserveHealthCheckNodePort target && allocated.healthCheckNodePort ≠ 0 then
        allocated.healthCheckNodePort
      else target.healthCheckNodePort
    ports := if shouldPreserveNodePorts target then
        preserveServiceNodePorts target.ports allocated.ports
      else target.ports }

/-! ## 2. Deployments -/

/-- A label, trimmed; `none` when nothing is left of it. -/
def trimmedLabel (labels : StringMap String) (key : String) : Option String :=
  match labels[key]? with
  | none => none
  | some value => if trimSpace value = "" then none else some (trimSpace value)

/-- The same of an annotation.  A digest has nothing to trim. -/
def trimmedValue (annotations : StringMap Value) (key : String) : Option Value :=
  match annotations[key]? with
  | none => none
  | some (.text value) => if trimSpace value = "" then none else some (.text (trimSpace value))
  | some value => some value

def deploymentDbiLabel (deployment : Deployment) : Option String :=
  trimmedLabel deployment.metadata.labels labelDbiResourceID

/-- The identity `source` does not know is kept from the existing Deployment. -/
def preserveDeploymentDbiIdentity (target source : Deployment) (previousLabel : Option String)
    (previousValue : Option Value) : Deployment :=
  let labels := match deploymentDbiLabel source, previousLabel with
    | none, some value => target.metadata.labels.insert labelDbiResourceID value
    | _, _ => target.metadata.labels
  let annotations :=
    match trimmedValue source.metadata.annotations annotationDbiResourceID,
        previousValue with
    | none, some value => target.metadata.annotations.insert annotationDbiResourceID value
    | _, _ => target.metadata.annotations
  { target with metadata := { target.metadata with labels := labels, annotations := annotations } }

/-- The restart annotation of a Deployment's pod template; the empty string counts as none. -/
def restartMark (deployment : Deployment) : Option Value :=
  match deployment.template.annotations[restartedAtAnnotationKey]? with
  | some (.text "") => none
  | value => value

def setRestartMark (deployment : Deployment) (token : Value) : Deployment :=
  { deployment with template := { deployment.template with
      annotations := deployment.template.annotations.insert restartedAtAnnotationKey token } }

def preserveRestartAnnotations (target : Deployment) (token : Option Value) : Deployment :=
  match token with
  | none => target
  | some token => setRestartMark target token

/-! ## 3. `copyDesired` -/

/-- The metadata part, common to all kinds: the name stays. -/
def copyMetadata (existing desired : ObjectMeta) : ObjectMeta :=
  { existing with labels := desired.labels
                  annotations := desired.annotations
                  ownerReferences := desired.ownerReferences }

def copyDesired : (kind : Kind) → (existing desired : kind.Object) → kind.Object
  | .configMap, existing, desired =>
    ({ metadata := copyMetadata (ConfigMap.metadata existing) (ConfigMap.metadata desired)
       data := ConfigMap.data desired
       binaryData := ConfigMap.binaryData desired } : ConfigMap)
  | .service, existing, desired =>
    ({ metadata := copyMetadata (Service.metadata existing) (Service.metadata desired)
       spec := preserveServiceAllocatedFields (Service.spec desired) (Service.spec existing) } :
      Service)
  | .deployment, existing, desired =>
    let target : Deployment := { (desired : Deployment) with
      metadata := copyMetadata (Deployment.metadata existing) (Deployment.metadata desired) }
    preserveRestartAnnotations
      (preserveDeploymentDbiIdentity target desired (deploymentDbiLabel existing)
        (trimmedValue (Deployment.metadata existing).annotations annotationDbiResourceID))
      (restartMark existing)

/-- The merge takes a part over from the desired object as it is.  What is kept of the existing
object is put into a map, which is not empty then, or replaces a list. -/
def takesOver : (kind : Kind) → (existing desired : kind.Object) → Part → Bool
  | .service, existing, _, .clusterIPs => (Service.spec existing).clusterIP = ""
  | .service, existing, _, .ipFamilies => (Service.spec existing).ipFamilies = []
  | .deployment, existing, desired, .labels =>
    (deploymentDbiLabel desired).isSome || (deploymentDbiLabel existing).isNone
  | .deployment, existing, desired, .annotations =>
    (trimmedValue (Deployment.metadata desired).annotations annotationDbiResourceID).isSome ||
      (trimmedValue (Deployment.metadata existing).annotations annotationDbiResourceID).isNone
  | .deployment, existing, _, .templateAnnotations => (restartMark existing).isNone
  | _, _, _, _ => true

/-- The hollow parts of the merge. -/
def hollowAfter (kind : Kind) (existing desired : kind.Object) (hollow : List Part) : List Part :=
  hollow.filter (takesOver kind existing desired)

/-! ## 4. Pod templates up to defaults -/

def normalizeProbeForDrift (probe : Probe) : Probe :=
  { probe with
    successThreshold := if probe.successThreshold = 1 then 0 else probe.successThreshold
    failureThreshold := if probe.failureThreshold = 3 then 0 else probe.failureThreshold }

/-- The empty security context counts as none. -/
def normalizeSecurityContext (context : Option SecurityContext) : Option SecurityContext :=
  if context = some none then none else context

def normalizeContainerForDrift (container : Container) : Container :=
  { container with
    terminationMessagePath :=
      if container.terminationMessagePath = "/dev/termination-log" then ""
      else container.terminationMessagePath
    terminationMessagePolicy :=
      if container.terminationMessagePolicy = "File" then ""
      else container.terminationMessagePolicy
    securityContext := normalizeSecurityContext container.securityContext
    readinessProbe := container.readinessProbe.map normalizeProbeForDrift
    livenessProbe := container.livenessProbe.map normalizeProbeForDrift
    startupProbe := container.startupProbe.map normalizeProbeForDrift
    ports := container.ports.map fun port =>
      { port with protocol := if port.protocol = "TCP" then "" else port.protocol } }

def normalizeVolumeForDrift (volume : Volume) : Volume :=
  { volume with source := match volume.source with
      | .configMap name mode rest => .configMap name (if mode = some 420 then none else mode) rest
      | .secret name mode rest => .secret name (if mode = some 420 then none else mode) rest
      | .other rest => .other rest }

def normalizePodTemplateForDrift (template : PodTemplateSpec) : PodTemplateSpec :=
  let spec := template.spec
  { template with
    annotations := template.annotations.erase restartedAtAnnotationKey
    spec := { spec with
      dnsPolicy := if spec.dnsPolicy = "ClusterFirst" then "" else spec.dnsPolicy
      schedulerName :=
        if spec.schedulerName = "default-scheduler" then "" else spec.schedulerName
      deprecatedServiceAccount :=
        if spec.deprecatedServiceAccount = spec.serviceAccountName then ""
        else spec.deprecatedServiceAccount
      terminationGracePeriodSeconds :=
        if spec.terminationGracePeriodSeconds = some 30 then none
        else spec.terminationGracePeriodSeconds
      securityContext := normalizeSecurityContext spec.securityContext
      enableServiceLinks :=
        if spec.enableServiceLinks = some true then none else spec.enableServiceLinks
      volumes := spec.volumes.map normalizeVolumeForDrift
      containers := spec.containers.map normalizeContainerForDrift
      initContainers := spec.initContainers.map normalizeContainerForDrift } }

def podTemplateSemanticallyEqual (existing expected : PodTemplateSpec) : Bool :=
  normalizePodTemplateForDrift existing = normalizePodTemplateForDrift expected

end Controller

end AuroraOperator

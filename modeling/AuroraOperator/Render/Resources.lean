/-
# The rendered objects

`internal/render/resources.go` and `internal/render/merge.go`: the ConfigMap, Deployment and
Service of one instance, and the two role Services of a resource.
-/
import AuroraOperator.Render.Config
import AuroraOperator.Planner

namespace AuroraOperator

namespace Render

/-! ## 1. Labels and annotations -/

def baseClusterLabels (clusterName : String) : StringMap String :=
  ((((((((∅ : StringMap String).insert labelManagedBy managedByValue).insert
    labelCluster (clusterLabelValue clusterName)).insert
    labelAppName appNameValue).insert
    labelAppComponent appComponentValue).insert
    labelAppInstance (clusterLabelValue clusterName)).insert
    labelAppManagedBy managedByValue).insert
    labelAppPartOf appPartOfValue)

def baseLabels (clusterName instanceName : String) : StringMap String :=
  (baseClusterLabels clusterName).insert labelInstance instanceName

def clusterAnnotations (clusterName : String) : StringMap Value :=
  (∅ : StringMap Value).insert annotationClusterName (.text clusterName)

def hashString (value : String) : Value := .textHash (hashObject value)

/-- An auth-file digest that could not be read is the empty string in the source. -/
def podTemplateAnnotations (owner : PgBouncerAurora) (observed : InstanceObservation)
    (authFileHash : Option (Digest AuthFileMetadata)) : StringMap Value :=
  ((clusterAnnotations owner.name).insert
    annotationConfigHash (hashString (pgBouncerINI owner.spec observed))).insert
    annotationAuthFileHash (match authFileHash with
      | some digest => .authFileHash digest
      | none => hashString owner.spec.pgbouncer.authFileSecretRef)

def deploymentAnnotations (owner : PgBouncerAurora) (observed : InstanceObservation)
    (authFileHash : Option (Digest AuthFileMetadata)) : StringMap Value :=
  let annotations := podTemplateAnnotations owner observed authFileHash
  if trimSpace observed.dbiResourceId ≠ "" then
    annotations.insert annotationDbiResourceID (.text (trimSpace observed.dbiResourceId))
  else annotations

def applyDbiResourceIDLabel (labels : StringMap String) (dbiResourceID : String) :
    StringMap String :=
  let value := trimSpace dbiResourceID
  if value = "" then labels.erase labelDbiResourceID else labels.insert labelDbiResourceID value

/-! ## 2. The pod template -/

def tcpProbe (port : Int32) : Probe :=
  { handler := some (.tcpSocket port)
    initialDelaySeconds := 5
    timeoutSeconds := 3
    periodSeconds := 10 }

/-- A user probe counts when it has a handler. -/
def probeConfigured (probe : Option Probe) : Bool := (probe.bind (·.handler)).isSome

def mergeVolumeMounts (existing required : List VolumeMount) : List VolumeMount :=
  required ++ existing.filter fun mount => mount.name ∉ required.map (·.name)

def mergeVolumes (existing required : List Volume) : List Volume :=
  required ++ existing.filter fun volume => volume.name ∉ required.map (·.name)

def mergeContainer (base required : Container) : Container :=
  { base with
    name := required.name
    image := if required.image ≠ "" then required.image else base.image
    imagePullPolicy :=
      if required.imagePullPolicy ≠ "" then required.imagePullPolicy else base.imagePullPolicy
    ports := required.ports
    readinessProbe := required.readinessProbe
    livenessProbe := required.livenessProbe
    resources := if required.resources.limits.isSome || required.resources.requests.isSome then
      required.resources else base.resources
    volumeMounts := mergeVolumeMounts base.volumeMounts required.volumeMounts }

/-- The required container comes first; a sidecar of its name is merged into it, and the
last such sidecar wins. -/
def mergeContainers (existing : List Container) (required : Container) : List Container :=
  let head := existing.foldl (fun head container =>
    if container.name = required.name then mergeContainer container required else head) required
  head :: existing.filter fun container => container.name ≠ required.name

def pgbouncerContainer (owner : PgBouncerAurora) (port : Int32) (instanceName : String) :
    Container :=
  let pgbouncer := owner.spec.pgbouncer
  { name := "pgbouncer"
    image := pgbouncer.image
    imagePullPolicy := "IfNotPresent"
    ports := [{ name := "pgbouncer", containerPort := port }]
    readinessProbe := if probeConfigured pgbouncer.readinessProbe then pgbouncer.readinessProbe
      else some (tcpProbe port)
    livenessProbe := if probeConfigured pgbouncer.livenessProbe then pgbouncer.livenessProbe
      else some (tcpProbe port)
    resources := pgbouncer.resources
    securityContext := pgbouncer.containerSecurityContext
    volumeMounts := mergeVolumeMounts pgbouncer.volumeMounts
      [{ name := "config", mountPath := "/etc/pgbouncer/pgbouncer.ini",
         subPath := "pgbouncer.ini", readOnly := true },
       { name := "auth-file", mountPath := authFilePath owner.spec instanceName,
         subPath := "userlist.txt", readOnly := true }] }

def requiredVolumes (owner : PgBouncerAurora) (instanceName : String) : List Volume :=
  [{ name := "config", source := .configMap (instanceResourceName owner.name instanceName) none },
   { name := "auth-file", source := .secret owner.spec.pgbouncer.authFileSecretRef none }]

def podSpec (owner : PgBouncerAurora) (instanceName : String) (port : Int32) : PodSpec :=
  let pgbouncer := owner.spec.pgbouncer
  { serviceAccountName := pgbouncer.serviceAccountName
    nodeSelector := pgbouncer.nodeSelector
    affinity := pgbouncer.affinity
    tolerations := pgbouncer.tolerations
    imagePullSecrets := pgbouncer.imagePullSecrets
    topologySpreadConstraints := pgbouncer.topologySpreadConstraints
    priorityClassName := pgbouncer.priorityClassName
    runtimeClassName :=
      if pgbouncer.runtimeClassName ≠ "" then some pgbouncer.runtimeClassName else none
    securityContext := pgbouncer.podSecurityContext
    containers := mergeContainers pgbouncer.sidecars (pgbouncerContainer owner port instanceName)
    volumes := mergeVolumes pgbouncer.volumes (requiredVolumes owner instanceName)
    restartPolicy := "Always" }

/-- The hollow parts of a rendered Deployment.  `mergeMap` makes a node selector even of nothing,
and what the spec spells out is copied as it is. -/
def hollowParts (owner : PgBouncerAurora) : List Part :=
  (if owner.spec.pgbouncer.nodeSelector.isEmpty then [.nodeSelector] else []) ++
    owner.spec.pgbouncer.hollow.map .other

/-! ## 3. Zone affinity -/

/-- The `firstNonEmpty` of this package, which does not trim. -/
def firstNonEmpty (value fallback : String) : String := if value ≠ "" then value else fallback

def mergeRequiredNodeAffinity (existing : Option (List NodeSelectorTerm))
    (requirement : NodeSelectorRequirement) : List NodeSelectorTerm :=
  match existing with
  | none | some [] => [{ matchExpressions := [requirement] }]
  | some terms => terms.map fun term =>
      { term with matchExpressions := term.matchExpressions ++ [requirement] }

def applyZoneAffinity (affinity : Option Affinity) (spec : ZoneAwareSpec) (zone : String) :
    Option Affinity :=
  if !Planner.enabledDefaultTrue spec.enabled || zone = "" then affinity
  else
    let topologyKey := firstNonEmpty spec.topologyKey "topology.kubernetes.io/zone"
    let requirement : NodeSelectorRequirement :=
      { key := topologyKey, operator := .In, values := [zone] }
    let affinity := affinity.getD {}
    let nodeAffinity := affinity.nodeAffinity.getD {}
    some { affinity with nodeAffinity := some (
      if spec.enforcement = some .required then
        { nodeAffinity with
          required := some (mergeRequiredNodeAffinity nodeAffinity.required requirement) }
      else
        { nodeAffinity with preferred := nodeAffinity.preferred ++
          [{ weight := 100, preference := { matchExpressions := [requirement] } }] }) }

/-! ## 4. The objects -/

def instanceDeployment (owner : PgBouncerAurora) (planned : InstancePlan)
    (authFileHash : Option (Digest AuthFileMetadata)) : Deployment :=
  let labels := (mergeMap owner.spec.pgbouncer.labels (baseLabels owner.name planned.name)).erase
    labelDbiResourceID
  let annotations := (mergeMap owner.spec.pgbouncer.annotations
    (podTemplateAnnotations owner planned.toInstanceObservation authFileHash)).erase
    annotationDbiResourceID
  let spec := podSpec owner planned.name (listenPort owner.spec)
  { metadata :=
      { name := instanceResourceName owner.name planned.name
        labels := applyDbiResourceIDLabel (labels.insert labelRole planned.role.text)
          planned.dbiResourceId
        annotations := deploymentAnnotations owner planned.toInstanceObservation authFileHash }
    replicas := some planned.replicas
    strategyType := "RollingUpdate"
    rollingUpdate := some (0, 1)
    selector := baseLabels owner.name planned.name
    template :=
      { labels := labels
        annotations := annotations
        spec := { spec with
          affinity := applyZoneAffinity spec.affinity owner.spec.topologyPolicy.zoneAware
            planned.availabilityZone } } }

/-- The one port every rendered Service has. -/
def servicePort (spec : PgBouncerAuroraSpec) : ServicePort :=
  { name := "pgbouncer", protocol := "TCP", port := listenPort spec, targetPort := listenPort spec }

def instanceService (owner : PgBouncerAurora) (planned : InstancePlan) : Service :=
  { metadata :=
      { name := instanceResourceName owner.name planned.name
        labels := baseLabels owner.name planned.name
        annotations := mergeMap owner.spec.services.perInstances.annotations
          (clusterAnnotations owner.name) }
    spec :=
      { type := owner.spec.services.perInstances.type.getD .clusterIP
        selector := baseLabels owner.name planned.name
        ports := [servicePort owner.spec] } }

/-- The spec, the selector key and the default name of a role's Service. -/
def roleServiceSpec (owner : PgBouncerAurora) : Role → ServiceRoleSpec
  | .writer => owner.spec.services.writer
  | .reader => owner.spec.services.reader

def roleSelectorKey : Role → String
  | .writer => labelWriter
  | .reader => labelReader

def serviceNameForRole (owner : PgBouncerAurora) (role : Role) : String :=
  let spec := roleServiceSpec owner role
  roleServiceName owner.name (if spec.name = "" then role.text else spec.name)

def roleService (owner : PgBouncerAurora) (role : Role) : Service :=
  let spec := roleServiceSpec owner role
  { metadata :=
      { name := serviceNameForRole owner role
        labels := (baseClusterLabels owner.name).insert labelServiceRole role.text
        annotations := mergeMap spec.annotations (clusterAnnotations owner.name) }
    spec :=
      { type := spec.type.getD .clusterIP
        selector := (((∅ : StringMap String).insert labelManagedBy managedByValue).insert
          labelCluster (clusterLabelValue owner.name)).insert (roleSelectorKey role) "true"
        ports := [servicePort owner.spec] } }

def configMap (owner : PgBouncerAurora) (observed : InstanceObservation) : ConfigMap :=
  { metadata :=
      { name := instanceResourceName owner.name observed.name
        labels := baseLabels owner.name observed.name
        annotations := clusterAnnotations owner.name }
    data := (∅ : StringMap String).insert "pgbouncer.ini" (pgBouncerINI owner.spec observed) }

end Render

end AuroraOperator

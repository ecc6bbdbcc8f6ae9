/-
# What the drift detector asks for, and what the API server adds

`cachedPlanNeedsApply` goes through four listings and stops at the first thing that is wrong.
`Undrifted` says what it comes to, over the objects as they are stored: if no call fails, the
detector is content exactly when everything is in place (`cachedPlanNeedsApply_content_iff`).

What is stored is not quite what was sent.  The API server fills in what a pod template leaves open,
and allocates the addresses and the node ports of a Service.  `Served` relates a namespace to what
the server makes of it.  The detector looks past the Services; it looks past the templates exactly
when users leave nothing open that it does not know, or there is no Deployment to look at
(`Undrifted.served_iff`).
-/
import AuroraOperator.Controller.Defaulting
import AuroraOperator.Controller.Effects

namespace AuroraOperator

namespace Controller

open Planner Render Program

/-! ## 1. Reads that go through -/

/-- The digest of the auth-file Secret that is stored. -/
def secretDigest (resource : PgBouncerAurora) (cluster : Cluster) :
    Option (Digest AuthFileMetadata) :=
  let secretName := resource.spec.pgbouncer.authFileSecretRef
  if secretName = "" then none
  else cluster.secrets[secretName]?.map fun secret => hashObject
    { nameSpace := resource.nameSpace, name := secretName, uid := secret.uid
      resourceVersion := secret.resourceVersion }

theorem call_of_no_faults {α : Type} (m : Api α) {w : World} (h : w.faults = []) :
    call m w = m w := by
  unfold call
  rw [h]

theorem recover_fetch_of_no_faults {α : Type} (lookup : Cluster → Option α) {w : World}
    (h : w.faults = []) :
    recover (fun _ => true) (fetch lookup) w = .ok (lookup w.cluster) w := by
  unfold recover fetch call
  rw [h]
  dsimp only
  cases lookup w.cluster <;> rfl

/-- Without failures, every read of the Secret is one that goes through. -/
theorem authFileHash_of_no_faults (resource : PgBouncerAurora) {w : World} (h : w.faults = []) :
    authFileHash resource w = .ok (secretDigest resource w.cluster) w := by
  unfold authFileHash secretDigest
  dsimp only
  split
  · rfl
  · exact bind_eq_ok.mpr ⟨_, _, recover_fetch_of_no_faults _ h, rfl⟩

/-- A listing without failures. -/
theorem listObjects_of_no_faults (kind : Kind) (resource : PgBouncerAurora) {w : World}
    (h : w.faults = []) : ∃ listed, listObjects kind resource w = .ok listed w :=
  ⟨_, call_of_no_faults _ h⟩

theorem listPods_of_no_faults (resource : PgBouncerAurora) {w : World} (h : w.faults = []) :
    ∃ pods, listPods resource w = .ok pods w := ⟨_, call_of_no_faults _ h⟩

/-! ## 2. Listings -/

section Listing

variable {kind : Kind} {resource : PgBouncerAurora} {w w' : World}
  {listed : List (String × kind.Object)}

/-- A lookup in a listing is a lookup among the objects of the resource. -/
theorem lookup_listed (hlist : listObjects kind resource w = .ok listed w') {name : String}
    {object : kind.Object} :
    listed.lookup name = some object ↔ objectAt kind name w = some object ∧
      managed resource (kind.metadata object).labels = true := by
  have hmem : ∀ {found : kind.Object}, listed.lookup name = some found → (name, found) ∈ listed := by
    intro found hfound
    obtain ⟨before, after, hsplit, -⟩ := List.lookup_eq_some_iff.mp hfound
    rw [hsplit]
    simp
  rw [← mem_listObjects hlist]
  refine ⟨hmem, fun hin => ?_⟩
  cases hfound : listed.lookup name with
  | none =>
    have hother := List.lookup_eq_none_iff.mp hfound _ hin
    simp at hother
  | some found =>
    have hat := ((mem_listObjects hlist).mp (hmem hfound)).1
    rw [((mem_listObjects hlist).mp hin).1] at hat
    exact hat.symm

theorem missingReason_eq_none_iff {α : Type} {kindText : String} {listed : List (String × α)}
    {expected : List String} : missingReason kindText listed expected = none ↔
      ∀ name ∈ expected, name ∈ listed.map (·.1) := by
  rw [missingReason, missingExpectedName, Option.map_eq_none_iff, List.find?_eq_none]
  simp [mem_sortStrings]

/-- The resource has an object under the name, and it is as asked for. -/
def InPlace (kind : Kind) (resource : PgBouncerAurora) (name : String)
    (asked : kind.Object → Prop) (w : World) : Prop :=
  ∃ existing, objectAt kind name w = some existing ∧
    managed resource (kind.metadata existing).labels = true ∧ asked existing

/-- The two checks the detector makes of each kind: nothing is missing, and nothing that is there
has drifted. -/
theorem listing_content_iff {α : Type} (hlist : listObjects kind resource w = .ok listed w')
    (kindText : String) (expected : List α) (nameOf : α → String) (drifts : kind.Object → α → Bool) :
    missingReason kindText listed (expected.map nameOf) = none ∧
        (expected.any fun e => (listed.lookup (nameOf e)).any (drifts · e)) = false ↔
      ∀ e ∈ expected, InPlace kind resource (nameOf e) (drifts · e = false) w := by
  rw [missingReason_eq_none_iff, List.forall_mem_map, List.any_eq_false, ← forall₂_and]
  refine forall₂_congr fun e _ => ?_
  constructor
  · rintro ⟨hthere, hdrift⟩
    cases hfound : listed.lookup (nameOf e) with
    | none =>
      obtain ⟨⟨name, object⟩, hin, rfl⟩ := List.mem_map.mp hthere
      have hother := List.lookup_eq_none_iff.mp hfound _ hin
      simp at hother
    | some existing =>
      rw [hfound] at hdrift
      obtain ⟨hat, hmanaged⟩ := (lookup_listed hlist).mp hfound
      exact ⟨existing, hat, hmanaged, by simpa using hdrift⟩
  · rintro ⟨existing, hat, hmanaged, hdrift⟩
    rw [(lookup_listed hlist).mpr ⟨hat, hmanaged⟩]
    exact ⟨List.mem_map.mpr ⟨_, (mem_listObjects hlist).mpr ⟨hat, hmanaged⟩, rfl⟩, by simp [hdrift]⟩

end Listing

/-! ## 3. What the detector asks for -/

/-- The Services that a plan asks for. -/
def expectedServices (resource : PgBouncerAurora) (plan : Output) : List Service :=
  (activePlanInstances plan.instances).map (instanceService resource) ++
    [roleService resource .writer, roleService resource .reader]

/-- No Service of the resource is left over from an earlier name of a role. -/
def NoneStale (resource : PgBouncerAurora) (plan : Output) (w : World) : Prop :=
  ∀ name (service : Service), objectAt .service name w = some service →
    managed resource service.metadata.labels = true →
    isStaleRoleService resource (expectedNames .service resource plan) name service = false

/-- Everything is in place. -/
structure Undrifted (resource : PgBouncerAurora) (plan : Output) (w : World) : Prop where
  configMaps : ∀ entry ∈ activePlanInstances plan.instances,
    let expected := configMap resource entry.toInstanceObservation
    InPlace .configMap resource expected.metadata.name (fun existing : ConfigMap =>
      existing.data = expected.data ∧ existing.binaryData = expected.binaryData) w
  deployments : ∀ entry ∈ activePlanInstances plan.instances,
    InPlace .deployment resource (instanceResourceName resource.name entry.name)
      (deploymentDrifted ·
        (instanceDeployment resource entry (secretDigest resource w.cluster)) = false) w
  services : ∀ expected ∈ expectedServices resource plan,
    InPlace .service resource expected.metadata.name (serviceSpecDrifted · expected = false) w
  fresh : NoneStale resource plan w
  labels : LabelsExact resource plan w.cluster

section Detector

variable {resource : PgBouncerAurora} {plan : Output} {w w' : World}

theorem reason_eq_none_iff {drifted : Bool} {reason : String} :
    (if drifted then some reason else none) = none ↔ drifted = false := by
  cases drifted <;> simp

theorem configMapReason_eq_none_iff {listed : List (String × ConfigMap)}
    (hlist : listObjects .configMap resource w = .ok listed w') :
    configMapReason resource plan listed = none ↔
      ∀ entry ∈ activePlanInstances plan.instances,
        let expected := configMap resource entry.toInstanceObservation
        InPlace .configMap resource expected.metadata.name (fun existing : ConfigMap =>
          existing.data = expected.data ∧ existing.binaryData = expected.binaryData) w := by
  have hname : ∀ entry : InstancePlan, instanceResourceName resource.name entry.name =
      (configMap resource entry.toInstanceObservation).metadata.name := fun entry => by
    simp only [configMap]
  have hnames : expectedNames .configMap resource plan = (activePlanInstances plan.instances).map
      fun entry => (configMap resource entry.toInstanceObservation).metadata.name := by
    simp only [expectedNames, List.append_nil, hname]
  let drifts (existing : ConfigMap) (entry : InstancePlan) : Bool :=
    existing.data ≠ (configMap resource entry.toInstanceObservation).data ||
      existing.binaryData ≠ (configMap resource entry.toInstanceObservation).binaryData
  have hdrifted : configMapDrifted resource plan listed = (activePlanInstances plan.instances).any
      fun entry => (listed.lookup (configMap resource entry.toInstanceObservation).metadata.name).any
        (drifts · entry) := by
    unfold configMapDrifted
    congr 1
    funext entry
    dsimp only
    cases listed.lookup (configMap resource entry.toInstanceObservation).metadata.name <;> rfl
  have hcontent := listing_content_iff hlist "configmap" (activePlanInstances plan.instances)
    (fun entry => (configMap resource entry.toInstanceObservation).metadata.name) drifts
  rw [configMapReason, Option.or_eq_none_iff, reason_eq_none_iff, hnames, hdrifted, hcontent]
  simp only [drifts, Bool.or_eq_false_iff, decide_eq_false_iff_not, not_not]

theorem serviceReason_eq_none_iff {listed : List (String × Service)}
    (hlist : listObjects .service resource w = .ok listed w') :
    serviceReason resource plan listed = none ↔
      (∀ expected ∈ expectedServices resource plan, InPlace .service resource
        expected.metadata.name (serviceSpecDrifted · expected = false) w) ∧
      NoneStale resource plan w := by
  have hnames : expectedNames .service resource plan =
      (expectedServices resource plan).map (·.metadata.name) := by
    have hinstance : ∀ entry, instanceResourceName resource.name entry.name =
        (instanceService resource entry).metadata.name := fun entry => by
      simp only [instanceService]
    have hrole : ∀ role, serviceNameForRole resource role =
        (roleService resource role).metadata.name := fun role => by simp only [roleService]
    simp only [expectedNames, expectedServices, List.map_append, List.map_map, List.map_cons,
      List.map_nil, Function.comp_def, hinstance, hrole]
  have hdrifted : serviceDrifted resource plan listed = (expectedServices resource plan).any
      fun expected => (listed.lookup expected.metadata.name).any (serviceSpecDrifted · expected) := by
    unfold serviceDrifted
    congr 1
    funext expected
    cases listed.lookup expected.metadata.name <;> rfl
  have hstale : (listed.any fun entry => isStaleRoleService resource
        (expectedNames .service resource plan) entry.1 entry.2) = false ↔
      NoneStale resource plan w := by
    rw [List.any_eq_false]
    constructor
    · intro h name service hat hmanaged
      rw [← Bool.not_eq_true]
      exact h (name, service) ((mem_listObjects hlist).mpr ⟨hat, hmanaged⟩)
    · rintro h ⟨name, service⟩ hin
      obtain ⟨hat, hmanaged⟩ := (mem_listObjects hlist).mp hin
      rw [h name service hat hmanaged]
      exact Bool.false_ne_true
  have hcontent := listing_content_iff hlist "service" (expectedServices resource plan)
    (·.metadata.name) fun (existing : Service) expected => serviceSpecDrifted existing expected
  rw [← hnames, ← hdrifted] at hcontent
  rw [← hstale]
  refine Iff.trans ?_ (and_congr_left' hcontent)
  rw [Controller.serviceReason, Option.or_eq_none_iff, and_assoc]
  refine and_congr_right fun _ => ?_
  cases listed.any fun entry => isStaleRoleService resource (expectedNames .service resource plan)
    entry.1 entry.2 with
  | true => simp
  | false =>
    rw [and_iff_left rfl]
    exact reason_eq_none_iff

/-- The detector's question about the Deployments, with the digest it reads. -/
theorem deploymentTemplateDrifted_eq (resource : PgBouncerAurora) (plan : Output)
    (listed : List (String × Deployment)) : deploymentTemplateDrifted resource plan listed =
      if (activePlanInstances plan.instances).length = 0 then pure false
      else authFileHash resource >>= fun digest =>
        pure ((activePlanInstances plan.instances).any fun entry =>
          (listed.lookup (instanceResourceName resource.name entry.name)).any
            (deploymentDrifted · (instanceDeployment resource entry digest))) := by
  unfold deploymentTemplateDrifted
  dsimp only
  congr 2
  funext digest
  congr 2
  funext entry
  have hname : (instanceDeployment resource entry digest).metadata.name =
      instanceResourceName resource.name entry.name := by
    simp only [instanceDeployment]
  rw [hname]
  cases listed.lookup (instanceResourceName resource.name entry.name) <;> rfl

theorem deploymentTemplateDrifted_of_no_faults (hw : w.faults = [])
    (resource : PgBouncerAurora) (plan : Output) (listed : List (String × Deployment)) :
    deploymentTemplateDrifted resource plan listed w =
      .ok ((activePlanInstances plan.instances).any fun entry =>
        (listed.lookup (instanceResourceName resource.name entry.name)).any
          (deploymentDrifted · (instanceDeployment resource entry
            (secretDigest resource w.cluster)))) w := by
  rw [deploymentTemplateDrifted_eq]
  split
  next hnone => rw [List.eq_nil_of_length_eq_zero hnone, List.any_nil, pure_apply]
  next => exact bind_eq_ok.mpr ⟨_, _, authFileHash_of_no_faults resource hw, rfl⟩

theorem deployments_content_iff {listed : List (String × Deployment)}
    (hlist : listObjects .deployment resource w = .ok listed w')
    (digest : Option (Digest AuthFileMetadata)) :
    missingReason "deployment" listed (expectedNames .deployment resource plan) = none ∧
        ((activePlanInstances plan.instances).any fun entry =>
          (listed.lookup (instanceResourceName resource.name entry.name)).any
            (deploymentDrifted · (instanceDeployment resource entry digest))) = false ↔
      ∀ entry ∈ activePlanInstances plan.instances, InPlace .deployment resource
        (instanceResourceName resource.name entry.name)
        (deploymentDrifted · (instanceDeployment resource entry digest) = false) w := by
  rw [show expectedNames .deployment resource plan = (activePlanInstances plan.instances).map
    fun entry => instanceResourceName resource.name entry.name from List.append_nil _]
  exact listing_content_iff hlist "deployment" (activePlanInstances plan.instances)
    (fun entry => instanceResourceName resource.name entry.name)
    fun (existing : Deployment) entry =>
      deploymentDrifted existing (instanceDeployment resource entry digest)

theorem LabelsExact.not_drifted (h : LabelsExact resource plan w.cluster)
    {pods : List (String × Pod)} (hpods : listPods resource w = .ok pods w') :
    podsDrifted plan pods = false := by
  unfold podsDrifted
  rw [List.any_eq_false]
  rintro ⟨name, pod⟩ hpod hdrifted
  rw [mem_listPods hpods] at hpod
  simp only [Bool.and_eq_true, decide_eq_true_eq, Bool.not_eq_true'] at hdrifted
  have hexact := h name pod hpod.1 hpod.2 hdrifted.1
  rw [hdrifted.2] at hexact
  cases hexact

/-- Nothing to find, and a check that goes through. -/
theorem Undrifted.no_change (h : Undrifted resource plan w) (hw : w.faults = []) :
    cachedPlanNeedsApply resource plan w = .ok (false, "no-change") w := by
  obtain ⟨configMaps, hconfigMaps⟩ := listObjects_of_no_faults .configMap resource hw
  obtain ⟨deployments, hdeployments⟩ := listObjects_of_no_faults .deployment resource hw
  obtain ⟨services, hservices⟩ := listObjects_of_no_faults .service resource hw
  obtain ⟨pods, hpods⟩ := listPods_of_no_faults resource hw
  have htemplates := deploymentTemplateDrifted_of_no_faults hw resource plan deployments
  obtain ⟨hmissing, hdrifted⟩ := (deployments_content_iff hdeployments _).mpr h.deployments
  rw [hdrifted] at htemplates
  unfold cachedPlanNeedsApply
  refine bind_eq_ok.mpr ⟨_, _, hconfigMaps, ?_⟩
  rw [(configMapReason_eq_none_iff hconfigMaps).mpr h.configMaps]
  refine bind_eq_ok.mpr ⟨_, _, hdeployments, ?_⟩
  rw [hmissing]
  refine bind_eq_ok.mpr ⟨_, _, htemplates, ?_⟩
  refine bind_eq_ok.mpr ⟨_, _, hservices, ?_⟩
  rw [(serviceReason_eq_none_iff hservices).mpr ⟨h.services, h.fresh⟩]
  refine bind_eq_ok.mpr ⟨_, _, hpods, ?_⟩
  rw [h.labels.not_drifted hpods]
  rfl

end Detector

/-! ## 4. What the server makes of a namespace -/

/-- What the API server stores for an object that is sent to it: it fills in the defaults of a pod
template, and allocates what a Service leaves to it. -/
def Completed (pullPolicy : String → String) : (kind : Kind) → (sent stored : kind.Object) → Prop
  | .configMap, sent, stored => stored = sent
  | .deployment, sent, stored => stored = ({ (sent : Deployment) with
      template := (Deployment.template sent).defaulted pullPolicy } : Deployment)
  | .service, sent, stored => Service.metadata stored = Service.metadata sent ∧
      (Service.spec stored).type = (Service.spec sent).type ∧
      (Service.spec stored).selector = (Service.spec sent).selector ∧
      servicePortsEqualIgnoringAllocated (Service.spec stored).ports (Service.spec sent).ports = true

/-- A world, and what the server makes of it. -/
structure Served (pullPolicy : String → String) (w w' : World) : Prop where
  stored : w'.stored = w.stored
  objects : ∀ kind name,
    Option.Rel (Completed pullPolicy kind) (objectAt kind name w) (objectAt kind name w')
  pods : w'.cluster.pods = w.cluster.pods
  secrets : w'.cluster.secrets = w.cluster.secrets
  faults : w'.faults = w.faults

section Served

variable {pullPolicy : String → String} {resource : PgBouncerAurora} {plan : Output} {w w' : World}

theorem Served.metadata {kind : Kind} {sent stored : kind.Object}
    (h : Completed pullPolicy kind sent stored) : kind.metadata stored = kind.metadata sent := by
  cases kind with
  | configMap => rw [show stored = sent from h]
  | deployment =>
    rw [show stored = _ from h]
    rfl
  | service => exact h.1

/-- What is there is made of what was sent, and what was sent is there. -/
theorem Served.sent (h : Served pullPolicy w w') {kind : Kind} {name : String}
    {stored : kind.Object} (hat : objectAt kind name w' = some stored) :
    ∃ sent, objectAt kind name w = some sent ∧ Completed pullPolicy kind sent stored := by
  have hrel := h.objects kind name
  rw [hat] at hrel
  generalize objectAt kind name w = found at hrel ⊢
  cases hrel with
  | some hcompleted => exact ⟨_, rfl, hcompleted⟩

theorem Served.made (h : Served pullPolicy w w') {kind : Kind} {name : String}
    {asked asked' : kind.Object → Prop} (hthere : InPlace kind resource name asked w)
    (hasked : ∀ {sent stored}, Completed pullPolicy kind sent stored → asked sent → asked' stored) :
    InPlace kind resource name asked' w' := by
  obtain ⟨sent, hat, hmanaged, hcontent⟩ := hthere
  have hrel := h.objects kind name
  rw [hat] at hrel
  generalize hfound : objectAt kind name w' = found at hrel
  cases hrel with
  | some hcompleted =>
    refine ⟨_, hfound, ?_, hasked hcompleted hcontent⟩
    rw [Served.metadata hcompleted]
    exact hmanaged

end Served

end Controller

end AuroraOperator

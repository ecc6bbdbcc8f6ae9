/-
# After an apply there is nothing left to apply

Rendering, `copyDesired`, the clean-ups and the drift detector each have their own idea of what
an object must look like.  If they disagreed anywhere, a Reconcile would apply the same plan
over and over.

* `apply_reaches_fixpoint`: after `applyDesired` and `patchPodMembership` have succeeded, the
  drift detector finds nothing, whatever was in the namespace before.

The Secret with the auth file is read once by the apply and once by the detector.  A read that
fails counts as no Secret in both places, so the result needs both reads to go through.
-/
import AuroraOperator.Controller.Undrifted

namespace AuroraOperator

namespace Controller

open Planner Render Program

/-! ## 1. What an applied object looks like -/

section Objects

variable (resource : PgBouncerAurora)

theorem applied_configMap (existing : Option ConfigMap) (desired : ConfigMap) :
    let object : ConfigMap := applied .configMap existing (setOwner .configMap resource desired)
    object.metadata.labels = desired.metadata.labels ∧ object.data = desired.data ∧
      object.binaryData = desired.binaryData := by
  cases existing <;> exact ⟨rfl, rfl, rfl⟩

/-- Node ports are all that `copyDesired` changes about the ports. -/
theorem preserveServiceNodePorts_ignored (target allocated : List ServicePort) :
    servicePortsEqualIgnoringAllocated (preserveServiceNodePorts target allocated) target
      = true := by
  unfold servicePortsEqualIgnoringAllocated preserveServiceNodePorts
  rw [decide_eq_true_eq, List.map_map]
  refine List.map_congr_left fun port _ => ?_
  dsimp only [Function.comp]
  split <;> rfl

theorem preserveServiceAllocatedFields_ports (target allocated : ServiceSpec) :
    servicePortsEqualIgnoringAllocated (preserveServiceAllocatedFields target allocated).ports
      target.ports = true := by
  unfold preserveServiceAllocatedFields
  dsimp only
  split
  · exact preserveServiceNodePorts_ignored _ _
  · simp [servicePortsEqualIgnoringAllocated]

theorem applied_service (existing : Option Service) (desired : Service) :
    let object : Service := applied .service existing (setOwner .service resource desired)
    object.metadata.labels = desired.metadata.labels ∧
      object.spec.selector = desired.spec.selector ∧
      serviceSpecDrifted object desired = false := by
  cases existing with
  | none =>
    refine ⟨rfl, rfl, ?_⟩
    simp [applied, setOwner, Kind.setMetadata, Kind.metadata, serviceSpecDrifted,
      servicePortsEqualIgnoringAllocated]
  | some existing =>
    refine ⟨rfl, rfl, ?_⟩
    have hports := preserveServiceAllocatedFields_ports desired.spec existing.spec
    simp only [serviceSpecDrifted, applied, copyDesired, setOwner, Kind.setMetadata, Kind.metadata,
      hports]
    simp [preserveServiceAllocatedFields, copyMetadata]

/-- The labels of an applied Deployment are the rendered ones, but for the identity of the
database instance. -/
theorem applied_deployment_labels (existing : Option Deployment) (desired : Deployment)
    {key : String} (hkey : labelDbiResourceID ≠ key) :
    (Deployment.metadata (applied .deployment existing
      (setOwner .deployment resource desired))).labels[key]? = desired.metadata.labels[key]? := by
  cases existing with
  | none => rfl
  | some existing =>
    simp only [applied, copyDesired, setOwner, Kind.setMetadata, Kind.metadata]
    have hrestart : ∀ (target : Deployment) token,
        (preserveRestartAnnotations target token).metadata = target.metadata := by
      intro target token
      cases token <;> rfl
    rw [hrestart]
    unfold preserveDeploymentDbiIdentity
    dsimp only
    split
    · rw [Std.ExtTreeMap.getElem?_insert, if_neg (by simpa using hkey)]
      rfl
    · rfl

theorem restart_ignored (target : Deployment) (token : Option Value) :
    normalizePodTemplateForDrift (preserveRestartAnnotations target token).template
      = normalizePodTemplateForDrift target.template := by
  cases token with
  | none => rfl
  | some token =>
    unfold preserveRestartAnnotations setRestartMark normalizePodTemplateForDrift
    dsimp only
    congr 1
    ext key value
    simp only [Std.ExtTreeMap.getElem?_erase, Std.ExtTreeMap.getElem?_insert]
    by_cases h : restartedAtAnnotationKey = key <;> simp [h]

/-- An identity that the rendering knows is the one that is stored. -/
theorem applied_dbi_known (existing : Option Deployment) (desired : Deployment) {value : String}
    (h : deploymentDbiLabel desired = some value) :
    deploymentDbiLabel (applied .deployment existing (setOwner .deployment resource desired))
      = some value := by
  cases existing with
  | none => exact h
  | some existing =>
    rw [← h]
    have hrestart : ∀ (target : Deployment) token,
        deploymentDbiLabel (preserveRestartAnnotations target token) = deploymentDbiLabel target := by
      intro target token
      cases token <;> rfl
    simp only [applied, copyDesired, hrestart]
    have hsource : deploymentDbiLabel (setOwner .deployment resource desired) = some value := h
    unfold preserveDeploymentDbiIdentity
    rw [hsource]
    rfl

theorem applied_deployment (existing : Option Deployment) (desired : Deployment) :
    deploymentDrifted (applied .deployment existing (setOwner .deployment resource desired)) desired
      = false := by
  set object : Deployment :=
    applied .deployment existing (setOwner .deployment resource desired) with hobject
  have hdbi : deploymentDbiMetadataDrifted object desired = false := by
    unfold deploymentDbiMetadataDrifted
    cases hl : deploymentDbiLabel desired with
    | none => rfl
    | some value => simp [hobject, applied_dbi_known resource existing desired hl]
  have hspec : object.replicas = desired.replicas ∧ object.strategyType = desired.strategyType ∧
      normalizePodTemplateForDrift object.template
        = normalizePodTemplateForDrift desired.template := by
    rw [hobject]
    cases existing with
    | none => exact ⟨rfl, rfl, rfl⟩
    | some existing =>
      refine ⟨?_, ?_, restart_ignored _ _⟩
      · simp only [applied, copyDesired, preserveRestartAnnotations]
        split <;> rfl
      · simp only [applied, copyDesired, preserveRestartAnnotations]
        split <;> rfl
  unfold deploymentDrifted podTemplateSemanticallyEqual
  rw [hdbi, hspec.1, hspec.2.1, hspec.2.2]
  simp

end Objects

/-! ## 2. Every applied object is found -/

section Found

variable (resource : PgBouncerAurora)

theorem getElem?_baseClusterLabels (clusterName : String) :
    (baseClusterLabels clusterName)[labelManagedBy]? = some managedByValue ∧
      (baseClusterLabels clusterName)[labelCluster]? = some (clusterLabelValue clusterName) ∧
      (baseClusterLabels clusterName)[labelServiceRole]? = none := by
  unfold baseClusterLabels
  simp only [Std.ExtTreeMap.getElem?_insert]
  simp [labelManagedBy, labelCluster, labelAppName, labelAppComponent, labelAppInstance,
    labelAppManagedBy, labelAppPartOf, labelServiceRole]

theorem getElem?_baseLabels (clusterName instanceName : String) :
    (baseLabels clusterName instanceName)[labelManagedBy]? = some managedByValue ∧
      (baseLabels clusterName instanceName)[labelCluster]? = some (clusterLabelValue clusterName) ∧
      (baseLabels clusterName instanceName)[labelServiceRole]? = none := by
  unfold baseLabels
  simp only [Std.ExtTreeMap.getElem?_insert, getElem?_baseClusterLabels]
  simp [labelManagedBy, labelCluster, labelInstance, labelServiceRole]

theorem managed_iff {labels : StringMap String} :
    managed resource labels = true ↔ labels[labelManagedBy]? = some managedByValue ∧
      labels[labelCluster]? = some (clusterLabelValue resource.name) := by
  simp [managed]

/-- A rendered object carries the two labels by which the operator lists. -/
theorem managed_rendered (digest : Option (Digest AuthFileMetadata)) {d : DesiredObject}
    (hd : (∃ entry, d ∈ instanceObjects resource digest entry) ∨ d ∈ roleObjects resource) :
    managed resource (d.1.metadata d.2).labels = true := by
  rw [managed_iff]
  rcases hd with ⟨entry, hd⟩ | hd
  · simp only [instanceObjects, List.mem_cons, List.not_mem_nil, or_false] at hd
    obtain ⟨hby, hcluster, -⟩ := getElem?_baseLabels resource.name entry.name
    rcases hd with rfl | rfl | rfl
    · exact ⟨hby, hcluster⟩
    · -- a Deployment has more labels, but none of the operator's own is overridden
      have hlabel : ∀ key value, (baseLabels resource.name entry.name)[key]? = some value →
          labelDbiResourceID ≠ key → labelRole ≠ key →
          (instanceDeployment resource entry digest).metadata.labels[key]? = some value := by
        intro key value hbase hdbi hrole
        have hmerged := @getElem?_mergeMap _ resource.spec.pgbouncer.labels _ _ _ hbase
        simp only [instanceDeployment, applyDbiResourceIDLabel]
        split <;> simp [Std.ExtTreeMap.getElem?_insert, Std.ExtTreeMap.getElem?_erase, hdbi, hrole,
          hmerged]
      exact ⟨hlabel _ _ hby (by decide) (by decide), hlabel _ _ hcluster (by decide) (by decide)⟩
    · exact ⟨hby, hcluster⟩
  · simp only [roleObjects, List.mem_cons, List.not_mem_nil, or_false] at hd
    obtain ⟨hby, hcluster, -⟩ := getElem?_baseClusterLabels resource.name
    have hlabel : ∀ role, (roleService resource role).metadata.labels[labelManagedBy]?
          = some managedByValue ∧ (roleService resource role).metadata.labels[labelCluster]?
          = some (clusterLabelValue resource.name) := by
      intro role
      simp only [roleService, Std.ExtTreeMap.getElem?_insert, hby, hcluster]
      simp [labelServiceRole, labelManagedBy, labelCluster]
    rcases hd with rfl | rfl
    · exact hlabel .writer
    · exact hlabel .reader

/-- ... and keeps them when it is applied over an existing one. -/
theorem managed_applied (d : DesiredObject) (existing : Option d.1.Object)
    (h : managed resource (d.1.metadata d.2).labels = true) :
    managed resource (d.1.metadata (applied d.1 existing (setOwner d.1 resource d.2))).labels
      = true := by
  obtain ⟨kind, desired⟩ := d
  cases kind with
  | configMap =>
    have hlabels := (applied_configMap resource existing desired).1
    rw [show (Kind.configMap.metadata _).labels = _ from hlabels]
    exact h
  | service =>
    have hlabels := (applied_service resource existing desired).1
    rw [show (Kind.service.metadata _).labels = _ from hlabels]
    exact h
  | deployment =>
    rw [managed_iff] at h ⊢
    have hlabel : ∀ {key : String}, labelDbiResourceID ≠ key →
        (Kind.deployment.metadata (applied .deployment existing
          (setOwner .deployment resource desired))).labels[key]?
          = (Deployment.metadata desired).labels[key]? :=
      fun hkey => applied_deployment_labels resource existing desired hkey
    exact ⟨(hlabel (by decide)).trans h.1, (hlabel (by decide)).trans h.2⟩

/-- The Service of an instance is never taken for a stale role Service. -/
theorem not_stale_instanceService (entry : InstancePlan) (existing : Option Service) (name : String) :
    isStaleRoleService resource (roleNames resource) name
      (applied .service existing (setOwner .service resource (instanceService resource entry)))
      = false := by
  obtain ⟨hlabels, hselector, -⟩ := applied_service resource existing (instanceService resource entry)
  have hrole : (instanceService resource entry).metadata.labels[labelServiceRole]? = none :=
    (getElem?_baseLabels resource.name entry.name).2.2
  have hwriter : (instanceService resource entry).spec.selector[labelWriter]? = none := by
    simp only [instanceService, baseLabels, baseClusterLabels, Std.ExtTreeMap.getElem?_insert]
    simp [labelManagedBy, labelCluster, labelAppName, labelAppComponent, labelAppInstance,
      labelAppManagedBy, labelAppPartOf, labelInstance, labelWriter]
  have hreader : (instanceService resource entry).spec.selector[labelReader]? = none := by
    simp only [instanceService, baseLabels, baseClusterLabels, Std.ExtTreeMap.getElem?_insert]
    simp [labelManagedBy, labelCluster, labelAppName, labelAppComponent, labelAppInstance,
      labelAppManagedBy, labelAppPartOf, labelInstance, labelReader]
  by_contra hstale
  rw [Bool.not_eq_false] at hstale
  unfold isStaleRoleService isLegacyRoleService at hstale
  simp only [hlabels, hselector, hrole, hwriter, hreader, roleNames] at hstale
  simp only [Bool.and_eq_true, Bool.or_eq_true, decide_eq_true_eq, Bool.not_eq_true'] at hstale
  obtain ⟨⟨-, hrole | ⟨-, hname⟩⟩, hnot⟩ := hstale
  · exact hrole rfl
  · simp only [List.contains_eq_mem, List.mem_cons, List.not_mem_nil, or_false,
      decide_eq_false_iff_not, not_or] at hnot
    rcases hname with ((hsel | hsel) | hname) | hname
    · cases hsel
    · cases hsel
    · exact hnot.1 hname
    · exact hnot.2 hname

end Found

/-! ## 3. What the apply leaves behind -/

section Left

variable {resource : PgBouncerAurora} {plan : Output} {digest : Option (Digest AuthFileMetadata)}

theorem mem_desiredObjects {d : DesiredObject} : d ∈ desiredObjects resource digest plan ↔
    (∃ entry ∈ activePlanInstances plan.instances, d ∈ instanceObjects resource digest entry) ∨
      d ∈ roleObjects resource := by
  simp [desiredObjects]

theorem key_instanceObjects {d : DesiredObject} {entry : InstancePlan}
    (hd : d ∈ instanceObjects resource digest entry) :
    d.key.2 = instanceResourceName resource.name entry.name := by
  simp only [instanceObjects, List.mem_cons, List.not_mem_nil, or_false] at hd
  rcases hd with rfl | rfl | rfl
  · simp only [DesiredObject.key, Kind.metadata, configMap]
  · simp only [DesiredObject.key, Kind.metadata, instanceDeployment]
  · simp only [DesiredObject.key, Kind.metadata, instanceService]

theorem key_roleService (role : Role) :
    DesiredObject.key ⟨.service, roleService resource role⟩
      = (.service, serviceNameForRole resource role) := by
  simp only [DesiredObject.key, Kind.metadata, roleService]

theorem key_roleObjects {d : DesiredObject} (hd : d ∈ roleObjects resource) :
    d.key.2 ∈ roleNames resource := by
  simp only [roleObjects, List.mem_cons, List.not_mem_nil, or_false] at hd
  rcases hd with rfl | rfl <;> simp [key_roleService, roleNames]

theorem key_expected {d : DesiredObject} (hd : d ∈ desiredObjects resource digest plan) :
    d.key.2 ∈ expectedNames .service resource plan := by
  rcases mem_desiredObjects.mp hd with ⟨entry, hentry, hd⟩ | hd
  · rw [key_instanceObjects hd]
    exact List.mem_append_left _ (List.mem_map.mpr ⟨entry, hentry, rfl⟩)
  · exact List.mem_append_right _ (key_roleObjects hd)

/-- With distinct names, kind and name say which object it is. -/
theorem desiredObjects_key_inj (hnames : (expectedNames .service resource plan).Nodup)
    {d d' : DesiredObject} (hd : d ∈ desiredObjects resource digest plan)
    (hd' : d' ∈ desiredObjects resource digest plan) (hkey : d.key = d'.key) : d = d' := by
  obtain ⟨hinstances, hroles, hdisjoint⟩ := List.nodup_append.mp hnames
  have hapart : ∀ {e e' : DesiredObject}, (∃ entry ∈ activePlanInstances plan.instances,
      e ∈ instanceObjects resource digest entry) → e' ∈ roleObjects resource →
      e.key.2 ≠ e'.key.2 := by
    rintro e e' ⟨entry, hentry, he⟩ he'
    rw [key_instanceObjects he]
    exact hdisjoint _ (List.mem_map.mpr ⟨entry, hentry, rfl⟩) _ (key_roleObjects he')
  rcases mem_desiredObjects.mp hd with hi | hr <;> rcases mem_desiredObjects.mp hd' with hi' | hr'
  · obtain ⟨entry, hentry, hd⟩ := hi
    obtain ⟨entry', hentry', hd'⟩ := hi'
    have hname := congrArg Prod.snd hkey
    rw [key_instanceObjects hd, key_instanceObjects hd'] at hname
    obtain rfl : entry = entry' := List.inj_on_of_nodup_map hinstances hentry hentry' hname
    -- one instance has one object of each kind
    have hkind := congrArg Prod.fst hkey
    simp only [instanceObjects, List.mem_cons, List.not_mem_nil, or_false] at hd hd'
    rcases hd with rfl | rfl | rfl <;> rcases hd' with rfl | rfl | rfl <;>
      first | rfl | cases hkind
  · exact absurd (congrArg Prod.snd hkey) (hapart hi hr')
  · exact absurd (congrArg Prod.snd hkey).symm (hapart hi' hr)
  · have hne : serviceNameForRole resource .writer ≠ serviceNameForRole resource .reader := by
      have := (List.nodup_cons.mp hroles).1
      simpa using this
    have hname := congrArg Prod.snd hkey
    simp only [roleObjects, List.mem_cons, List.not_mem_nil, or_false] at hr hr'
    rcases hr with rfl | rfl <;> rcases hr' with rfl | rfl
    · rfl
    · simp only [key_roleService] at hname
      exact absurd hname hne
    · simp only [key_roleService] at hname
      exact absurd hname.symm hne
    · rfl

/-- What has been applied is not taken for a role Service that is out of use. -/
theorem Placed.not_stale {d : DesiredObject} {w : World}
    (hd : d ∈ desiredObjects resource digest plan) (h : Placed resource d w) :
    ¬ (d.1 = .service ∧ StaleAt resource w d.key.2) := by
  obtain ⟨existing, hplaced⟩ := h
  rintro ⟨hkind, service, hat, -, hstale⟩
  rcases mem_desiredObjects.mp hd with ⟨entry, -, hd⟩ | hd
  · simp only [instanceObjects, List.mem_cons, List.not_mem_nil, or_false] at hd
    rcases hd with rfl | rfl | rfl
    · cases hkind
    · cases hkind
    · rw [hplaced, Option.some.injEq] at hat
      rw [← hat, not_stale_instanceService resource entry existing _] at hstale
      cases hstale
  · have hname := key_roleObjects hd
    unfold isStaleRoleService at hstale
    simp [hname] at hstale

/-- **After an apply** every object is in place, and no role Service is stale. -/
theorem applyDesired_placed {w w' : World} (h : applyDesired resource plan w = .ok () w')
    (hnames : (expectedNames .service resource plan).Nodup)
    (hdisabled : ∀ name ∈ expectedNames .service resource plan, name ∉ disabledNames resource plan) :
    ∃ digest w₀, planDigest resource plan w = .ok digest w₀ ∧
      (∀ d ∈ desiredObjects resource digest plan, Placed resource d w') ∧
      (∀ name, ¬ StaleAt resource w' name) ∧ w'.cluster.secrets = w.cluster.secrets := by
  obtain ⟨digest, w₀, w₁, w₂, hdigest, hall, ⟨hstale, hgone⟩, hcleaned⟩ := applyDesired_eq_ok h
  refine ⟨digest, w₀, hdigest, fun d hd => ?_, fun name hat => ?_, ?_⟩
  · -- placed by the applies ...
    obtain ⟨existing, hplaced⟩ : Placed resource d w₁ := by
      rcases hall.each d.1 d.key.2 with ⟨d', hd', hkey, hplaced⟩ | ⟨hnone, -⟩
      · rw [desiredObjects_key_inj hnames hd hd' hkey.symm]
        exact hplaced
      · exact absurd rfl (hnone d hd)
    -- ... not taken for a role Service that is out of use ...
    have hkept : objectAt d.1 d.key.2 w₂ = objectAt d.1 d.key.2 w₁ :=
      hstale.kept (Placed.not_stale hd ⟨existing, hplaced⟩)
    -- ... and under no name of a disabled instance
    have hkept' : objectAt d.1 d.key.2 w' = objectAt d.1 d.key.2 w₂ :=
      hcleaned.kept (hdisabled _ (key_expected hd))
    exact ⟨existing, hkept'.trans (hkept.trans hplaced)⟩
  · obtain ⟨service, hat, hmanaged, hisStale⟩ := hat
    have hat₂ := hcleaned.some hat
    rw [hgone name ⟨service, hstale.some hat₂, hmanaged, hisStale⟩] at hat₂
    cases hat₂
  · rw [hcleaned.secrets, hstale.secrets, hall.secrets]

end Left

/-! ## 4. The detector -/

/-- The next read of the auth-file Secret goes through. -/
def SecretReadable (resource : PgBouncerAurora) (w : World) : Prop :=
  returns (fun digest _ => digest = secretDigest resource w.cluster) (authFileHash resource) w
    = true

theorem patchPodMembership_secrets (resource : PgBouncerAurora) (plan : Output) :
    Keeps (·.cluster.secrets) (patchPodMembership resource plan) := by
  refine patchPodMembership_within (frame_view (fun v => v.2.1.secrets) fun _ => rfl)
    (fun name labels => ?_) resource plan
  exact Keeps.call (fun _ _ => rfl) fun w => by
    dsimp only [final]
    cases w.cluster.pods[name]? <;> rfl

section Detector

variable {resource : PgBouncerAurora} {plan : Output} {digest : Option (Digest AuthFileMetadata)}
  {w w' : World}

/-- All is in place, and no role Service is stale. -/
structure Settled (resource : PgBouncerAurora) (plan : Output)
    (digest : Option (Digest AuthFileMetadata)) (w : World) : Prop where
  placed : ∀ d ∈ desiredObjects resource digest plan, Placed resource d w
  fresh : ∀ name, ¬ StaleAt resource w name

/-- What is in place is the apply's doing. -/
theorem Settled.inPlace (h : Settled resource plan digest w) {d : DesiredObject}
    (hd : d ∈ desiredObjects resource digest plan) {asked : d.1.Object → Prop}
    (hasked : ∀ existing, asked (applied d.1 existing (setOwner d.1 resource d.2))) :
    InPlace d.1 resource d.key.2 asked w := by
  obtain ⟨existing, hplaced⟩ := h.placed d hd
  have hrendered := managed_rendered resource digest
    ((mem_desiredObjects.mp hd).imp_left fun ⟨entry, _, h⟩ => ⟨entry, h⟩)
  exact ⟨_, hplaced, managed_applied resource d existing hrendered, hasked existing⟩

theorem instanceObject_mem {entry : InstancePlan}
    (hentry : entry ∈ activePlanInstances plan.instances) {d : DesiredObject}
    (hd : d ∈ instanceObjects resource digest entry) : d ∈ desiredObjects resource digest plan :=
  mem_desiredObjects.mpr (Or.inl ⟨entry, hentry, hd⟩)

theorem Settled.configMaps (h : Settled resource plan digest w) :
    ∀ entry ∈ activePlanInstances plan.instances,
      let expected := configMap resource entry.toInstanceObservation
      InPlace .configMap resource expected.metadata.name (fun existing : ConfigMap =>
        existing.data = expected.data ∧ existing.binaryData = expected.binaryData) w := by
  intro entry hentry
  have hmem : (⟨.configMap, configMap resource entry.toInstanceObservation⟩ : DesiredObject)
      ∈ desiredObjects resource digest plan := instanceObject_mem hentry (List.mem_cons_self ..)
  generalize configMap resource entry.toInstanceObservation = expected at hmem ⊢
  exact h.inPlace hmem fun old => (applied_configMap resource old expected).2

theorem deployment_mem (resource : PgBouncerAurora) (digest : Option (Digest AuthFileMetadata))
    (entry : InstancePlan) : (⟨.deployment, instanceDeployment resource entry digest⟩ :
      DesiredObject) ∈ instanceObjects resource digest entry := by
  simp [instanceObjects]

/-- With the digest that was applied, no template differs. -/
theorem Settled.deployments (h : Settled resource plan digest w) :
    ∀ entry ∈ activePlanInstances plan.instances, InPlace .deployment resource
      (instanceResourceName resource.name entry.name)
      (deploymentDrifted · (instanceDeployment resource entry digest) = false) w := by
  intro entry hentry
  have hmem := deployment_mem resource digest entry
  rw [← key_instanceObjects hmem]
  exact h.inPlace (instanceObject_mem hentry hmem) fun old => applied_deployment resource old _

theorem Settled.services (h : Settled resource plan digest w) :
    ∀ expected ∈ expectedServices resource plan, InPlace .service resource
      expected.metadata.name (serviceSpecDrifted · expected = false) w := by
  intro expected hexpected
  have hdesired : (⟨.service, expected⟩ : DesiredObject) ∈ desiredObjects resource digest plan := by
    rcases List.mem_append.mp hexpected with hexpected | hexpected
    · obtain ⟨entry, hentry, rfl⟩ := List.mem_map.mp hexpected
      exact instanceObject_mem hentry (by simp [instanceObjects])
    · exact mem_desiredObjects.mpr (Or.inr (by simpa [roleObjects] using hexpected))
  exact h.inPlace hdesired fun old => (applied_service resource old expected).2.2

theorem Settled.noneStale (h : Settled resource plan digest w) : NoneStale resource plan w := by
  intro name service hat hmanaged
  rw [← Bool.not_eq_true]
  -- the detector spares more names than the clean-up, so what it reports is stale for both
  refine fun hstale => h.fresh name ⟨service, hat, hmanaged, ?_⟩
  unfold isStaleRoleService at hstale ⊢
  simp only [Bool.and_eq_true, Bool.not_eq_true', List.contains_eq_mem,
    decide_eq_false_iff_not] at hstale ⊢
  exact ⟨hstale.1, fun hin => hstale.2 (List.mem_append_right _ hin)⟩

/-- With all in place and exact labels, **the detector finds nothing**. -/
theorem Settled.no_change (h : Settled resource plan digest w) (hfaults : w.faults = [])
    (hdigest : (activePlanInstances plan.instances).length ≠ 0 →
      digest = secretDigest resource w.cluster)
    (hlabels : LabelsExact resource plan w.cluster) :
    cachedPlanNeedsApply resource plan w = .ok (false, "no-change") w := by
  refine Undrifted.no_change ⟨h.configMaps, fun entry hentry => ?_, h.services, h.noneStale,
    hlabels⟩ hfaults
  rw [← hdigest (List.length_pos_of_mem hentry).ne']
  exact h.deployments entry hentry

end Detector

/-- **The apply reaches the detector's fixpoint.**  Whatever the namespace held before, once the
objects are applied and the pods labelled, an undisturbed check of the same resource, plan and
Secret finds nothing to do. -/
theorem apply_reaches_fixpoint {resource : PgBouncerAurora} {plan : Output} {w w₁ w₂ : World}
    (hnames : (expectedNames .service resource plan).Nodup)
    (hdisabled : ∀ name ∈ expectedNames .service resource plan, name ∉ disabledNames resource plan)
    (hsecret : SecretReadable resource w) (happly : applyDesired resource plan w = .ok () w₁)
    (hpatch : patchPodMembership resource plan w₁ = .ok () w₂) :
    cachedPlanNeedsApply resource plan { w₂ with faults := [] }
      = .ok (false, "no-change") { w₂ with faults := [] } := by
  obtain ⟨digest, w₀, hdigest, hplaced, hfresh, hsecrets⟩ :=
    applyDesired_placed happly hnames hdisabled
  -- labelling pods touches neither the objects nor the Secret
  have hobjects : ∀ kind name, objectAt kind name { w₂ with faults := [] } = objectAt kind name w₁ :=
    fun kind name => congrArg (fun side => (side.2 kind)[name]?)
      ((patchPodMembership_keeps resource plan).of_ok hpatch)
  have hsecrets₂ : w₂.cluster.secrets = w.cluster.secrets :=
    ((patchPodMembership_secrets resource plan).of_ok hpatch).trans hsecrets
  have hsettled : Settled resource plan digest { w₂ with faults := [] } :=
    { placed := fun d hd => by
        obtain ⟨existing, hat⟩ := hplaced d hd
        exact ⟨existing, (hobjects _ _).trans hat⟩
      fresh := fun name ⟨service, hat, hstale⟩ =>
        hfresh name ⟨service, (hobjects _ _).symm.trans hat, hstale⟩ }
  have hlabels : LabelsExact resource plan w₂.cluster := patchPodMembership_exact hpatch
  refine hsettled.no_change rfl (fun hactive => ?_) hlabels
  -- the apply read the digest that the detector reads
  unfold planDigest at hdigest
  rw [if_pos (Nat.pos_of_ne_zero hactive)] at hdigest
  obtain ⟨_, _, hread, heq⟩ := returns_iff.mp hsecret
  rw [hdigest] at hread
  cases hread
  rw [of_decide_eq_true heq]
  unfold secretDigest
  dsimp only
  rw [hsecrets₂]

/-- A reader that was restarted and whose identity is not known any more, a role Service under an
older name, and a pod that is still labelled as the writer. -/
def leftover (stored : StoredResource) (entry : InstancePlan) : World :=
  let resource := stored.resource
  let old := setRestartMark (instanceDeployment resource
    { entry with dbiResourceId := "db-OLD" } none) (.text "2026-01-01T00:00:00Z")
  let service := roleService { resource with name := "older" } .writer
  { stored := stored
    cluster := {
      deployments := (∅ : StringMap Deployment).insert old.metadata.name old
      services := (∅ : StringMap Service).insert "older-writer"
        { service with metadata := { service.metadata with
            labels := (roleService resource .writer).metadata.labels } }
      pods := (∅ : StringMap Pod).insert "pod-1"
        { labels := (baseLabels resource.name entry.name).insert labelWriter "true" } } }

def replica : InstancePlan :=
  { name := "db-2", endpoint := "db-2.example", port := 5432, role := .reader, healthy := true,
    replicas := 2 }

theorem apply_reaches_fixpoint_example :
    let stored := StoredResource.create "orders" {}
    let resource := stored.resource
    let plan : Output := { instances := [replica], membership := { reader := ["db-2"] } }
    returns (fun answer _ => answer.1) (cachedPlanNeedsApply resource plan)
        (leftover stored replica) = true ∧
      ∃ w₁ w₂, applyDesired resource plan (leftover stored replica) = .ok () w₁ ∧
        patchPodMembership resource plan w₁ = .ok () w₂ ∧
        cachedPlanNeedsApply resource plan { w₂ with faults := [] }
          = .ok (false, "no-change") { w₂ with faults := [] } := by
  intro stored resource plan
  have hbefore : returns (fun answer _ => answer.1) (cachedPlanNeedsApply resource plan)
      (leftover stored replica) = true := by decide +kernel
  have hnames : (expectedNames .service resource plan).Nodup ∧
      ∀ name ∈ expectedNames .service resource plan, name ∉ disabledNames resource plan := by
    decide +kernel
  have hsecret : SecretReadable resource (leftover stored replica) := rfl
  have hrun : returns (fun _ w₁ => returns (fun _ _ => true) (patchPodMembership resource plan) w₁)
      (applyDesired resource plan) (leftover stored replica) = true := by decide +kernel
  obtain ⟨_, w₁, happly, hpatched⟩ := returns_iff.mp hrun
  obtain ⟨_, w₂, hpatch, -⟩ := returns_iff.mp hpatched
  exact ⟨hbefore, w₁, w₂, happly, hpatch,
    apply_reaches_fixpoint hnames.1 hnames.2 hsecret happly hpatch⟩

end Controller

end AuroraOperator

/-
# What an apply keeps of an object

`copyDesired` merges two objects of a kind: the stored one and the rendered one.  The result is the
rendered one, up to what the cluster has allocated for a Service and what the operator has left on a
Deployment.

* `Kept` says which fields these are, and where their values come from.
* The merge is idempotent, so that an apply that follows an apply finds what it would write
  (`copyDesired_settles`).  For the node ports of a Service this takes distinct port keys: a port is
  found again by its key.
* Such an apply is silent, unless a map or list of the merge is hollow: `applyObject` compares with
  `reflect.DeepEqual`, for which an empty node selector is not the nil one that was read.
-/
import AuroraOperator.Controller.Templates

namespace AuroraOperator

namespace Controller

open Planner Render Program

/-! ## 1. Node ports -/

/-- Where the node port of a port comes from: a port of the old Service with the key of this one,
if the type of the Service has node ports and the old port has one. -/
def HasAllocated (preserve : Bool) (allocated : List ServicePort) (port : ServicePort)
    (nodePort : Int32) : Prop :=
  preserve = true ∧ ∃ old ∈ allocated,
    servicePortKey old = servicePortKey port ∧ old.nodePort ≠ 0 ∧ old.nodePort = nodePort

structure PortFrom (preserve : Bool) (allocated : List ServicePort) (port result : ServicePort) :
    Prop where
  rest : result = { port with nodePort := result.nodePort }
  nodePort : HasAllocated preserve allocated port result.nodePort ∨
    (∀ n, ¬HasAllocated preserve allocated port n) ∧ result.nodePort = port.nodePort

/-- What `preserveServiceNodePorts` does to one port. -/
def preserveNodePort (allocated : List ServicePort) (port : ServicePort) : ServicePort :=
  match allocated.reverse.find? fun old =>
      old.nodePort ≠ 0 && servicePortKey old = servicePortKey port with
  | some old => { port with nodePort := old.nodePort }
  | none => port

theorem preserveServiceNodePorts_eq (target allocated : List ServicePort) :
    preserveServiceNodePorts target allocated = target.map (preserveNodePort allocated) := rfl

theorem portFrom_preserveNodePort (allocated : List ServicePort) (port : ServicePort) :
    PortFrom true allocated port (preserveNodePort allocated port) := by
  unfold preserveNodePort
  split
  next old hold =>
    have hmem := List.mem_reverse.mp (List.mem_of_find?_eq_some hold)
    obtain ⟨hne, hkey⟩ : old.nodePort ≠ 0 ∧ servicePortKey old = servicePortKey port := by
      simpa using List.find?_some hold
    exact ⟨rfl, .inl ⟨rfl, old, hmem, hkey, hne, rfl⟩⟩
  next hnone =>
    rw [List.find?_eq_none] at hnone
    refine ⟨rfl, .inr ⟨?_, rfl⟩⟩
    rintro n ⟨-, old, hmem, hkey, hne, -⟩
    exact hnone old (List.mem_reverse.mpr hmem) (by simp [hkey, hne])

theorem portFrom_unpreserved (allocated : List ServicePort) (port : ServicePort) :
    PortFrom false allocated port port :=
  ⟨rfl, .inr ⟨fun _ h => by simp [HasAllocated] at h, rfl⟩⟩

/-- A port whose key is its own is found again. -/
theorem preserveNodePort_again {target : List ServicePort}
    (hkeys : (target.map servicePortKey).Nodup) {f : ServicePort → ServicePort}
    (hf : ∀ port, ∃ n, f port = { port with nodePort := n } ∧ (n = 0 → f port = port))
    {port : ServicePort} (hport : port ∈ target) :
    preserveNodePort (target.map f) port = f port := by
  have hkey : ∀ p, servicePortKey (f p) = servicePortKey p := by
    intro p
    obtain ⟨n, hn, -⟩ := hf p
    rw [hn]
    rfl
  obtain ⟨n, hn, hzero⟩ := hf port
  unfold preserveNodePort
  split
  next old hold =>
    have hmem := List.mem_reverse.mp (List.mem_of_find?_eq_some hold)
    obtain ⟨other, hother, rfl⟩ := List.mem_map.mp hmem
    obtain ⟨-, hsame⟩ : (f other).nodePort ≠ 0 ∧ servicePortKey (f other) = servicePortKey port := by
      simpa using List.find?_some hold
    rw [hkey] at hsame
    rw [List.inj_on_of_nodup_map hkeys hother hport hsame, hn]
  next hnone =>
    rw [List.find?_eq_none] at hnone
    have hmiss := hnone (f port) (List.mem_reverse.mpr (List.mem_map_of_mem hport))
    have hnode : (f port).nodePort = n := by rw [hn]
    by_cases hn0 : n = 0
    · exact (hzero hn0).symm
    · exact absurd (by simp [hkey, hnode, hn0]) hmiss

theorem preserveServiceNodePorts_again {target : List ServicePort}
    (hkeys : (target.map servicePortKey).Nodup) {f : ServicePort → ServicePort}
    (hf : ∀ port, ∃ n, f port = { port with nodePort := n } ∧ (n = 0 → f port = port)) :
    preserveServiceNodePorts target (target.map f) = target.map f := by
  rw [preserveServiceNodePorts_eq]
  exact List.map_congr_left fun port hport => preserveNodePort_again hkeys hf hport

theorem preserveNodePort_shape (allocated : List ServicePort) (port : ServicePort) :
    ∃ n, preserveNodePort allocated port = { port with nodePort := n } ∧
      (n = 0 → preserveNodePort allocated port = port) := by
  have h := portFrom_preserveNodePort allocated port
  refine ⟨_, h.rest, fun hzero => ?_⟩
  rcases h.nodePort with ⟨-, old, -, -, hne, heq⟩ | ⟨-, heq⟩
  · exact absurd (heq.trans hzero) hne
  · rw [h.rest, heq]

/-! ## 2. Services -/

/-- A Service is as desired, up to what the cluster has allocated. -/
structure ServiceKept (existing desired result : Service) : Prop where
  metadata : result.metadata = copyMetadata existing.metadata desired.metadata
  rest : { result.spec with
      clusterIP := desired.spec.clusterIP, clusterIPs := desired.spec.clusterIPs
      ipFamilies := desired.spec.ipFamilies, ipFamilyPolicy := desired.spec.ipFamilyPolicy
      loadBalancerClass := desired.spec.loadBalancerClass
      healthCheckNodePort := desired.spec.healthCheckNodePort
      ports := desired.spec.ports } = desired.spec
  clusterIPs : (result.spec.clusterIP, result.spec.clusterIPs) =
    if existing.spec.clusterIP ≠ "" then (existing.spec.clusterIP, existing.spec.clusterIPs)
    else (desired.spec.clusterIP, desired.spec.clusterIPs)
  ipFamilies : result.spec.ipFamilies =
    if existing.spec.ipFamilies ≠ [] then existing.spec.ipFamilies else desired.spec.ipFamilies
  ipFamilyPolicy : result.spec.ipFamilyPolicy =
    existing.spec.ipFamilyPolicy.or desired.spec.ipFamilyPolicy
  loadBalancerClass : result.spec.loadBalancerClass =
    existing.spec.loadBalancerClass.or desired.spec.loadBalancerClass
  healthCheckNodePort : result.spec.healthCheckNodePort =
    if desired.spec.type = .loadBalancer ∧ desired.spec.externalTrafficPolicy = "Local" ∧
      existing.spec.healthCheckNodePort ≠ 0 then existing.spec.healthCheckNodePort
    else desired.spec.healthCheckNodePort
  ports : List.Forall₂ (PortFrom (shouldPreserveNodePorts desired.spec) existing.spec.ports)
    desired.spec.ports result.spec.ports

theorem serviceKept (existing desired : Service) :
    ServiceKept existing desired (copyDesired .service existing desired) where
  metadata := rfl
  rest := rfl
  clusterIPs := by
    simp only [copyDesired, preserveServiceAllocatedFields]
    split <;> rfl
  ipFamilies := by
    simp only [copyDesired, preserveServiceAllocatedFields, gt_iff_lt, List.length_pos_iff]
  ipFamilyPolicy := rfl
  loadBalancerClass := rfl
  healthCheckNodePort := by
    simp only [copyDesired, preserveServiceAllocatedFields, shouldPreserveHealthCheckNodePort]
    simp [and_assoc]
  ports := by
    simp only [copyDesired, preserveServiceAllocatedFields]
    cases shouldPreserveNodePorts desired.spec with
    | false => exact List.forall₂_same.mpr fun port _ => portFrom_unpreserved _ port
    | true =>
      rw [if_pos rfl, preserveServiceNodePorts_eq, List.forall₂_map_right_iff]
      exact List.forall₂_same.mpr fun port _ => portFrom_preserveNodePort _ port

/-- **Allocated fields are found again.** -/
theorem preserveServiceAllocatedFields_again {target : ServiceSpec}
    (hkeys : (target.ports.map servicePortKey).Nodup) (allocated : ServiceSpec) :
    preserveServiceAllocatedFields target (preserveServiceAllocatedFields target allocated) =
      preserveServiceAllocatedFields target allocated := by
  have hports := @preserveServiceNodePorts_again target.ports hkeys
    (preserveNodePort allocated.ports) (preserveNodePort_shape allocated.ports)
  rw [← preserveServiceNodePorts_eq] at hports
  simp only [preserveServiceAllocatedFields, ServiceSpec.mk.injEq, true_and, and_true]
  refine ⟨?ports, ?clusterIP, ?clusterIPs, ?families, ?policy, ?balancer, ?health⟩
  case ports =>
    split
    · exact hports
    · rfl
  case clusterIP => split <;> simp_all
  case clusterIPs => split <;> simp_all
  case families => split <;> simp_all
  case policy => rw [Option.or_assoc, Option.or_self]
  case balancer => rw [Option.or_assoc, Option.or_self]
  case health => split <;> simp_all

theorem preserveServiceAllocatedFields_self {target : ServiceSpec}
    (hkeys : (target.ports.map servicePortKey).Nodup) :
    preserveServiceAllocatedFields target target = target := by
  have hports : preserveServiceNodePorts target.ports target.ports = target.ports := by
    simpa using @preserveServiceNodePorts_again target.ports hkeys id fun port =>
      ⟨port.nodePort, rfl, fun _ => rfl⟩
  simp [preserveServiceAllocatedFields, hports]

/-! ## 3. Deployments -/

section Maps

variable {α : Type} {key : String}

/-- The map, with a value that is kept under one key. -/
def keepAt (desired : StringMap α) (key : String) (kept : Option α) : StringMap α :=
  match kept with
  | none => desired
  | some value => desired.insert key value

/-- The same, told by its values. -/
def KeptAt (key : String) (kept : Option α) (desired result : StringMap α) : Prop :=
  ∀ k, result[k]? = if k = key then kept.or desired[key]? else desired[k]?

theorem keptAt_keepAt (desired : StringMap α) (key : String) (kept : Option α) :
    KeptAt key kept desired (keepAt desired key kept) := by
  intro k
  cases kept with
  | none =>
    simp only [keepAt, Option.none_or]
    split
    next hk => rw [hk]
    · rfl
  | some value =>
    simp only [keepAt, Std.ExtTreeMap.getElem?_insert, Option.some_or]
    by_cases hk : k = key
    · simp [hk]
    · simp [hk, Ne.symm hk]

/-- What was there before counts only where nothing is known now. -/
def unlessKnown (known previous : Option α) : Option α := if known.isSome then none else previous

theorem unlessKnown_self (known : Option α) : unlessKnown known known = none := by
  cases known <;> rfl

/-- What was kept is kept again, if it is read as it was written. -/
theorem keepAt_again {read : StringMap α → Option α}
    (hread : ∀ (m m' : StringMap α) value, read m = some value → read (m'.insert key value) = some value)
    (existing desired : StringMap α) :
    keepAt desired key (unlessKnown (read desired)
        (read (keepAt desired key (unlessKnown (read desired) (read existing))))) =
      keepAt desired key (unlessKnown (read desired) (read existing)) := by
  cases hknown : read desired with
  | some value => rfl
  | none =>
    cases hprevious : read existing with
    | none => simp [unlessKnown, keepAt, hknown]
    | some value =>
      have hagain := hread existing desired value hprevious
      simp [unlessKnown, keepAt, hagain]

end Maps

/-- A Deployment is as desired, up to the marks the operator has left. -/
structure DeploymentKept (existing desired result : Deployment) : Prop where
  rest : result = { desired with
    metadata := { copyMetadata existing.metadata desired.metadata with
      labels := result.metadata.labels
      annotations := result.metadata.annotations }
    template := { desired.template with annotations := result.template.annotations } }
  label : KeptAt labelDbiResourceID
    (unlessKnown (deploymentDbiLabel desired) (deploymentDbiLabel existing))
    desired.metadata.labels result.metadata.labels
  annotation : KeptAt annotationDbiResourceID
    (unlessKnown (trimmedValue desired.metadata.annotations annotationDbiResourceID)
      (trimmedValue existing.metadata.annotations annotationDbiResourceID))
    desired.metadata.annotations result.metadata.annotations
  restart : KeptAt restartedAtAnnotationKey (restartMark existing)
    desired.template.annotations result.template.annotations

/-- The Deployment that `copyDesired` makes, field by field. -/
theorem copyDesired_deployment (existing desired : Deployment) :
    copyDesired .deployment existing desired = ({ desired with
      metadata := { copyMetadata existing.metadata desired.metadata with
        labels := keepAt desired.metadata.labels labelDbiResourceID
          (unlessKnown (deploymentDbiLabel desired) (deploymentDbiLabel existing))
        annotations := keepAt desired.metadata.annotations annotationDbiResourceID
          (unlessKnown (trimmedValue desired.metadata.annotations annotationDbiResourceID)
            (trimmedValue existing.metadata.annotations annotationDbiResourceID)) }
      template := { desired.template with
        annotations := keepAt desired.template.annotations restartedAtAnnotationKey
          (restartMark existing) } } : Deployment) := by
  simp only [copyDesired, preserveDeploymentDbiIdentity, preserveRestartAnnotations,
    setRestartMark, copyMetadata]
  cases deploymentDbiLabel desired <;> cases deploymentDbiLabel existing <;>
    cases trimmedValue desired.metadata.annotations annotationDbiResourceID <;>
    cases trimmedValue existing.metadata.annotations annotationDbiResourceID <;>
    cases restartMark existing <;> rfl

theorem deploymentKept (existing desired : Deployment) :
    DeploymentKept existing desired (copyDesired .deployment existing desired) := by
  rw [copyDesired_deployment]
  exact ⟨rfl, keptAt_keepAt _ _ _, keptAt_keepAt _ _ _, keptAt_keepAt _ _ _⟩

/-- A trimmed value is trimmed. -/
theorem trimmedLabel_insert {key value : String} {labels : StringMap String}
    (h : trimmedLabel labels key = some value) (labels' : StringMap String) :
    trimmedLabel (labels'.insert key value) key = some value := by
  unfold trimmedLabel at h
  split at h
  · cases h
  · split at h
    · cases h
    next old _ hne =>
      rw [Option.some_inj] at h
      subst h
      simp [trimmedLabel, hne]

theorem trimmedValue_insert {key : String} {value : Value} {annotations : StringMap Value}
    (h : trimmedValue annotations key = some value) (annotations' : StringMap Value) :
    trimmedValue (annotations'.insert key value) key = some value := by
  unfold trimmedValue at h
  split at h
  · cases h
  · split at h
    · cases h
    next old _ hne =>
      rw [Option.some_inj] at h
      subst h
      simp [trimmedValue, hne]
  next digest htext _ =>
    rw [Option.some_inj] at h
    subst h
    cases digest with
    | text old => exact absurd rfl (htext old)
    | _ => simp [trimmedValue]

theorem copyDesired_parts (existing desired : Deployment) :
    copyDesired .deployment existing desired = ({ desired with
      metadata := Deployment.metadata (copyDesired .deployment existing desired)
      template := Deployment.template (copyDesired .deployment existing desired) } : Deployment) := by
  rw [copyDesired_deployment]

/-- **A Deployment that was applied is as the next apply wants it.** -/
theorem copyDesired_deployment_again (existing : Option Deployment) (desired : Deployment) :
    copyDesired .deployment (applied .deployment existing desired) desired =
      applied .deployment existing desired := by
  have hmetadata : Deployment.metadata (copyDesired .deployment
      (applied .deployment existing desired) desired) =
      Deployment.metadata (applied .deployment existing desired) := by
    cases existing with
    | none =>
      simp only [applied, copyDesired_deployment, unlessKnown_self, keepAt]
      rfl
    | some existing =>
      have hlabels := @keepAt_again _ _ (fun m => trimmedLabel m labelDbiResourceID)
        (fun _ m' _ h => trimmedLabel_insert h m') existing.metadata.labels desired.metadata.labels
      have hannotations := @keepAt_again _ _ (fun m => trimmedValue m annotationDbiResourceID)
        (fun _ m' _ h => trimmedValue_insert h m') existing.metadata.annotations
        desired.metadata.annotations
      simp only [applied, copyDesired_deployment, copyMetadata, deploymentDbiLabel, hlabels,
        hannotations]
  rw [copyDesired_parts, hmetadata, template_applied_again]
  cases existing with
  | none => rfl
  | some existing => exact (copyDesired_parts existing desired).symm

/-! ## 4. Applying twice -/

/-- Ports are told apart by their keys. -/
def DistinctPorts : (kind : Kind) → kind.Object → Prop
  | .service, desired => ((Service.spec desired).ports.map servicePortKey).Nodup
  | .configMap, _ | .deployment, _ => True

theorem copyDesired_again (kind : Kind) {desired : kind.Object} (hports : DistinctPorts kind desired)
    (existing : Option kind.Object) :
    copyDesired kind (applied kind existing desired) desired = applied kind existing desired := by
  cases kind with
  | configMap => cases existing <;> rfl
  | deployment => exact copyDesired_deployment_again existing desired
  | service =>
    cases existing with
    | none =>
      simp only [applied, copyDesired, preserveServiceAllocatedFields_self hports]
      rfl
    | some existing =>
      simp only [applied, copyDesired, preserveServiceAllocatedFields_again hports]
      rfl

/-- An apply that would change nothing sends nothing but the `Get`s. -/
theorem applyObject_idle {kind : Kind} {desired stored : kind.Object} {hollow : List Part}
    (hfixed : copyDesired kind stored desired = stored)
    (hfull : hollowAfter kind stored desired hollow = []) {w : World}
    (hstored : objectAt kind (kind.metadata desired).name w = some stored) :
    (final (applyObject kind desired hollow) w).visible = w.visible := by
  let R : World → World → Prop := fun w w' =>
    objectAt kind (kind.metadata desired).name w = some stored → w'.visible = w.visible
  have hat : ∀ {w w' : World}, w'.visible = w.visible →
      objectAt kind (kind.metadata desired).name w' =
        objectAt kind (kind.metadata desired).name w := by
    intro w w' hvisible
    have hcluster : w'.cluster = w.cluster := congrArg (fun v => v.2.1) hvisible
    rw [objectAt, objectAt, hcluster]
  have hsteps : Steps R :=
    ⟨fun _ _ => rfl, fun h₁ h₂ hw => (h₂ ((hat (h₁ hw)).trans hw)).trans (h₁ hw)⟩
  refine Within.retry hsteps ?_ 4 w hstored
  -- one attempt: the `Get` finds the stored object, and there is nothing to update
  intro w hstored
  rw [final_bind]
  have hget : Keeps World.visible (ignoreNotFound (getObject kind (kind.metadata desired).name)) :=
    Keeps.recover (fetch_keeps _)
  cases hrun : ignoreNotFound (getObject kind (kind.metadata desired).name) w with
  | error e w₁ => exact hget.of_error hrun
  | ok found w₁ =>
    have hvisible := hget.of_ok hrun
    cases found with
    | none =>
      obtain ⟨e, he, hcaught⟩ := recover_eq_none.mp hrun
      rw [decide_eq_true_eq] at hcaught
      subst hcaught
      have habsent : objectAt kind (kind.metadata desired).name w = none := fetch_eq_notFound he
      rw [hstored] at habsent
      cases habsent
    | some existing =>
      have hpresent : objectAt kind (kind.metadata desired).name w = some existing :=
        fetch_eq_ok (recover_eq_some.mp hrun)
      rw [hstored, Option.some_inj] at hpresent
      subst hpresent
      simp only [hfixed, hfull, and_self, if_true]
      exact hvisible

/-- One that would change something, or that is left with a hollow part, sends an update. -/
theorem applyObject_updates {kind : Kind} {desired stored : kind.Object} {hollow : List Part}
    (hdiffers : ¬ (stored = copyDesired kind stored desired ∧
      hollowAfter kind stored desired hollow = [])) {w : World} (hw : w.faults = [])
    (hstored : objectAt kind (kind.metadata desired).name w = some stored) :
    (final (applyObject kind desired hollow) w).writes =
      .update kind (kind.metadata desired).name :: w.writes := by
  have hfound : (objects kind w.cluster)[(kind.metadata desired).name]? = some stored := hstored
  have hget : ignoreNotFound (getObject kind (kind.metadata desired).name) w =
      .ok (some stored) w :=
    recover_eq_some.mpr (by simp only [getObject, fetch, call, hw, hfound])
  obtain ⟨w', hupdate, hwrites⟩ : ∃ w', updateObject kind (kind.metadata desired).name
      (copyDesired kind stored desired) w = .ok () w' ∧
        w'.writes = .update kind (kind.metadata desired).name :: w.writes := by
    simp only [updateObject, call, hw, hfound]
    exact ⟨_, rfl, rfl⟩
  have hrun : applyObject kind desired hollow w = .ok () w' := by
    refine retry_of_ok (bind_eq_ok.mpr ⟨some stored, w, hget, ?_⟩) 4
    dsimp only
    rw [if_neg hdiffers]
    exact hupdate
  rw [final_of_ok hrun, hwrites]

/-- **When an apply is silent.**  If no call fails, exactly when the merge is what is stored, and no
part of it is hollow. -/
theorem applyObject_silent_iff {kind : Kind} {desired stored : kind.Object} {hollow : List Part}
    {w : World} (hw : w.faults = [])
    (hstored : objectAt kind (kind.metadata desired).name w = some stored) :
    (final (applyObject kind desired hollow) w).visible = w.visible ↔
      copyDesired kind stored desired = stored ∧ hollowAfter kind stored desired hollow = [] := by
  constructor
  · intro hsilent
    by_contra hdiffers
    have hwrites := applyObject_updates (fun h => hdiffers ⟨h.1.symm, h.2⟩) hw hstored
    rw [show (final (applyObject kind desired hollow) w).writes = w.writes from
      congrArg (fun v => v.2.2) hsilent] at hwrites
    exact List.cons_ne_self _ _ hwrites.symm
  · rintro ⟨hfixed, hfull⟩
    exact applyObject_idle hfixed hfull hstored

/-- What the result of a merge is made of. -/
def Kept : (kind : Kind) → (existing desired result : kind.Object) → Prop
  | .configMap, existing, desired, result => result = ({ (desired : ConfigMap) with
      metadata := copyMetadata (ConfigMap.metadata existing) (ConfigMap.metadata desired) } : ConfigMap)
  | .service, existing, desired, result => ServiceKept existing desired result
  | .deployment, existing, desired, result => DeploymentKept existing desired result

/-- **A merge keeps what the cluster owns, and merging again changes nothing.**  So an apply that
follows a successful one finds what it would write, and is silent unless a part of the merge is
hollow. -/
theorem copyDesired_settles (kind : Kind) (desired : kind.Object) (hollow : List Part)
    (hports : DistinctPorts kind desired) :
    (∀ existing, Kept kind existing desired (copyDesired kind existing desired)) ∧
      (∀ existing, copyDesired kind (copyDesired kind existing desired) desired =
        copyDesired kind existing desired) ∧
      (∀ w stored, w.faults = [] → objectAt kind (kind.metadata desired).name w = some stored →
        ((final (applyObject kind desired hollow) w).visible = w.visible ↔
          copyDesired kind stored desired = stored ∧
            hollowAfter kind stored desired hollow = [])) ∧
      ∀ w w', applyObject kind desired hollow w = .ok () w' →
        ∃ stored, objectAt kind (kind.metadata desired).name w' = some stored ∧
          copyDesired kind stored desired = stored ∧
          (hollowAfter kind stored desired hollow = [] →
            (final (applyObject kind desired hollow) w').visible = w'.visible) := by
  refine ⟨fun existing => ?_, fun existing => copyDesired_again kind hports (some existing),
    fun w stored hw hstored => applyObject_silent_iff hw hstored, ?_⟩
  · cases kind with
    | configMap => exact rfl
    | service => exact serviceKept existing desired
    | deployment => exact deploymentKept existing desired
  · intro w w' hrun
    have hstored := (applyObject_ensures kind desired hollow hrun).1
    have hfixed := copyDesired_again kind hports
      (objectAt kind (kind.metadata desired).name w)
    exact ⟨_, hstored, hfixed, fun hfull => applyObject_idle hfixed hfull hstored⟩

/-- A Service that gets node ports. -/
def exposedService : Service :=
  { metadata := { name := "db-a" }
    spec := { type := .nodePort, ports := [{ name := "pgbouncer", protocol := "TCP", port := 6432,
                                             targetPort := 6432, nodePort := 30080 }] } }

/-- The same, before it had any. -/
def hiddenService : Service :=
  { metadata := { name := "db-a" }
    spec := { clusterIP := "10.0.0.10"
              ports := [{ name := "pgbouncer", protocol := "TCP", port := 6432,
                          targetPort := 6432 }] } }

def exposedNamespace : World :=
  { stored := StoredResource.create "db" {}
    cluster.services := (∅ : StringMap Service).insert "db-a"
      (copyDesired .service hiddenService exposedService) }

/-- Marks that do not count as such: an identity with blanks around it, a restart that is empty. -/
def markedDeployment : Deployment :=
  { metadata := { name := "db-a"
                  annotations := (∅ : StringMap Value).insert annotationDbiResourceID (.text " db-x ") }
    template := { annotations := (∅ : StringMap Value).insert restartedAtAnnotationKey (.text "") } }

/-- A resource without a node selector, and the Deployment that is rendered for an instance of it. -/
def defaultOwner : PgBouncerAurora := { name := "db" }

def defaultDeployment : Deployment :=
  setOwner .deployment defaultOwner (instanceDeployment defaultOwner
    { name := "a", endpoint := "a.example", port := 5432, role := .writer } none)

def emptyNamespace : World := { stored := StoredResource.create "db" {} }

/-- What is not set is not kept, and what is kept is kept without its blanks.  The rendered
Deployment is updated each time it is applied: its node selector is hollow. -/
theorem unset_is_not_kept :
    (shouldPreserveNodePorts exposedService.spec = true ∧
      hiddenService.spec.ports.map servicePortKey = exposedService.spec.ports.map servicePortKey ∧
      hiddenService.spec.ports.map (·.nodePort) = [0] ∧
      (Service.spec (copyDesired .service hiddenService exposedService)).ports.map (·.nodePort) =
        [30080]) ∧
    (markedDeployment.template.annotations[restartedAtAnnotationKey]? = some (.text "") ∧
      (Deployment.template (copyDesired .deployment markedDeployment
        { metadata := { name := "db-a" } })).annotations[restartedAtAnnotationKey]? = none) ∧
    (markedDeployment.metadata.annotations[annotationDbiResourceID]? = some (.text " db-x ") ∧
      (Deployment.metadata (copyDesired .deployment markedDeployment
        { metadata := { name := "db-a" } })).annotations[annotationDbiResourceID]? =
        some (.text "db-x")) ∧
    (final (do
        applyObject .deployment defaultDeployment (hollowParts defaultOwner)
        applyObject .deployment defaultDeployment (hollowParts defaultOwner)) emptyNamespace).writes =
      [.update .deployment "db-a", .create .deployment "db-a"] := by
  decide +kernel

/-- The ClusterIP is kept, and the node port is the desired one; the next apply is silent. -/
theorem hiddenService_exposed : DistinctPorts .service exposedService ∧
    ServiceKept hiddenService exposedService (copyDesired .service hiddenService exposedService) ∧
    copyDesired .service (copyDesired .service hiddenService exposedService) exposedService =
      copyDesired .service hiddenService exposedService ∧
    (final (applyObject .service exposedService []) exposedNamespace).visible =
      exposedNamespace.visible := by
  have hports : DistinctPorts .service exposedService := List.nodup_singleton _
  have hsettles := copyDesired_settles .service exposedService [] hports
  refine ⟨hports, hsettles.1 hiddenService, hsettles.2.1 hiddenService, ?_⟩
  exact (hsettles.2.2.1 exposedNamespace (copyDesired .service hiddenService exposedService) rfl
    Std.ExtTreeMap.getElem?_insert_self).mpr ⟨hsettles.2.1 hiddenService, rfl⟩

end Controller

end AuroraOperator

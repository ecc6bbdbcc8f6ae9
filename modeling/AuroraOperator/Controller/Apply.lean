/-
# Applying a plan: objects

The part of a Reconcile that creates, updates and deletes ConfigMaps, Deployments and
Services: `applyDesired` and the clean-up of instances that are gone.  None of it touches a pod
or the stored status, whether it succeeds or fails half way (`applyDesired_keeps`,
`cleanupRemovedInstanceResources_keeps`).
-/
import AuroraOperator.Controller.Drift

namespace AuroraOperator

namespace Controller

open Planner Render Program

/-! ## 1. One object -/

def setOwner (kind : Kind) (owner : PgBouncerAurora) (object : kind.Object) : kind.Object :=
  kind.setMetadata object { kind.metadata object with
    ownerReferences := [{ name := owner.name, uid := owner.uid }] }

/-- Losing the race to create an object counts as a conflict. -/
def alreadyExistsToConflict : ApiError → ApiError
  | .alreadyExists => .conflict
  | e => e

/-- `hollow` lists the hollow parts of the desired object.  An object that was read has none, so
`reflect.DeepEqual` finds a difference as soon as one is left in the merge. -/
def applyObject (kind : Kind) (desired : kind.Object) (hollow : List Part) : Api Unit :=
  let name := (kind.metadata desired).name
  retryOnConflict do
    match ← ignoreNotFound (getObject kind name) with
    | none => mapError alreadyExistsToConflict (createObject kind desired)
    | some existing =>
      let updated := copyDesired kind existing desired
      if existing = updated ∧ hollowAfter kind existing desired hollow = [] then pure ()
      else updateObject kind name updated

def deleteIfPresent (kind : Kind) (name : String) : Api Unit := do
  let _ ← ignoreNotFound (deleteObject kind name)

def deleteInstanceResources (resource : PgBouncerAurora) (instanceName : String) : Api Unit :=
  let name := instanceResourceName resource.name instanceName
  [Kind.configMap, .deployment, .service].forM fun kind => deleteIfPresent kind name

/-! ## 2. All objects of a plan -/

def applyInstance (resource : PgBouncerAurora) (digest : Option (Digest AuthFileMetadata))
    (entry : InstancePlan) : Api Unit := do
  applyObject .configMap
    (setOwner .configMap resource (configMap resource entry.toInstanceObservation)) []
  applyObject .deployment
    (setOwner .deployment resource (instanceDeployment resource entry digest)) (hollowParts resource)
  applyObject .service (setOwner .service resource (instanceService resource entry)) []

def cleanupStaleRoleServices (resource : PgBouncerAurora) : Api Unit := do
  let desiredNames := [serviceNameForRole resource .writer, serviceNameForRole resource .reader]
  let services ← listObjects .service resource
  services.forM fun entry =>
    if isStaleRoleService resource desiredNames entry.1 entry.2 then
      deleteIfPresent .service entry.1
    else pure ()

def cleanupDisabledInstanceResources (resource : PgBouncerAurora) (plan : Output) : Api Unit :=
  plan.instances.forM fun entry =>
    if entry.disabled then deleteInstanceResources resource entry.name else pure ()

/-- The Secret is only read when there is an instance to render. -/
def planDigest (resource : PgBouncerAurora) (plan : Output) :
    Api (Option (Digest AuthFileMetadata)) :=
  if (activePlanInstances plan.instances).length > 0 then authFileHash resource else pure none

def applyDesired (resource : PgBouncerAurora) (plan : Output) : Api Unit := do
  let digest ← planDigest resource plan
  (activePlanInstances plan.instances).forM (applyInstance resource digest)
  [Role.writer, .reader].forM fun role =>
    applyObject .service (setOwner .service resource (roleService resource role)) []
  cleanupStaleRoleServices resource
  cleanupDisabledInstanceResources resource plan

/-! ## 3. Instances that are gone -/

/-- An entry of the missing list that stays: it is back, or its time has not come. -/
def keepsMissing (resource : PgBouncerAurora) (discovery : DiscoveryResult) (now : Int)
    (missing : MissingInstanceStatus) : Bool :=
  discoveredInstanceSet discovery.instances missing.instanceName ||
    !removedInstanceReadyForDelete resource missing now

/-- The loop of `cleanupRemovedInstanceResources`: the entries that remain. -/
def cleanupRemovedFrom (resource : PgBouncerAurora) (discovery : DiscoveryResult) (now : Int) :
    List MissingInstanceStatus → Api (List MissingInstanceStatus)
  | [] => pure []
  | missing :: rest =>
    if keepsMissing resource discovery now missing then do
      let remaining ← cleanupRemovedFrom resource discovery now rest
      pure (missing :: remaining)
    else do
      deleteInstanceResources resource missing.instanceName
      cleanupRemovedFrom resource discovery now rest

def cleanupRemovedInstanceResources (resource : PgBouncerAurora) (discovery : DiscoveryResult)
    (missing : List MissingInstanceStatus) (now : Int) : Api (List MissingInstanceStatus) :=
  if !discovery.trusted then pure missing
  else cleanupRemovedFrom resource discovery now missing

/-! ## 4. Frames -/

section Frames

variable {R : World → World → Prop} (hR : Frame R)
include hR

theorem applyObject_within {kind : Kind} {desired : kind.Object} {hollow : List Part}
    (hcreate : Within R (createObject kind desired))
    (hupdate : ∀ object, Within R (updateObject kind (kind.metadata desired).name object)) :
    Within R (applyObject kind desired hollow) := by
  unfold applyObject retryOnConflict
  refine Within.retry hR.toSteps (Within.bind hR.toSteps
    (Within.recover (hR.read (fetch_keeps _))) fun found => ?_) 4
  split
  · exact Within.mapError hcreate
  · exact Within.ite _ (Within.pure hR.toSteps _) (hupdate _)

theorem deleteIfPresent_within {kind : Kind} {name : String}
    (hdelete : Within R (deleteObject kind name)) : Within R (deleteIfPresent kind name) :=
  Within.bind hR.toSteps (Within.recover hdelete) fun _ => Within.pure hR.toSteps _

theorem deleteInstanceResources_within {resource : PgBouncerAurora} {instanceName : String}
    (hdelete : ∀ kind, Within R
      (deleteObject kind (instanceResourceName resource.name instanceName))) :
    Within R (deleteInstanceResources resource instanceName) :=
  Within.forM hR.toSteps fun kind _ => deleteIfPresent_within hR (hdelete kind)

theorem applyInstance_within (hcreate : ∀ kind object, Within R (createObject kind object))
    (hupdate : ∀ kind name object, Within R (updateObject kind name object))
    (resource : PgBouncerAurora) (digest : Option (Digest AuthFileMetadata))
    (entry : InstancePlan) : Within R (applyInstance resource digest entry) :=
  Within.bind hR.toSteps (applyObject_within hR (hcreate _ _) (hupdate _ _)) fun _ =>
    Within.bind hR.toSteps (applyObject_within hR (hcreate _ _) (hupdate _ _)) fun _ =>
      applyObject_within hR (hcreate _ _) (hupdate _ _)

end Frames

theorem applyObject_keeps (kind : Kind) (desired : kind.Object) (hollow : List Part) :
    Keeps World.podSide (applyObject kind desired hollow) :=
  applyObject_within frame_podSide (createObject_keeps _ _) (updateObject_keeps _ _)

theorem deleteIfPresent_keeps (kind : Kind) (name : String) :
    Keeps World.podSide (deleteIfPresent kind name) :=
  deleteIfPresent_within frame_podSide (deleteObject_keeps _ _)

theorem deleteInstanceResources_keeps (resource : PgBouncerAurora) (instanceName : String) :
    Keeps World.podSide (deleteInstanceResources resource instanceName) :=
  deleteInstanceResources_within frame_podSide fun _ => deleteObject_keeps _ _

theorem applyInstance_keeps (resource : PgBouncerAurora)
    (digest : Option (Digest AuthFileMetadata)) (entry : InstancePlan) :
    Keeps World.podSide (applyInstance resource digest entry) :=
  applyInstance_within frame_podSide createObject_keeps updateObject_keeps resource digest entry

theorem cleanupStaleRoleServices_keeps (resource : PgBouncerAurora) :
    Keeps World.podSide (cleanupStaleRoleServices resource) :=
  Keeps.bind (Keeps.podSide (listObjects_keeps _ _)) fun _ =>
    Keeps.forM (fun _ => Keeps.ite _ (deleteIfPresent_keeps _ _) (Keeps.pure _)) _

theorem cleanupDisabledInstanceResources_keeps (resource : PgBouncerAurora) (plan : Output) :
    Keeps World.podSide (cleanupDisabledInstanceResources resource plan) :=
  Keeps.forM (fun _ => Keeps.ite _ (deleteInstanceResources_keeps _ _) (Keeps.pure _)) _

/-- **Applying objects touches neither pods nor the status.** -/
theorem applyDesired_keeps (resource : PgBouncerAurora) (plan : Output) :
    Keeps World.podSide (applyDesired resource plan) := by
  unfold applyDesired
  refine Keeps.bind
    (Keeps.ite _ (Keeps.podSide (authFileHash_keeps resource)) (Keeps.pure none)) fun _ => ?_
  refine Keeps.bind (Keeps.forM (applyInstance_keeps _ _) _) fun _ => ?_
  refine Keeps.bind (Keeps.forM (fun _ => applyObject_keeps _ _ _) _) fun _ => ?_
  exact Keeps.bind (cleanupStaleRoleServices_keeps _) fun _ =>
    cleanupDisabledInstanceResources_keeps _ _

theorem cleanupRemovedFrom_keeps (resource : PgBouncerAurora) (discovery : DiscoveryResult)
    (now : Int) (missing : List MissingInstanceStatus) :
    Keeps World.podSide (cleanupRemovedFrom resource discovery now missing) := by
  induction missing with
  | nil => exact Keeps.pure _
  | cons m rest ih =>
    unfold cleanupRemovedFrom
    exact Keeps.ite _ (Keeps.bind ih fun _ => Keeps.pure _)
      (Keeps.bind (deleteInstanceResources_keeps _ _) fun _ => ih)

theorem cleanupRemovedInstanceResources_keeps (resource : PgBouncerAurora)
    (discovery : DiscoveryResult) (missing : List MissingInstanceStatus) (now : Int) :
    Keeps World.podSide (cleanupRemovedInstanceResources resource discovery missing now) := by
  unfold cleanupRemovedInstanceResources
  exact Keeps.ite _ (Keeps.pure _) (cleanupRemovedFrom_keeps _ _ _ _)

/-! ## 5. What remains of the missing list -/

theorem cleanupRemovedFrom_eq_ok {resource : PgBouncerAurora} {discovery : DiscoveryResult}
    {now : Int} {missing remaining : List MissingInstanceStatus} {w w' : World}
    (h : cleanupRemovedFrom resource discovery now missing w = .ok remaining w') :
    remaining = missing.filter (keepsMissing resource discovery now) := by
  induction missing generalizing w remaining with
  | nil =>
    cases h
    rfl
  | cons m rest ih =>
    unfold cleanupRemovedFrom at h
    by_cases hk : keepsMissing resource discovery now m = true
    · rw [if_pos hk] at h
      obtain ⟨kept, w₁, h₁, h₂⟩ := bind_eq_ok.mp h
      cases h₂
      rw [List.filter_cons_of_pos hk, ih h₁]
    · rw [if_neg hk] at h
      obtain ⟨_, w₁, -, h₂⟩ := bind_eq_ok.mp h
      rw [List.filter_cons_of_neg hk, ih h₂]

/-- When it succeeds, exactly the entries that are due are gone from the list. -/
theorem cleanupRemovedInstanceResources_eq_ok {resource : PgBouncerAurora}
    {discovery : DiscoveryResult} {missing remaining : List MissingInstanceStatus} {now : Int}
    {w w' : World}
    (h : cleanupRemovedInstanceResources resource discovery missing now w = .ok remaining w')
    (ht : discovery.trusted = true) :
    remaining = missing.filter (keepsMissing resource discovery now) := by
  unfold cleanupRemovedInstanceResources at h
  rw [if_neg (by simp [ht])] at h
  exact cleanupRemovedFrom_eq_ok h

end Controller

end AuroraOperator

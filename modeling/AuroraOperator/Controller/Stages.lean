/-
# The stages of an apply

An apply first brings the objects to the plan, which needs the digest of the auth-file Secret
(`applyWith`), and then removes what is not wanted any more, labels the pods and restarts writers
(`finishApply`).  For each stage there are two rules: it stays within a relation if its calls do,
and it stops at a failure that is not a lost race.
-/
import AuroraOperator.Controller.Relabelling
import AuroraOperator.Controller.Reconcile

namespace AuroraOperator

namespace Controller

open Planner Render Program

/-! ## 1. The stages -/

/-- What `applyDesired` does once it has the digest. -/
def applyWith (resource : PgBouncerAurora) (plan : Output)
    (digest : Option (Digest AuthFileMetadata)) : Api Unit := do
  (activePlanInstances plan.instances).forM (applyInstance resource digest)
  [Role.writer, .reader].forM fun role =>
    applyObject .service (setOwner .service resource (roleService resource role)) []
  cleanupStaleRoleServices resource
  cleanupDisabledInstanceResources resource plan

/-- What an apply does once the objects are there. -/
def finishApply (resource : PgBouncerAurora) (discovery : DiscoveryResult) (plan : Output)
    (missing : List MissingInstanceStatus) (now : Int) : Api (List MissingInstanceStatus) := do
  let remaining ← cleanupRemovedInstanceResources resource discovery missing now
  patchPodMembership resource plan
  handleWriterChangeConnection resource plan
  pure remaining

theorem applyDesired_eq (resource : PgBouncerAurora) (plan : Output) :
    applyDesired resource plan = planDigest resource plan >>= applyWith resource plan := rfl

theorem applyPlan_eq (resource : PgBouncerAurora) (discovery : DiscoveryResult) (plan : Output)
    (missing : List MissingInstanceStatus) (now : Int) :
    applyPlan resource discovery plan missing now
      = applyDesired resource plan >>= fun _ => finishApply resource discovery plan missing now :=
  rfl

/-! ## 2. What the stages stay within -/

section Within

variable {R : World → World → Prop} (hR : Frame R) {resource : PgBouncerAurora} {plan : Output}
include hR

theorem applyWith_within {digest : Option (Digest AuthFileMetadata)}
    (hinstance : ∀ entry ∈ activePlanInstances plan.instances,
      Within R (applyInstance resource digest entry))
    (hrole : ∀ role, Within R
      (applyObject .service (setOwner .service resource (roleService resource role)) []))
    (hstale : ∀ name, Within R (deleteObject .service name))
    (hdisabled : ∀ kind, ∀ name ∈ disabledNames resource plan, Within R (deleteObject kind name)) :
    Within R (applyWith resource plan digest) := by
  refine Within.bind hR.toSteps (Within.forM hR.toSteps hinstance) fun _ => ?_
  refine Within.bind hR.toSteps (Within.forM hR.toSteps fun role _ => hrole role) fun _ => ?_
  refine Within.bind hR.toSteps
    (fun w => cleanupStaleRoleServices_final hR fun name _ => hstale name) fun _ => ?_
  refine Within.forM hR.toSteps fun entry hentry => ?_
  split
  · rename_i hoff
    exact deleteInstanceResources_within hR fun kind => hdisabled kind _
      (List.mem_map.mpr ⟨entry, List.mem_filter.mpr ⟨hentry, hoff⟩, rfl⟩)
  · exact Within.pure hR.toSteps _

theorem cleanupRemovedFrom_within {discovery : DiscoveryResult} {now : Int}
    {missing : List MissingInstanceStatus}
    (hdelete : ∀ kind, ∀ m ∈ missing, keepsMissing resource discovery now m = false →
      Within R (deleteObject kind (instanceResourceName resource.name m.instanceName))) :
    Within R (cleanupRemovedFrom resource discovery now missing) := by
  induction missing with
  | nil => exact Within.pure hR.toSteps _
  | cons m rest ih =>
    have hrest := ih fun kind m' hm' => hdelete kind m' (List.mem_cons_of_mem m hm')
    unfold cleanupRemovedFrom
    split
    · exact Within.bind hR.toSteps hrest fun _ => Within.pure hR.toSteps _
    · rename_i hgone
      refine Within.bind hR.toSteps (deleteInstanceResources_within hR fun kind => ?_) fun _ => hrest
      exact hdelete kind m (List.mem_cons_self ..) (by simpa using hgone)

theorem finishApply_within {discovery : DiscoveryResult} {missing : List MissingInstanceStatus}
    {now : Int}
    (hremoved : ∀ kind, ∀ m ∈ missing, keepsMissing resource discovery now m = false →
      Within R (deleteObject kind (instanceResourceName resource.name m.instanceName)))
    (hpatch : ∀ name labels, Within R (patchPod name labels))
    (hrestart : RestartsFor resource plan → ∀ name ∈ restartTargets resource plan
        (effectiveWriterChangeConnectionHandling resource),
      Within R (restartDeployment (planToken resource plan)
        (instanceResourceName resource.name name))) :
    Within R (finishApply resource discovery plan missing now) := by
  refine Within.bind hR.toSteps (Within.ite _ (Within.pure hR.toSteps _)
    (cleanupRemovedFrom_within hR hremoved)) fun _ => ?_
  refine Within.bind hR.toSteps (patchPodMembership_within hR hpatch resource plan) fun _ => ?_
  refine Within.bind hR.toSteps ?_ fun _ => Within.pure hR.toSteps _
  unfold handleWriterChangeConnection
  dsimp only
  split
  · exact Within.pure hR.toSteps _
  · rename_i hhandled
    split
    · exact Within.pure hR.toSteps _
    · rename_i hlast
      simp only [Bool.or_eq_true, decide_eq_true_eq, Bool.not_eq_true', not_or,
        Bool.not_eq_false] at hhandled
      exact Within.forM hR.toSteps
        (hrestart ⟨hhandled.1, hhandled.2, fun hnil => hlast (by rw [hnil]; rfl)⟩)

end Within

/-! ## 3. Where the stages stop -/

/-- Losing a race to another writer is dealt with. -/
def LostRace (e : ApiError) : Prop := e = .conflict ∨ e = .alreadyExists

theorem applyObject_stops (kind : Kind) (desired : kind.Object) (hollow : List Part) :
    StopsAtFault LostRace (applyObject kind desired hollow) := by
  refine StopsAtFault.retryOnConflict (Or.inl rfl)
    (StopsAtFault.bind (StopsAtFault.ignoreNotFound (fetch_stops _)) fun found => ?_)
  split
  · refine StopsAtFault.mapError (fun e => ?_) (createObject_stops _ _)
    cases e with
    | alreadyExists => exact Or.inl (Or.inr rfl)
    | _ => exact Or.inr rfl
  · exact StopsAtFault.ite _ (StopsAtFault.pure _) (updateObject_stops _ _ _)

theorem deleteIfPresent_stops (kind : Kind) (name : String) :
    StopsAtFault LostRace (deleteIfPresent kind name) :=
  StopsAtFault.bind (StopsAtFault.ignoreNotFound (deleteObject_stops _ _)) fun _ =>
    StopsAtFault.pure _

theorem deleteInstanceResources_stops (resource : PgBouncerAurora) (instanceName : String) :
    StopsAtFault LostRace (deleteInstanceResources resource instanceName) :=
  StopsAtFault.forM (fun _ => deleteIfPresent_stops _ _) _

theorem applyWith_stops (resource : PgBouncerAurora) (plan : Output)
    (digest : Option (Digest AuthFileMetadata)) :
    StopsAtFault LostRace (applyWith resource plan digest) := by
  refine StopsAtFault.bind (StopsAtFault.forM (fun _ => StopsAtFault.bind (applyObject_stops _ _ _)
    fun _ => StopsAtFault.bind (applyObject_stops _ _ _) fun _ => applyObject_stops _ _ _) _)
    fun _ => ?_
  refine StopsAtFault.bind (StopsAtFault.forM (fun _ => applyObject_stops _ _ _) _) fun _ => ?_
  refine StopsAtFault.bind (StopsAtFault.bind (listObjects_stops _ _) fun _ => StopsAtFault.forM
    (fun _ => StopsAtFault.ite _ (deleteIfPresent_stops _ _) (StopsAtFault.pure _)) _) fun _ => ?_
  exact StopsAtFault.forM (fun _ =>
    StopsAtFault.ite _ (deleteInstanceResources_stops _ _) (StopsAtFault.pure _)) _

theorem cleanupRemovedFrom_stops (resource : PgBouncerAurora) (discovery : DiscoveryResult)
    (now : Int) (missing : List MissingInstanceStatus) :
    StopsAtFault LostRace (cleanupRemovedFrom resource discovery now missing) := by
  induction missing with
  | nil => exact StopsAtFault.pure _
  | cons m rest ih =>
    exact StopsAtFault.ite _ (StopsAtFault.bind ih fun _ => StopsAtFault.pure _)
      (StopsAtFault.bind (deleteInstanceResources_stops _ _) fun _ => ih)

theorem restartDeployment_stops (token : Value) (name : String) :
    StopsAtFault LostRace (restartDeployment token name) := by
  refine StopsAtFault.retryOnConflict (Or.inl rfl)
    (StopsAtFault.bind (StopsAtFault.ignoreNotFound (fetch_stops _)) fun found => ?_)
  split
  · exact StopsAtFault.pure _
  · exact StopsAtFault.ite _ (StopsAtFault.pure _) (updateObject_stops _ _ _)

theorem finishApply_stops (resource : PgBouncerAurora) (discovery : DiscoveryResult)
    (plan : Output) (missing : List MissingInstanceStatus) (now : Int) :
    StopsAtFault LostRace (finishApply resource discovery plan missing now) := by
  refine StopsAtFault.bind (StopsAtFault.ite _ (StopsAtFault.pure _)
    (cleanupRemovedFrom_stops _ _ _ _)) fun _ => ?_
  refine StopsAtFault.bind (patchPodMembership_stops (Or.inl rfl) _ _) fun _ => ?_
  refine StopsAtFault.bind (StopsAtFault.ite _ (StopsAtFault.pure _) <|
    StopsAtFault.ite _ (StopsAtFault.pure _) <|
      StopsAtFault.forM (fun _ => restartDeployment_stops _ _) _) fun _ => StopsAtFault.pure _

theorem planFor_stops (resource : PgBouncerAurora) (evaluation : Evaluation)
    (missing : List MissingInstanceStatus) :
    StopsAtFault LostRace (planFor resource evaluation missing) := by
  unfold planFor
  dsimp only
  split
  · exact StopsAtFault.pure _
  · exact StopsAtFault.bind (listPods_stops _) fun _ => StopsAtFault.pure _

theorem commitStatus_stops (next : PgBouncerAurora → Option Status) :
    StopsAtFault LostRace (commitStatus next) := by
  refine StopsAtFault.retryOnConflict (Or.inl rfl)
    (StopsAtFault.bind getResource_stops fun fresh => ?_)
  split
  · exact StopsAtFault.pure _
  · exact StopsAtFault.ite _ (StopsAtFault.pure _)
      (StopsAtFault.bind (updateResourceStatus_stops _) fun _ => StopsAtFault.pure _)

end Controller

end AuroraOperator

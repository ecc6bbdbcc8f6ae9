/-
# Templates that an apply leaves alone

An apply renders every Deployment again and copies the result over what is stored, but for the
restart annotation.  If the stored template was rendered from the same spec, plan and digest, that
changes nothing, so pods do not roll.

* `reapplies_applied`: what was applied with a digest can be applied with it again.
* `apply_stays`: a whole apply over such Deployments, restarts included, keeps their templates.
-/
import AuroraOperator.Controller.Isolation

namespace AuroraOperator

namespace Controller

open Planner Render Program

/-! ## 1. Applying the same again -/

section Templates

variable {resource : PgBouncerAurora} {plan : Output} {digest : Option (Digest AuthFileMetadata)}

/-- Applying the entry with this digest leaves the template of the Deployment as it is. -/
def Reapplies (resource : PgBouncerAurora) (digest : Option (Digest AuthFileMetadata))
    (entry : InstancePlan) (deployment : Deployment) : Prop :=
  Deployment.template (copyDesired .deployment deployment
    (setOwner .deployment resource (instanceDeployment resource entry digest))) = deployment.template

/-- The template of an update is the rendered one, with the restart annotation of the old. -/
theorem template_copyDesired (existing desired : Deployment) :
    Deployment.template (copyDesired .deployment existing desired)
      = (preserveRestartAnnotations desired (restartMark existing)).template := by
  simp only [copyDesired]
  cases restartMark existing <;> rfl

theorem Reapplies.congr {entry : InstancePlan} {deployment other : Deployment}
    (h : Reapplies resource digest entry deployment)
    (htemplate : other.template = deployment.template) : Reapplies resource digest entry other := by
  unfold Reapplies at h ⊢
  rw [template_copyDesired] at h ⊢
  unfold restartMark at h ⊢
  rw [htemplate]
  exact h

theorem restartMark_eq_some {deployment : Deployment} {token : Value} :
    restartMark deployment = some token ↔
      deployment.template.annotations[restartedAtAnnotationKey]? = some token ∧
        token ≠ .text "" := by
  unfold restartMark
  split
  · rename_i hempty
    rw [hempty]
    constructor
    · nofun
    · rintro ⟨heq, hne⟩
      exact absurd (Option.some.inj heq).symm hne
  · rename_i hne
    exact ⟨fun h => ⟨h, fun hempty => hne (hempty ▸ h)⟩, fun h => h.1⟩

/-- Writing the annotation that is there changes nothing. -/
theorem preserveRestart_self (deployment : Deployment) :
    (preserveRestartAnnotations deployment (restartMark deployment)).template
      = deployment.template := by
  cases h : restartMark deployment with
  | none => rfl
  | some token =>
    have hat := (restartMark_eq_some.mp h).1
    have hsame : deployment.template.annotations.insert restartedAtAnnotationKey token
        = deployment.template.annotations := by
      ext key value
      rw [Std.ExtTreeMap.getElem?_insert]
      by_cases hkey : restartedAtAnnotationKey = key
      · subst hkey
        simp [hat]
      · simp [hkey]
    simp only [preserveRestartAnnotations, setRestartMark, hsame]

/-- **Applying a Deployment again** finds the restart annotation where it was put. -/
theorem template_applied_again (existing : Option Deployment) (desired : Deployment) :
    Deployment.template (copyDesired .deployment (applied .deployment existing desired) desired)
      = Deployment.template (applied .deployment existing desired) := by
  rw [template_copyDesired]
  cases existing with
  | none => exact preserveRestart_self desired
  | some existing =>
    have hstored : Deployment.template (applied .deployment (some existing) desired)
        = (preserveRestartAnnotations desired (restartMark existing)).template :=
      template_copyDesired existing desired
    cases hold : restartMark existing with
    | none =>
      rw [hold] at hstored
      have hsame : restartMark (applied .deployment (some existing) desired)
          = restartMark desired := by
        unfold restartMark
        rw [hstored]
        rfl
      rw [hsame, hstored]
      exact preserveRestart_self desired
    | some token =>
      rw [hold] at hstored
      have hcarried : restartMark (applied .deployment (some existing) desired)
          = some token := by
        refine restartMark_eq_some.mpr ⟨?_, (restartMark_eq_some.mp hold).2⟩
        rw [hstored]
        exact setRestartMark_carries desired token
      rw [hcarried, hstored]

/-- What was applied with a digest reapplies with it. -/
theorem reapplies_applied (existing : Option Deployment) (entry : InstancePlan) :
    Reapplies resource digest entry (applied .deployment existing
      (setOwner .deployment resource (instanceDeployment resource entry digest))) :=
  template_applied_again existing _

/-- The Deployments of the active instances are rendered with the digest, and those that the plan
restarts are restarted. -/
structure Rendered (resource : PgBouncerAurora) (plan : Output)
    (digest : Option (Digest AuthFileMetadata)) (deployments : StringMap Deployment) : Prop where
  each : ∀ entry ∈ activePlanInstances plan.instances, ∃ deployment : Deployment,
    deployments[instanceResourceName resource.name entry.name]? = some deployment ∧
      Reapplies resource digest entry deployment
  restarted : RestartsFor resource plan → ∀ name ∈ restartTargets resource plan
      (effectiveWriterChangeConnectionHandling resource),
    Restarted (planToken resource plan) deployments (instanceResourceName resource.name name)

/-- No Deployment is new or has another template. -/
def TemplatesKept (before after : StringMap Deployment) : Prop :=
  ∀ name : String, after[name]? = none ∨
    after[name]?.map Deployment.template = before[name]?.map Deployment.template

theorem TemplatesKept.refl (deployments : StringMap Deployment) :
    TemplatesKept deployments deployments := fun _ => Or.inr rfl

theorem TemplatesKept.trans {d₁ d₂ d₃ : StringMap Deployment} (h₁ : TemplatesKept d₁ d₂)
    (h₂ : TemplatesKept d₂ d₃) : TemplatesKept d₁ d₃ := by
  intro name
  rcases h₂ name with hnone | hsame
  · exact Or.inl hnone
  · rcases h₁ name with hnone | hsame₁
    · left
      rw [hnone] at hsame
      simpa using hsame
    · exact Or.inr (hsame.trans hsame₁)

/-- A Deployment that is still there has the template it had. -/
theorem TemplatesKept.template {before after : StringMap Deployment}
    (h : TemplatesKept before after) {name : String} {deployment : Deployment}
    (hat : after[name]? = some deployment) :
    ∃ old, before[name]? = some old ∧ deployment.template = old.template := by
  rcases h name with hnone | hsame
  · rw [hat] at hnone
    cases hnone
  · rw [hat, Option.map_some] at hsame
    obtain ⟨old, hold, heq⟩ := Option.map_eq_some_iff.mp hsame.symm
    exact ⟨old, hold, heq.symm⟩

theorem Rendered.mono {before after : StringMap Deployment}
    (h : Rendered resource plan digest before) (hkept : TemplatesKept before after)
    (hthere : ∀ entry ∈ activePlanInstances plan.instances,
      after[instanceResourceName resource.name entry.name]? ≠ none) :
    Rendered resource plan digest after where
  each entry hentry := by
    obtain ⟨deployment, hat⟩ := Option.ne_none_iff_exists'.mp (hthere entry hentry)
    obtain ⟨old, hold, htemplate⟩ := hkept.template hat
    obtain ⟨_, hat', hreapplies⟩ := h.each entry hentry
    rw [hold] at hat'
    cases hat'
    exact ⟨deployment, hat, hreapplies.congr htemplate⟩
  restarted hrestarts name hname deployment hat := by
    obtain ⟨old, hold, htemplate⟩ := hkept.template hat
    rw [htemplate]
    exact h.restarted hrestarts name hname old hold

/-- A program that finds the Deployments rendered leaves them so, and their templates too. -/
def StaysRendered (resource : PgBouncerAurora) (plan : Output)
    (digest : Option (Digest AuthFileMetadata)) (w w' : World) : Prop :=
  Rendered resource plan digest w.cluster.deployments →
    Rendered resource plan digest w'.cluster.deployments ∧
      TemplatesKept w.cluster.deployments w'.cluster.deployments

theorem staysRendered_of_same {w w' : World}
    (h : w'.cluster.deployments = w.cluster.deployments) :
    StaysRendered resource plan digest w w' := by
  intro hrendered
  rw [h]
  exact ⟨hrendered, .refl _⟩

theorem frame_staysRendered : Frame (StaysRendered resource plan digest) where
  refl _ := staysRendered_of_same rfl
  trans h₁ h₂ hrendered := by
    obtain ⟨hrendered₁, hkept₁⟩ := h₁ hrendered
    obtain ⟨hrendered₂, hkept₂⟩ := h₂ hrendered₁
    exact ⟨hrendered₂, hkept₁.trans hkept₂⟩
  reads h := staysRendered_of_same (congrArg (fun v => v.2.1.deployments) h)

/-! ## 2. A whole apply with the same digest -/

theorem Within.stays {α : Type} {m : Api α} (hm : Keeps (fun w : World => w.cluster.deployments) m) :
    Within (StaysRendered resource plan digest) m := fun w => staysRendered_of_same (hm w)

theorem deployments_setObjects {kind : Kind} (h : kind ≠ .deployment) (m : StringMap kind.Object)
    (cluster : Cluster) : (setObjects kind m cluster).deployments = cluster.deployments :=
  objects_setObjects_of_ne (Ne.symm h) m cluster

theorem applyObject_keeps_deployments {kind : Kind} (h : kind ≠ .deployment)
    (desired : kind.Object) (hollow : List Part) :
    Keeps (fun w : World => w.cluster.deployments) (applyObject kind desired hollow) := by
  refine applyObject_within (frame_view (fun v => v.2.1.deployments) fun _ => rfl)
    (Keeps.call (fun _ _ => rfl) fun w => ?_)
    fun object => Keeps.call (fun _ _ => rfl) fun w => ?_
  · dsimp only [final]
    cases (objects kind w.cluster)[(kind.metadata desired).name]? with
    | none => exact deployments_setObjects h _ _
    | some _ => rfl
  · dsimp only [final]
    cases (objects kind w.cluster)[(kind.metadata desired).name]? with
    | none => rfl
    | some _ => exact deployments_setObjects h _ _

/-- Deleting what is not an active instance's. -/
theorem deleteObject_stays {name : String} (hname : ∀ entry ∈ activePlanInstances plan.instances,
      instanceResourceName resource.name entry.name ≠ name) (kind : Kind) :
    Within (StaysRendered resource plan digest) (deleteObject kind name) := by
  intro w
  cases hrun : deleteObject kind name w with
  | error e w' =>
    rw [final_of_error hrun]
    exact staysRendered_of_same
      (congrArg (fun v => v.2.1.deployments) (deleteObject_clean kind name hrun))
  | ok _ w' =>
    rw [final_of_ok hrun]
    obtain ⟨hgone, honly⟩ := deleteObject_eq_ok hrun
    intro hrendered
    have hother : ∀ other, other ≠ name →
        w'.cluster.deployments[other]? = w.cluster.deployments[other]? :=
      fun other hne => honly.others .deployment other fun _ => hne
    have hkept : TemplatesKept w.cluster.deployments w'.cluster.deployments := by
      intro other
      by_cases hat : other = name ∧ kind = .deployment
      · obtain ⟨rfl, rfl⟩ := hat
        exact Or.inl hgone
      · right
        rw [show w'.cluster.deployments[other]? = w.cluster.deployments[other]? from
          honly.others .deployment other fun hkind hsame => hat ⟨hsame, hkind.symm⟩]
    refine ⟨hrendered.mono hkept fun entry hentry => ?_, hkept⟩
    obtain ⟨deployment, hat, -⟩ := hrendered.each entry hentry
    rw [hother _ (hname entry hentry), hat]
    nofun

/-- Updating a Deployment without touching its template. -/
theorem updateDeployment_stays {name : String} {old new : Deployment} {w : World}
    (hat : w.cluster.deployments[name]? = some old) (htemplate : new.template = old.template) :
    StaysRendered resource plan digest w (final (updateObject .deployment name new) w) := by
  cases hrun : updateObject .deployment name new w with
  | error e w' =>
    rw [final_of_error hrun]
    exact staysRendered_of_same
      (congrArg (fun v => v.2.1.deployments) (updateObject_clean .deployment name new hrun))
  | ok _ w' =>
    rw [final_of_ok hrun]
    intro hrendered
    have hget : ∀ other, w'.cluster.deployments[other]?
        = if name = other then some new else w.cluster.deployments[other]? := by
      intro other
      rw [updateDeployment_eq_ok hrun, Std.ExtTreeMap.getElem?_insert]
      simp
    have hkept : TemplatesKept w.cluster.deployments w'.cluster.deployments := by
      intro other
      right
      rw [hget]
      split
      · rename_i hsame
        rw [← hsame, hat, Option.map_some, Option.map_some, htemplate]
      · rfl
    refine ⟨hrendered.mono hkept fun entry hentry => ?_, hkept⟩
    obtain ⟨deployment, hthere, -⟩ := hrendered.each entry hentry
    rw [hget]
    split
    · nofun
    · rw [hthere]
      nofun

theorem applyDeployment_stays {entry : InstancePlan}
    (hentry : entry ∈ activePlanInstances plan.instances) :
    Within (StaysRendered resource plan digest) (applyObject .deployment
      (setOwner .deployment resource (instanceDeployment resource entry digest))
      (hollowParts resource)) := by
  have hname : (Kind.deployment.metadata (setOwner .deployment resource
      (instanceDeployment resource entry digest))).name
        = instanceResourceName resource.name entry.name := by
    rw [metadata_setOwner]
    simp only [Kind.metadata, instanceDeployment]
  unfold applyObject retryOnConflict
  rw [hname]
  refine Within.retry frame_staysRendered.toSteps (frame_staysRendered.lookup fun w hrendered => ?_) 4
  obtain ⟨deployment, hat, hreapplies⟩ := hrendered.each entry hentry
  rw [show (objects .deployment w.cluster)[instanceResourceName resource.name entry.name]?
    = some deployment from hat]
  dsimp only
  split
  · exact frame_staysRendered.refl w hrendered
  · exact updateDeployment_stays hat hreapplies hrendered

/-- A restart that was made is not made again. -/
theorem restartDeployment_stays (hrestarts : RestartsFor resource plan) {name : String}
    (hname : name ∈ restartTargets resource plan
      (effectiveWriterChangeConnectionHandling resource)) :
    Within (StaysRendered resource plan digest) (restartDeployment (planToken resource plan)
      (instanceResourceName resource.name name)) := by
  unfold restartDeployment retryOnConflict
  refine Within.retry frame_staysRendered.toSteps (frame_staysRendered.lookup fun w hrendered => ?_) 4
  have hmade := hrendered.restarted hrestarts name hname
  cases hfound : (objects .deployment w.cluster)[instanceResourceName resource.name name]? with
  | none => exact frame_staysRendered.refl w hrendered
  | some existing =>
    dsimp only
    rw [if_pos (hmade existing hfound)]
    exact frame_staysRendered.refl w hrendered

/-- **An apply with the digest of the last one** leaves every template as it is, whether it
succeeds or fails. -/
theorem apply_stays {discovery : DiscoveryResult} {missing : List MissingInstanceStatus} {now : Int}
    (hdisabled : ∀ entry ∈ activePlanInstances plan.instances,
      instanceResourceName resource.name entry.name ∉ disabledNames resource plan)
    (hremoved : ∀ entry ∈ activePlanInstances plan.instances, ∀ m ∈ missing,
      keepsMissing resource discovery now m = false →
      instanceResourceName resource.name entry.name
        ≠ instanceResourceName resource.name m.instanceName) :
    Within (StaysRendered resource plan digest) (applyWith resource plan digest >>= fun _ =>
      finishApply resource discovery plan missing now) := by
  have hR := @frame_staysRendered resource plan digest
  refine Within.bind hR.toSteps (applyWith_within hR (fun entry hentry => ?_) (fun role => ?_)
    (fun name => ?_) fun kind name hname => ?_) fun _ => finishApply_within hR
      (fun kind m hm hgone => ?_) (fun name labels => ?_) fun hrestarts name hname => ?_
  · refine Within.bind hR.toSteps (Within.stays (applyObject_keeps_deployments (by decide) _ _)) fun _ => ?_
    exact Within.bind hR.toSteps (applyDeployment_stays hentry) fun _ =>
      Within.stays (applyObject_keeps_deployments (by decide) _ _)
  · exact Within.stays (applyObject_keeps_deployments (by decide) _ _)
  · refine Within.stays (Keeps.call (fun _ _ => rfl) fun w => ?_)
    dsimp only [final]
    cases (objects .service w.cluster)[name]? <;> rfl
  · exact deleteObject_stays (fun entry hentry heq => hdisabled entry hentry (heq ▸ hname)) kind
  · exact deleteObject_stays (fun entry hentry => hremoved entry hentry m hm hgone) kind
  · exact Within.stays fun w => congrArg (fun side => side.2 .deployment) (patchPod_keeps name labels w)
  · exact restartDeployment_stays hrestarts hname

end Templates

end Controller

end AuroraOperator

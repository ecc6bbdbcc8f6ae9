/-
# Applying a plan: restarting the writers

When the writer changes, the connections of the old and the new writer's PgBouncers have to
go.  `handleWriterChangeConnection` writes a token into the pod template of their Deployments,
which makes Kubernetes roll them.  The token is a digest of the change, so writing it twice
rolls nothing twice.
-/
import AuroraOperator.Controller.Membership

namespace AuroraOperator

namespace Controller

open Planner Render Program

/-! ## 1. The programs -/

def effectiveWriterChangeConnectionHandling (resource : PgBouncerAurora) :
    WriterChangeConnectionHandling :=
  resource.spec.topologyPolicy.writerChangeConnectionHandling.getD .restartWriters

/-- The instances whose Deployments are restarted, as a sorted set. -/
def restartTargets (resource : PgBouncerAurora) (plan : Output) :
    WriterChangeConnectionHandling → List String
  | .keepExisting => []
  | .restartWriters => sortStrings (resource.status.lastAppliedMembership.writer ++
      plan.membership.writer).dedup
  | .restartAll => sortStrings ((activePlanInstances plan.instances).map (·.name) ++
      resource.status.lastAppliedMembership.writer).dedup

def writerRestartToken (resource : PgBouncerAurora) (plan : Output)
    (policy : WriterChangeConnectionHandling) (instanceNames : List String) : Value :=
  .restartToken (hashObject
    { policy := policy
      previousWriter := sortStrings resource.status.lastAppliedMembership.writer
      desiredWriter := sortStrings plan.membership.writer
      restartTargets := instanceNames
      instances := instanceApplyShapeFromPlan plan.instances })

def restartDeployment (token : Value) (name : String) : Api Unit :=
  retryOnConflict do
    match ← ignoreNotFound (getObject .deployment name) with
    | none => pure ()
    | some deployment =>
      if deployment.template.annotations[restartedAtAnnotationKey]? = some token then pure ()
      else updateObject .deployment name (setRestartMark deployment token)

def restartInstanceDeployments (resource : PgBouncerAurora) (instanceNames : List String)
    (token : Value) : Api Unit :=
  instanceNames.forM fun name =>
    restartDeployment token (instanceResourceName resource.name name)

def handleWriterChangeConnection (resource : PgBouncerAurora) (plan : Output) : Api Unit :=
  let policy := effectiveWriterChangeConnectionHandling resource
  let last := resource.status.lastAppliedMembership.writer
  if policy = .keepExisting || !membershipChanged last plan.membership.writer then pure ()
  else if last.length = 0 then pure ()
  else
    let names := restartTargets resource plan policy
    restartInstanceDeployments resource names (writerRestartToken resource plan policy names)

/-! ## 2. Frames -/

theorem restartDeployment_within {R : World → World → Prop} (hR : Frame R)
    (hupdate : ∀ kind name object, Within R (updateObject kind name object)) (token : Value)
    (name : String) : Within R (restartDeployment token name) := by
  unfold restartDeployment retryOnConflict
  refine Within.retry hR.toSteps (Within.bind hR.toSteps
    (Within.recover (hR.read (fetch_keeps _))) fun found => ?_) 4
  split
  · exact Within.pure hR.toSteps _
  · exact Within.ite _ (Within.pure hR.toSteps _) (hupdate _ _ _)

theorem handleWriterChangeConnection_within {R : World → World → Prop} (hR : Frame R)
    (hupdate : ∀ kind name object, Within R (updateObject kind name object))
    (resource : PgBouncerAurora) (plan : Output) :
    Within R (handleWriterChangeConnection resource plan) := by
  unfold handleWriterChangeConnection
  exact Within.ite _ (Within.pure hR.toSteps _) <| Within.ite _ (Within.pure hR.toSteps _) <|
    Within.forM hR.toSteps fun _ _ => restartDeployment_within hR hupdate _ _

/-- **Restarting touches neither pods nor the status.** -/
theorem handleWriterChangeConnection_keeps (resource : PgBouncerAurora) (plan : Output) :
    Keeps World.podSide (handleWriterChangeConnection resource plan) :=
  handleWriterChangeConnection_within frame_podSide updateObject_keeps resource plan

/-! ## 3. What a restart achieves -/

/-- The Deployment of that name, if there is one, carries the token. -/
def Restarted (token : Value) (deployments : StringMap Deployment) (name : String) : Prop :=
  ∀ deployment, deployments[name]? = some deployment →
    deployment.template.annotations[restartedAtAnnotationKey]? = some token

theorem setRestartMark_carries (deployment : Deployment) (token : Value) :
    (setRestartMark deployment token).template.annotations[restartedAtAnnotationKey]?
      = some token := by
  simp [setRestartMark]

theorem updateDeployment_eq_ok {name : String} {deployment : Deployment} {w w' : World}
    (h : updateObject .deployment name deployment w = .ok () w') :
    w'.cluster.deployments = w.cluster.deployments.insert name deployment := by
  obtain ⟨faults, hrun⟩ := call_eq_ok h
  dsimp only at hrun
  cases hl : (objects .deployment w.cluster)[name]? with
  | none => simp [hl] at hrun
  | some old =>
    simp only [hl, EStateM.Result.ok.injEq, true_and] at hrun
    rw [← hrun]
    rfl

/-- **One restart.**  The named Deployment carries the token, and no Deployment that carried
it before has lost it. -/
theorem restartDeployment_ensures (token : Value) (name : String) :
    Ensures (restartDeployment token name) fun w _ w' =>
      Restarted token w'.cluster.deployments name ∧
      ∀ other, Restarted token w.cluster.deployments other →
        Restarted token w'.cluster.deployments other := by
  unfold restartDeployment retryOnConflict
  refine Clean.ensures_retry World.visible ?clean ?indep ?body 4
  case clean =>
    refine Clean.bind (Keeps.recover (fetch_keeps _)) fun found => ?_
    split
    · exact Clean.of_keeps (Keeps.pure _)
    · exact Clean.ite _ (Clean.of_keeps (Keeps.pure _)) (updateObject_clean _ _ _)
  case indep =>
    intro w w₁ u w' hv hq
    have hdep : w₁.cluster.deployments = w.cluster.deployments :=
      congrArg (fun v => v.2.1.deployments) hv
    rw [hdep] at hq
    exact hq
  case body =>
    intro w u w' h
    obtain ⟨found, w₁, h₁, h₂⟩ := bind_eq_ok.mp h
    have hdep : w₁.cluster.deployments = w.cluster.deployments :=
      congrArg (fun v => v.2.1.deployments) ((Keeps.recover (fetch_keeps _)).of_ok h₁)
    cases found with
    | none =>
      obtain ⟨e, he, hcaught⟩ := recover_eq_none.mp h₁
      rw [decide_eq_true_eq] at hcaught
      subst hcaught
      have habsent : w.cluster.deployments[name]? = none := fetch_eq_notFound he
      cases h₂
      rw [hdep]
      refine ⟨fun d hd => ?_, fun _ h => h⟩
      rw [habsent] at hd
      cases hd
    | some deployment =>
      have hfound : w.cluster.deployments[name]? = some deployment :=
        fetch_eq_ok (recover_eq_some.mp h₁)
      dsimp only at h₂
      by_cases hc : deployment.template.annotations[restartedAtAnnotationKey]? = some token
      · rw [if_pos hc] at h₂
        cases h₂
        rw [hdep]
        refine ⟨fun d hd => ?_, fun _ h => h⟩
        rw [hfound] at hd
        cases hd
        exact hc
      · rw [if_neg hc] at h₂
        rw [updateDeployment_eq_ok h₂, hdep]
        have hget : ∀ other : String, (w.cluster.deployments.insert name
            (setRestartMark deployment token))[other]?
            = if name = other then some (setRestartMark deployment token)
              else w.cluster.deployments[other]? := by
          intro other
          rw [Std.ExtTreeMap.getElem?_insert]
          simp
        refine ⟨fun d hd => ?_, fun other hother d hd => ?_⟩
        · rw [hget, if_pos rfl] at hd
          cases hd
          exact setRestartMark_carries _ _
        · rw [hget] at hd
          split at hd
          · cases hd
            exact setRestartMark_carries _ _
          · exact hother d hd

theorem restartInstanceDeployments_eq_ok {resource : PgBouncerAurora} {names : List String}
    {token : Value} {w w' : World}
    (h : restartInstanceDeployments resource names token w = .ok ⟨⟩ w') :
    ∀ name ∈ names, Restarted token w'.cluster.deployments
      (instanceResourceName resource.name name) := by
  refine Ensures.forM (I := fun done v => ∀ name ∈ done, Restarted token v.cluster.deployments
    (instanceResourceName resource.name name)) ?_ h (by simp)
  intro before name after _ s s' hI hrun other hother
  obtain ⟨hone, hkeep⟩ := restartDeployment_ensures token _ hrun
  rcases List.mem_append.mp hother with hin | hin
  · exact hkeep _ (hI other hin)
  · rw [List.mem_singleton.mp hin]
    exact hone

/-- **A handled writer change.**  When the writer changes from a non-empty set and the policy
is to restart, success means that every Deployment of a target carries the token. -/
theorem handleWriterChangeConnection_eq_ok {resource : PgBouncerAurora} {plan : Output}
    {w w' : World} (h : handleWriterChangeConnection resource plan w = .ok ⟨⟩ w')
    (hpolicy : effectiveWriterChangeConnectionHandling resource ≠ .keepExisting)
    (hchanged : membershipChanged resource.status.lastAppliedMembership.writer
      plan.membership.writer = true)
    (hlast : resource.status.lastAppliedMembership.writer ≠ []) :
    ∀ name ∈ restartTargets resource plan (effectiveWriterChangeConnectionHandling resource),
      Restarted (writerRestartToken resource plan
          (effectiveWriterChangeConnectionHandling resource)
          (restartTargets resource plan (effectiveWriterChangeConnectionHandling resource)))
        w'.cluster.deployments (instanceResourceName resource.name name) := by
  unfold handleWriterChangeConnection at h
  rw [if_neg (by simp [hpolicy, hchanged]), if_neg (by simpa using hlast)] at h
  exact restartInstanceDeployments_eq_ok h

end Controller

end AuroraOperator

/-
# Does anything have to be applied?

`shouldApplyPlan` decides whether a Reconcile touches the cluster at all.  In scheduled mode
the desired state itself is not compared with the status: the decision rests on the spec
generation, on expired retentions, and on a comparison of the cluster's objects and pod labels
with what the plan asks for (`cachedPlanNeedsApply`).

Everything here only reads (`shouldApplyPlan_keeps`), and a negative answer says that the pod
labels are the plan's (`shouldApplyPlan_labels`).
-/
import AuroraOperator.Controller.Desired

namespace AuroraOperator

namespace Controller

open Planner Render Program

/-! ## 1. Pod labels -/

def boolMembershipLabelExact (labels : StringMap String) (key : String) (desired : Bool) : Bool :=
  if desired then labels[key]? == some "true" else labels[key]? == none

def roleMembershipLabelExact (labels : StringMap String) (desired : Option Role) : Bool :=
  labels[labelRole]? == desired.map Role.text

def membershipLabelsExact (labels : StringMap String) (desiredWriter desiredReader : Bool)
    (desiredRole : Option Role) : Bool :=
  boolMembershipLabelExact labels labelWriter desiredWriter &&
    boolMembershipLabelExact labels labelReader desiredReader &&
    roleMembershipLabelExact labels desiredRole

/-- `instanceRoleSet` over the active instances of a plan. -/
def planRole (plan : Output) (name : String) : Option Role :=
  if name = "" then none
  else (planByName (activePlanInstances plan.instances) name).map (·.role)

/-- A pod carries exactly the labels the plan asks for. -/
def podExact (plan : Output) (pod : Pod) : Bool :=
  membershipLabelsExact pod.labels (stringSet plan.membership.writer (podInstance pod))
    (stringSet plan.membership.reader (podInstance pod)) (planRole plan (podInstance pod))

def podsDrifted (plan : Output) (pods : List (String × Pod)) : Bool :=
  pods.any fun entry => podInstance entry.2 ≠ "" && !podExact plan entry.2

/-! ## 2. Objects -/

/-- The names a kind must have at least.  The role Services come on top for Services. -/
def expectedNames (kind : Kind) (resource : PgBouncerAurora) (plan : Output) : List String :=
  (activePlanInstances plan.instances).map (fun entry => instanceResourceName resource.name entry.name)
    ++ match kind with
      | .service => [serviceNameForRole resource .writer, serviceNameForRole resource .reader]
      | _ => []

/-- A missing name, if there is one.  The source reports whichever its map yields first; this
is the least. -/
def missingExpectedName {α : Type} (listed : List (String × α)) (expected : List String) :
    Option String :=
  (sortStrings expected).find? fun name => name ∉ listed.map (·.1)

/-- The reason a missing name gives. -/
def missingReason {α : Type} (kindText : String) (listed : List (String × α))
    (expected : List String) : Option String :=
  (missingExpectedName listed expected).map fun name => kindText ++ "-missing:" ++ name

def configMapDrifted (resource : PgBouncerAurora) (plan : Output)
    (listed : List (String × ConfigMap)) : Bool :=
  (activePlanInstances plan.instances).any fun entry =>
    let expected := configMap resource entry.toInstanceObservation
    match listed.lookup expected.metadata.name with
    | none => false
    | some existing => existing.data ≠ expected.data || existing.binaryData ≠ expected.binaryData

def servicePortsEqualIgnoringAllocated (left right : List ServicePort) : Bool :=
  left.map (fun p => (p.name, p.protocol, p.port, p.targetPort, p.appProtocol))
    = right.map (fun p => (p.name, p.protocol, p.port, p.targetPort, p.appProtocol))

def serviceSpecDrifted (existing expected : Service) : Bool :=
  existing.spec.type ≠ expected.spec.type || existing.spec.selector ≠ expected.spec.selector ||
    !servicePortsEqualIgnoringAllocated existing.spec.ports expected.spec.ports ||
    existing.metadata.annotations ≠ expected.metadata.annotations

def serviceDrifted (resource : PgBouncerAurora) (plan : Output)
    (listed : List (String × Service)) : Bool :=
  ((activePlanInstances plan.instances).map (instanceService resource) ++
    [roleService resource .writer, roleService resource .reader]).any fun expected =>
      match listed.lookup expected.metadata.name with
      | none => false
      | some existing => serviceSpecDrifted existing expected

/-- A Service of a role without the label that says so. -/
def isLegacyRoleService (resource : PgBouncerAurora) (name : String) (service : Service) : Bool :=
  service.metadata.labels[labelInstance]?.getD "" = "" &&
    (service.spec.selector[labelWriter]? == some "true" ||
      service.spec.selector[labelReader]? == some "true" ||
      name = serviceNameForRole resource .writer || name = serviceNameForRole resource .reader)

/-- A role Service under a name that is not wanted any more. -/
def isStaleRoleService (resource : PgBouncerAurora) (desiredNames : List String) (name : String)
    (service : Service) : Bool :=
  service.metadata.labels[labelInstance]?.getD "" = "" &&
    (service.metadata.labels[labelServiceRole]?.getD "" ≠ "" ||
      isLegacyRoleService resource name service) &&
    !desiredNames.contains name

/-- `deploymentDbiMetadataDrifted`: the identity is known and the label is not it. -/
def deploymentDbiMetadataDrifted (existing expected : Deployment) : Bool :=
  match deploymentDbiLabel expected with
  | none => false
  | some value => deploymentDbiLabel existing ≠ some value

def deploymentDrifted (existing expected : Deployment) : Bool :=
  deploymentDbiMetadataDrifted existing expected ||
    existing.replicas.getD 0 ≠ expected.replicas.getD 0 ||
    existing.strategyType ≠ expected.strategyType ||
    !podTemplateSemanticallyEqual existing.template expected.template

/-- An auth-file Secret that cannot be read, for whatever reason, has no digest. -/
def authFileHash (resource : PgBouncerAurora) : Api (Option (Digest AuthFileMetadata)) :=
  let secretName := resource.spec.pgbouncer.authFileSecretRef
  if secretName = "" then pure none
  else do
    let secret ← recover (fun _ => true) (getSecret secretName)
    pure (secret.map fun secret => hashObject
      { nameSpace := resource.nameSpace, name := secretName, uid := secret.uid
        resourceVersion := secret.resourceVersion })

def deploymentTemplateDrifted (resource : PgBouncerAurora) (plan : Output)
    (listed : List (String × Deployment)) : Api Bool :=
  let active := activePlanInstances plan.instances
  if active.length = 0 then pure false
  else do
    let digest ← authFileHash resource
    pure (active.any fun entry =>
      let expected := instanceDeployment resource entry digest
      match listed.lookup expected.metadata.name with
      | none => false
      | some existing => deploymentDrifted existing expected)

/-- The reasons a list of objects gives, in the source's order. -/
def configMapReason (resource : PgBouncerAurora) (plan : Output)
    (listed : List (String × ConfigMap)) : Option String :=
  (missingReason "configmap" listed (expectedNames .configMap resource plan)).or
    (if configMapDrifted resource plan listed then some "configmap-drifted" else none)

def serviceReason (resource : PgBouncerAurora) (plan : Output)
    (listed : List (String × Service)) : Option String :=
  let expected := expectedNames .service resource plan
  (missingReason "service" listed expected).or
    (if listed.any fun entry => isStaleRoleService resource expected entry.1 entry.2 then
      some "stale-role-service-exists"
    else if serviceDrifted resource plan listed then some "service-drifted"
    else none)

def cachedPlanNeedsApply (resource : PgBouncerAurora) (plan : Output) : Api (Bool × String) := do
  let configMaps ← listObjects .configMap resource
  match configMapReason resource plan configMaps with
  | some reason => pure (true, reason)
  | none => do
    let deployments ← listObjects .deployment resource
    match missingReason "deployment" deployments (expectedNames .deployment resource plan) with
    | some reason => pure (true, reason)
    | none => do
      let drifted ← deploymentTemplateDrifted resource plan deployments
      if drifted then pure (true, "deployment-template-drifted")
      else do
        let services ← listObjects .service resource
        match serviceReason resource plan services with
        | some reason => pure (true, reason)
        | none => do
          let pods ← listPods resource
          if podsDrifted plan pods then pure (true, "pod-membership-label-drifted")
          else pure (false, "no-change")

/-! ## 3. The decision -/

def instanceApplyShapeOfPlan (entry : InstancePlan) : InstanceApplyShape :=
  { name := entry.name, endpoint := entry.endpoint, port := entry.port, role := entry.role
    availabilityZone := entry.availabilityZone, dbiResourceId := entry.dbiResourceId
    disabled := entry.disabled, replicas := entry.replicas }

def instanceApplyShapeFromPlan (instances : List InstancePlan) : List InstanceApplyShape :=
  (instances.map instanceApplyShapeOfPlan).insertionSort fun a b => a.name ≤ b.name

def instanceApplyShapeFromStatus (instances : List InstanceStatus) : List InstanceApplyShape :=
  (instances.map fun status => instanceApplyShapeOfPlan (instancePlanFromStatus status)).insertionSort
    fun a b => a.name ≤ b.name

def planDesiredStateChanged (resource : PgBouncerAurora) (plan : Output) : Bool :=
  membershipChanged resource.status.lastAppliedMembership.writer plan.membership.writer ||
    membershipChanged resource.status.lastAppliedMembership.reader plan.membership.reader ||
    hashObject (instanceApplyShapeFromStatus resource.status.instances) ≠
      hashObject (instanceApplyShapeFromPlan plan.instances)

def shouldApplyPlan (resource : PgBouncerAurora) (evaluation : Evaluation) (plan : Output)
    (missing : List MissingInstanceStatus) (now : Int) : Api (Bool × String) :=
  if plan.frozen then pure (false, "frozen")
  else if resource.generation ≠ resource.status.observedGeneration ||
      resource.status.lastAppliedTime = none then pure (true, "generation-or-never-applied")
  else if (evaluation.discoveryRan || evaluation.monitorRan) &&
      planDesiredStateChanged resource plan then pure (true, "desired-state-changed")
  else if removedInstanceDeletionDue resource missing now then
    pure (true, "removed-instance-retention-expired")
  else cachedPlanNeedsApply resource plan

/-! ## 4. It only reads -/

theorem authFileHash_keeps (resource : PgBouncerAurora) :
    Keeps World.visible (authFileHash resource) := by
  unfold authFileHash
  exact Keeps.ite _ (Keeps.pure _)
    (Keeps.bind (Keeps.recover (fetch_keeps _)) fun _ => Keeps.pure _)

theorem deploymentTemplateDrifted_keeps (resource : PgBouncerAurora) (plan : Output)
    (listed : List (String × Deployment)) :
    Keeps World.visible (deploymentTemplateDrifted resource plan listed) := by
  unfold deploymentTemplateDrifted
  exact Keeps.ite _ (Keeps.pure _) (Keeps.bind (authFileHash_keeps _) fun _ => Keeps.pure _)

theorem cachedPlanNeedsApply_keeps (resource : PgBouncerAurora) (plan : Output) :
    Keeps World.visible (cachedPlanNeedsApply resource plan) := by
  unfold cachedPlanNeedsApply
  refine Keeps.bind (listObjects_keeps _ _) fun configMaps => ?_
  split
  · exact Keeps.pure _
  · refine Keeps.bind (listObjects_keeps _ _) fun deployments => ?_
    split
    · exact Keeps.pure _
    · refine Keeps.bind (deploymentTemplateDrifted_keeps _ _ _) fun drifted => ?_
      refine Keeps.ite _ (Keeps.pure _) (Keeps.bind (listObjects_keeps _ _) fun services => ?_)
      split
      · exact Keeps.pure _
      · exact Keeps.bind (listPods_keeps _) fun pods => Keeps.ite _ (Keeps.pure _) (Keeps.pure _)

/-- **Deciding changes nothing.** -/
theorem shouldApplyPlan_keeps (resource : PgBouncerAurora) (evaluation : Evaluation)
    (plan : Output) (missing : List MissingInstanceStatus) (now : Int) :
    Keeps World.visible (shouldApplyPlan resource evaluation plan missing now) := by
  unfold shouldApplyPlan
  exact Keeps.ite _ (Keeps.pure _) <| Keeps.ite _ (Keeps.pure _) <|
    Keeps.ite _ (Keeps.pure _) <| Keeps.ite _ (Keeps.pure _) <| cachedPlanNeedsApply_keeps _ _

/-! ## 5. What a negative answer says -/

/-- Every pod of the resource that belongs to an instance carries the plan's labels. -/
def LabelsExact (resource : PgBouncerAurora) (plan : Output) (cluster : Cluster) : Prop :=
  ∀ (name : String) (pod : Pod), cluster.pods[name]? = some pod →
    managed resource pod.labels = true → podInstance pod ≠ "" → podExact plan pod = true

theorem listPods_eq_ok {resource : PgBouncerAurora} {w w' : World} {pods : List (String × Pod)}
    (h : listPods resource w = .ok pods w') :
    pods = w.cluster.pods.toList.filter fun entry => managed resource entry.2.labels := by
  obtain ⟨faults, hrun⟩ := call_eq_ok h
  simp only [EStateM.Result.ok.injEq] at hrun
  exact hrun.1.symm

theorem mem_listPods {resource : PgBouncerAurora} {w w' : World} {pods : List (String × Pod)}
    (h : listPods resource w = .ok pods w') {name : String} {pod : Pod} :
    (name, pod) ∈ pods ↔ w.cluster.pods[name]? = some pod ∧ managed resource pod.labels = true := by
  rw [listPods_eq_ok h, List.mem_filter, Std.ExtTreeMap.mem_toList_iff_getElem?_eq_some]

theorem labelsExact_of_not_drifted {resource : PgBouncerAurora} {plan : Output} {w w' : World}
    {pods : List (String × Pod)} (hlist : listPods resource w = .ok pods w')
    (h : podsDrifted plan pods = false) : LabelsExact resource plan w.cluster := by
  intro name pod hpod hman hinst
  have hmem : (name, pod) ∈ pods := (mem_listPods hlist).mpr ⟨hpod, hman⟩
  have hno := List.any_eq_false.mp h _ hmem
  simpa [hinst] using hno

/-- When nothing drifted, the labels are the plan's. -/
theorem cachedPlanNeedsApply_labels {resource : PgBouncerAurora} {plan : Output} {w w' : World}
    {reason : String} (h : cachedPlanNeedsApply resource plan w = .ok (false, reason) w') :
    LabelsExact resource plan w.cluster := by
  unfold cachedPlanNeedsApply at h
  obtain ⟨configMaps, w₁, h₁, h⟩ := bind_eq_ok.mp h
  cases hc : configMapReason resource plan configMaps with
  | some reason => rw [hc] at h; cases h
  | none =>
    rw [hc] at h
    obtain ⟨deployments, w₂, h₂, h⟩ := bind_eq_ok.mp h
    cases hd : missingReason "deployment" deployments
        (expectedNames .deployment resource plan) with
    | some reason => rw [hd] at h; cases h
    | none =>
      rw [hd] at h
      obtain ⟨drifted, w₃, h₃, h⟩ := bind_eq_ok.mp h
      cases drifted with
      | true => cases h
      | false =>
        obtain ⟨services, w₄, h₄, h⟩ := bind_eq_ok.mp h
        cases hs : serviceReason resource plan services with
        | some reason => rw [hs] at h; cases h
        | none =>
          rw [hs] at h
          obtain ⟨pods, w₅, h₅, h⟩ := bind_eq_ok.mp h
          cases hp : podsDrifted plan pods with
          | true => rw [hp] at h; cases h
          | false =>
            -- the pods were listed last, but no read before that changed the cluster
            have hcluster : w₄.cluster = w.cluster := by
              have e₁ := (listObjects_keeps _ _).of_ok h₁
              have e₂ := (listObjects_keeps _ _).of_ok h₂
              have e₃ := (deploymentTemplateDrifted_keeps _ _ _).of_ok h₃
              have e₄ := (listObjects_keeps _ _).of_ok h₄
              exact congrArg (fun v => v.2.1) (e₄.trans (e₃.trans (e₂.trans e₁)))
            rw [← hcluster]
            exact labelsExact_of_not_drifted h₅ hp

/-- **A plan that need not be applied is the one the pods carry.** -/
theorem shouldApplyPlan_labels {resource : PgBouncerAurora} {evaluation : Evaluation}
    {plan : Output} {missing : List MissingInstanceStatus} {now : Int} {w w' : World}
    {reason : String} (hfrozen : plan.frozen = false)
    (h : shouldApplyPlan resource evaluation plan missing now w = .ok (false, reason) w') :
    LabelsExact resource plan w.cluster := by
  unfold shouldApplyPlan at h
  rw [if_neg (by simp [hfrozen])] at h
  by_cases h₁ : (resource.generation ≠ resource.status.observedGeneration ||
      resource.status.lastAppliedTime = none) = true
  · rw [if_pos h₁] at h; cases h
  · rw [if_neg h₁] at h
    by_cases h₂ : ((evaluation.discoveryRan || evaluation.monitorRan) &&
        planDesiredStateChanged resource plan) = true
    · rw [if_pos h₂] at h; cases h
    · rw [if_neg h₂] at h
      by_cases h₃ : removedInstanceDeletionDue resource missing now = true
      · rw [if_pos h₃] at h; cases h
      · rw [if_neg h₃] at h
        exact cachedPlanNeedsApply_labels h

end Controller

end AuroraOperator

/-
# How a pod joins a role Service

A pod comes into being with the labels of its Deployment's template, before the operator has
looked at it.  It must not take traffic of a role until a Reconcile has given it the label of the
role.  The template has the operator's own labels and those of the user, and the operator's win;
but the labels of the roles are not among them, so the user's get through.

`new_pods_wait_iff`: new pods wait for their label exactly when the user's labels do not set one
of the two to `true`.  A spec that does puts every new pod behind that role's Service
(`user_label_joins_writer`).
-/
import AuroraOperator.Controller.Relabelling
import AuroraOperator.Controller.Deletion

namespace AuroraOperator

namespace Controller

open Planner Render Program

/-! ## 1. Selectors -/

/-- A selector of equalities. -/
def Selects (selector labels : StringMap String) : Prop :=
  ∀ key value : String, selector[key]? = some value → labels[key]? = some value

section Templates

variable {owner : PgBouncerAurora} {planned other : InstancePlan}
  {digest : Option (Digest AuthFileMetadata)} {labels : StringMap String} {role : Role}

/-- A role's Service selects the pods of the resource that carry the label. -/
theorem roleService_selects : Selects (roleService owner role).spec.selector labels ↔
    managed owner labels = true ∧ labels[roleSelectorKey role]? = some "true" := by
  have hselector : ∀ key : String, (roleService owner role).spec.selector[key]? =
      if roleSelectorKey role = key then some "true"
      else if labelCluster = key then some (clusterLabelValue owner.name)
      else if labelManagedBy = key then some managedByValue else none := by
    intro key
    simp [roleService, Std.ExtTreeMap.getElem?_insert]
  have hne : roleSelectorKey role ≠ labelCluster ∧ roleSelectorKey role ≠ labelManagedBy := by
    cases role <;> decide
  rw [managed_iff]
  constructor
  · intro h
    refine ⟨⟨h _ _ ?_, h _ _ ?_⟩, h _ _ ?_⟩
    · rw [hselector, if_neg hne.2, if_neg (by decide), if_pos rfl]
    · rw [hselector, if_neg hne.1, if_pos rfl]
    · rw [hselector, if_pos rfl]
  · rintro ⟨⟨hmanaged, hcluster⟩, hrole⟩ key value hkey
    rw [hselector] at hkey
    split_ifs at hkey with h₁ h₂ h₃
    · rw [← h₁, hrole, hkey]
    · rw [← h₂, hcluster, hkey]
    · rw [← h₃, hmanaged, hkey]

theorem baseLabels_instance (clusterName instanceName : String) :
    (baseLabels clusterName instanceName)[labelInstance]? = some instanceName := by
  simp [baseLabels]

/-- The keys of the operator's own labels. -/
theorem baseLabels_none {clusterName instanceName key : String}
    (h : key ∉ [labelManagedBy, labelCluster, labelAppName, labelAppComponent, labelAppInstance,
      labelAppManagedBy, labelAppPartOf, labelInstance]) :
    (baseLabels clusterName instanceName)[key]? = none := by
  simp only [List.mem_cons, List.not_mem_nil, or_false, not_or, eq_comm (a := key)] at h
  simp [baseLabels, baseClusterLabels, h]

/-- **The operator's own labels win.** -/
theorem template_identity :
    Selects (baseLabels owner.name planned.name)
      (instanceDeployment owner planned digest).template.labels := by
  intro key value hkey
  have hdbi : labelDbiResourceID ≠ key := by
    rintro rfl
    rw [baseLabels_none (by decide)] at hkey
    cases hkey
  simp only [instanceDeployment, Std.ExtTreeMap.getElem?_erase]
  rw [if_neg (by simpa using hdbi)]
  exact getElem?_mergeMap hkey

/-- **The labels of the roles are the user's.** -/
theorem template_role :
    (instanceDeployment owner planned digest).template.labels[roleSelectorKey role]?
      = owner.spec.pgbouncer.labels[roleSelectorKey role]? := by
  have hdbi : labelDbiResourceID ≠ roleSelectorKey role := by cases role <;> decide
  simp only [instanceDeployment, Std.ExtTreeMap.getElem?_erase]
  rw [if_neg (by simpa using hdbi)]
  refine getElem?_mergeMap_of_none (baseLabels_none ?_)
  cases role <;> decide

theorem template_managed :
    managed owner (instanceDeployment owner planned digest).template.labels = true := by
  obtain ⟨hby, hcluster, -⟩ := getElem?_baseLabels owner.name planned.name
  exact (managed_iff owner).mpr ⟨template_identity _ _ hby, template_identity _ _ hcluster⟩

/-- What the role Services make of a new pod is up to the user. -/
theorem template_selected_iff : Selects (roleService owner role).spec.selector
    (instanceDeployment owner planned digest).template.labels ↔
      owner.spec.pgbouncer.labels[roleSelectorKey role]? = some "true" := by
  rw [roleService_selects, template_role]
  exact and_iff_right template_managed

end Templates

/-! ## 2. How pods are labelled -/

/-- Since then, whoever has got a label of a role is wanted there, and was patched. -/
def Joins (resource : PgBouncerAurora) (plan : Output) (w w' : World) : Prop :=
  ∃ issued, w'.writes = issued ++ w.writes ∧ ∀ role,
    wanted resource plan role w'.cluster.pods = wanted resource plan role w.cluster.pods ∧
    ∀ name ∈ carriers resource role w'.cluster.pods, name ∈ carriers resource role w.cluster.pods ∨
      (name ∈ wanted resource plan role w.cluster.pods ∧
        ∃ labels, Write.patchPod name labels ∈ issued)

section Joining

variable {resource : PgBouncerAurora} {plan : Output} {w w' : World}

theorem frame_joins (resource : PgBouncerAurora) (plan : Output) :
    Frame (Joins resource plan) where
  refl w := ⟨[], rfl, fun role => ⟨rfl, fun _ hin => Or.inl hin⟩⟩
  trans := by
    rintro w₁ w₂ w₃ ⟨early, hearly, h₁⟩ ⟨late, hlate, h₂⟩
    refine ⟨late ++ early, by rw [hlate, hearly, List.append_assoc], fun role => ?_⟩
    refine ⟨(h₂ role).1.trans (h₁ role).1, fun name hin => ?_⟩
    rcases (h₂ role).2 name hin with hin | ⟨hwanted, labels, hpatch⟩
    · refine ((h₁ role).2 name hin).imp_right fun ⟨hwanted, labels, hpatch⟩ => ?_
      exact ⟨hwanted, labels, List.mem_append_right late hpatch⟩
    · rw [(h₁ role).1] at hwanted
      exact Or.inr ⟨hwanted, labels, List.mem_append_left early hpatch⟩
  reads h := by
    have hpods := congrArg (fun v => v.2.1.pods) h
    dsimp only [World.visible] at hpods
    refine ⟨[], congrArg (fun v => v.2.2) h, fun role => ?_⟩
    rw [hpods]
    exact ⟨rfl, fun _ hin => Or.inl hin⟩

/-- What leaves the pods alone lets nobody join. -/
theorem joins_of_pods (hlog : Deletes (fun _ _ => True) w w')
    (hpods : w'.cluster.pods = w.cluster.pods) : Joins resource plan w w' := by
  obtain ⟨issued, hissued, -⟩ := hlog
  refine ⟨issued, hissued, fun role => ?_⟩
  rw [hpods]
  exact ⟨rfl, fun _ hin => Or.inl hin⟩

/-- A pod that no write is about is as before. -/
theorem podsAfter_other {pods : StringMap Pod} {writes : List Write} {name : String}
    (h : ∀ labels, Write.patchPod name labels ∉ writes) :
    (podsAfter pods writes)[name]? = pods[name]? := by
  induction writes with
  | nil => rfl
  | cons write rest ih =>
    have hrest := ih fun labels hin => h labels (List.mem_cons_of_mem write hin)
    show (Write.onPods write (podsAfter pods rest))[name]? = pods[name]?
    rw [← hrest]
    cases write with
    | patchPod other labels =>
      have hne : other ≠ name := by
        rintro rfl
        exact h labels (List.mem_cons_self ..)
      simp only [Write.onPods]
      split
      · simp [Std.ExtTreeMap.getElem?_insert, hne]
      · rfl
    | create kind other => rfl
    | update kind other => rfl
    | delete kind other => rfl
    | updateStatus => rfl

theorem patchPodMembership_joins :
    Joins resource plan w (final (patchPodMembership resource plan) w) := by
  obtain ⟨added, later, hwrites, hpods, hadding, hsettling, hwanted⟩ :=
    relabelling_parts resource plan w
  refine ⟨later ++ added, hwrites, fun role => ⟨hwanted role, fun name hin => ?_⟩⟩
  have honly : carriers resource role (final (patchPodMembership resource plan) w).cluster.pods
      ⊆ carriers resource role w.cluster.pods ∪ wanted resource plan role w.cluster.pods := by
    rw [hpods]
    rcases hsettling with hall | ⟨rfl, -⟩
    · exact (hall later List.suffix_rfl).only role
    · exact (hadding added List.suffix_rfl).only role
  by_cases hpatched : ∃ labels, Write.patchPod name labels ∈ later ++ added
  · exact (honly hin).imp_right fun hwanted => ⟨hwanted, hpatched⟩
  · rw [not_exists] at hpatched
    left
    obtain ⟨pod, hpod, hcarries⟩ := hin
    rw [hpods, podsAfter_other hpatched] at hpod
    exact ⟨pod, hpod, hcarries⟩

/-- **Who joins in a Reconcile is a member in its plan, and was patched by it.** -/
theorem reconcile_joins (w : World) (now : Int) :
    Joins w.stored.resource (finalPlan w.stored.resource w.cluster) w
      (final (reconcile .scheduled now) w) := by
  have hR := frame_joins w.stored.resource (finalPlan w.stored.resource w.cluster)
  have hD := frame_deletes fun _ _ => True
  refine hR.bind (prepare_final hR now fun _ w₁ _ => ?_) fun prepared w₂ _ => ?_
  · refine hR.bind (joins_of_pods (applyDesired_deletes (fun _ _ => trivial)
      fun _ _ _ _ => trivial) (congrArg Prod.snd (applyDesired_keeps _ _ w₁))) fun _ w₂ _ => ?_
    refine hR.bind (joins_of_pods ?_ (congrArg Prod.snd
      (cleanupRemovedInstanceResources_keeps _ _ _ _ w₂))) fun _ w₃ _ => ?_
    · unfold cleanupRemovedInstanceResources
      exact Within.ite _ (Within.pure hD.toSteps _)
        (cleanupRemovedFrom_deletes fun _ _ _ _ => trivial) w₂
    refine hR.bind patchPodMembership_joins fun _ w₄ _ => ?_
    refine hR.bind (joins_of_pods (handleWriterChangeConnection_within hD updateObject_deletes _ _ w₄)
      (congrArg Prod.snd (handleWriterChangeConnection_keeps _ _ w₄))) fun _ w₅ _ => hR.refl _
  · refine hR.bind (joins_of_pods (commitStatus_within hD updateResourceStatus_deletes _ w₂)
      (congrArg (fun v => v.1.pods) (commitStatus_keeps _ w₂))) fun _ _ _ => hR.refl _

end Joining

/-! ## 3. New pods wait -/

/-- What the labels of a new pod are to do.  Its own Deployment and the Service of its own instance
select it; no other instance's and no role's Service does.  The operator's own labels are what
they are, on the pod and on the Deployment. -/
structure OwnPod (owner : PgBouncerAurora) (planned : InstancePlan) (deployment : Deployment) :
    Prop where
  own : Selects deployment.selector deployment.template.labels
  service : Selects (instanceService owner planned).spec.selector deployment.template.labels
  others : ∀ other : InstancePlan, other.name ≠ planned.name →
    ¬ Selects (instanceService owner other).spec.selector deployment.template.labels
  roles : ∀ role, ¬ Selects (roleService owner role).spec.selector deployment.template.labels
  identity : Selects (baseLabels owner.name planned.name) deployment.template.labels ∧
    Selects (baseLabels owner.name planned.name) deployment.metadata.labels

/-- What others do to the resource's pods: the pods go, or stay with their labels; new ones have
those of a template. -/
def Spawned (owner : PgBouncerAurora) (before after : StringMap Pod) : Prop :=
  ∀ (name : String) (pod : Pod), after[name]? = some pod → managed owner pod.labels = true →
    (∃ old, before[name]? = some old ∧ pod.labels = old.labels) ∨
      ∃ planned digest, pod.labels = (instanceDeployment owner planned digest).template.labels

/-- A step of any kind lets a pod join a role's Service only if it is a Reconcile, the pod is the
instance of a member in its plan, and it has patched that pod. -/
def JoinsByPatch (owner : PgBouncerAurora) (w : World) (step : Step) : Prop :=
  ∀ (role : Role) (name : String) (pod : Pod), (w.next step).cluster.pods[name]? = some pod →
    Selects (roleService owner role).spec.selector pod.labels →
    (∃ old, w.cluster.pods[name]? = some old ∧
      Selects (roleService owner role).spec.selector old.labels) ∨
    ∃ now faults issued labels, step = .reconcile now faults ∧
      (w.next step).writes = issued ++ w.writes ∧ Write.patchPod name labels ∈ issued ∧
      podInstance pod ∈ membersOf (finalPlan owner w.cluster).membership role

/-- New pods wait: the templates are right, and there is no other way to join. -/
def NewPodsWait (owner : PgBouncerAurora) : Prop :=
  (∀ planned digest, OwnPod owner planned (instanceDeployment owner planned digest)) ∧
  ∀ w : World, w.stored.resource = owner → ∀ step : Step,
    (∀ cluster, step = .environment cluster → Spawned owner w.cluster.pods cluster.pods) →
    JoinsByPatch owner w step

section Wait

variable {owner : PgBouncerAurora}

/-- The user has not set the labels of the roles. -/
def RoleLabelsFree (owner : PgBouncerAurora) : Prop :=
  owner.spec.pgbouncer.labels[labelWriter]? ≠ some "true" ∧
    owner.spec.pgbouncer.labels[labelReader]? ≠ some "true"

theorem roleLabelsFree_iff : RoleLabelsFree owner ↔
    ∀ role, owner.spec.pgbouncer.labels[roleSelectorKey role]? ≠ some "true" :=
  ⟨fun h role => by cases role; exacts [h.1, h.2], fun h => ⟨h .writer, h .reader⟩⟩

theorem metadata_identity {planned : InstancePlan} {digest : Option (Digest AuthFileMetadata)} :
    Selects (baseLabels owner.name planned.name)
      (instanceDeployment owner planned digest).metadata.labels := by
  intro key value hkey
  have hother : labelDbiResourceID ≠ key ∧ labelRole ≠ key := by
    constructor <;>
    · rintro rfl
      rw [baseLabels_none (by decide)] at hkey
      cases hkey
  have htemplate := @template_identity owner planned digest key value hkey
  simp only [instanceDeployment] at htemplate
  simp only [instanceDeployment, applyDbiResourceIDLabel]
  split <;> simp [Std.ExtTreeMap.getElem?_insert, Std.ExtTreeMap.getElem?_erase, hother,
    ← htemplate]

theorem ownPod_of_free (h : RoleLabelsFree owner) (planned : InstancePlan)
    (digest : Option (Digest AuthFileMetadata)) :
    OwnPod owner planned (instanceDeployment owner planned digest) where
  own := template_identity
  service := template_identity
  others other hne hselects := by
    have hname := hselects _ _ (baseLabels_instance owner.name other.name)
    rw [template_identity _ _ (baseLabels_instance owner.name planned.name)] at hname
    exact hne (Option.some.inj hname).symm
  roles role hselects := roleLabelsFree_iff.mp h role (template_selected_iff.mp hselects)
  identity := ⟨template_identity, metadata_identity⟩

/-- A step that leaves the pods alone lets nobody join. -/
theorem joinsByPatch_of_pods {w : World} {step : Step}
    (h : (w.next step).cluster.pods = w.cluster.pods) : JoinsByPatch owner w step := by
  intro role name pod hpod hselects
  rw [h] at hpod
  exact Or.inl ⟨pod, hpod, hselects⟩

theorem joinsByPatch_of_free (h : RoleLabelsFree owner) {w : World}
    (hw : w.stored.resource = owner) {step : Step}
    (hspawned : ∀ cluster, step = .environment cluster →
      Spawned owner w.cluster.pods cluster.pods) : JoinsByPatch owner w step := by
  cases step with
  | discover discover checkedAt now faults | monitor check checkedAt now faults =>
    exact joinsByPatch_of_pods (congrArg (fun v => v.1.pods) (runJob_keeps _ _ (w.meet faults)))
  | editSpec spec => exact joinsByPatch_of_pods rfl
  | environment cluster =>
    intro role name pod hpod hselects
    have hmanaged := (roleService_selects.mp hselects).1
    rcases hspawned cluster rfl name pod hpod hmanaged with ⟨old, hold, hsame⟩ | ⟨planned, digest, hnew⟩
    · exact Or.inl ⟨old, hold, hsame ▸ hselects⟩
    · rw [hnew, template_selected_iff] at hselects
      exact absurd hselects (roleLabelsFree_iff.mp h role)
  | reconcile now faults =>
    intro role name pod hpod hselects
    subst hw
    obtain ⟨issued, hissued, hjoins⟩ := reconcile_joins (w.meet faults) now
    obtain ⟨hmanaged, hlabel⟩ := roleService_selects.mp hselects
    rcases (hjoins role).2 name ⟨pod, hpod, hmanaged, hlabel⟩ with
      ⟨old, hold, hcarries⟩ | ⟨hwanted, labels, hpatch⟩
    · exact Or.inl ⟨old, hold, roleService_selects.mpr hcarries⟩
    · rw [← (hjoins role).1] at hwanted
      obtain ⟨pod', hpod', -, hmember⟩ := hwanted
      have hsame : pod' = pod := Option.some.inj (hpod'.symm.trans hpod)
      subst hsame
      exact Or.inr ⟨now, faults, issued, labels, rfl, hissued, hpatch, hmember⟩

/-- **New pods wait for their label exactly when the user has not set it.** -/
theorem new_pods_wait_iff (owner : PgBouncerAurora) :
    NewPodsWait owner ↔
      (owner.spec.pgbouncer.labels[labelWriter]? ≠ some "true" ∧
        owner.spec.pgbouncer.labels[labelReader]? ≠ some "true") := by
  constructor
  · rintro ⟨htemplates, -⟩
    refine roleLabelsFree_iff.mpr fun role hset => ?_
    have hown := htemplates
      { name := "", role := .writer } none
    exact hown.roles role (template_selected_iff.mpr hset)
  · intro h
    exact ⟨ownPod_of_free h, fun w hw step hspawned => joinsByPatch_of_free h hw hspawned⟩

/-- A resource whose user sets the label of the writer. -/
def labelledOwner (value : String) : PgBouncerAurora :=
  { name := "db"
    spec := { pgbouncer := { labels := (∅ : StringMap String).insert labelWriter value } } }

/-- With the label set to `true`, the template of a reader is selected by the writer's Service, so
its pods take the writer's traffic from their first moment. -/
theorem user_label_joins_writer :
    Selects (roleService (labelledOwner "true") .writer).spec.selector
      (instanceDeployment (labelledOwner "true") { name := "b", role := .reader } none).template.labels ∧
    ¬ NewPodsWait (labelledOwner "true") := by
  have hset : (labelledOwner "true").spec.pgbouncer.labels[roleSelectorKey .writer]?
      = some "true" := by decide
  have hselected := @template_selected_iff (labelledOwner "true") { name := "b", role := .reader }
    none .writer
  exact ⟨hselected.mpr hset, fun h => (h.1 _ none).roles .writer (hselected.mpr hset)⟩

/-- Any other value does no harm. -/
theorem new_pods_wait_labelled_false : NewPodsWait (labelledOwner "false") :=
  (new_pods_wait_iff _).mpr ⟨by decide, by decide⟩

end Wait

end Controller

end AuroraOperator

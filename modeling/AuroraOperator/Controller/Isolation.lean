/-
# Resources that share a namespace

Two resources in one namespace are kept apart by names alone: the pods and role Services of a
resource are found by its cluster label, and its objects are stored under names that begin with
its own.  Both go through `safeDNSLabel`, which does not always tell two texts apart.

* `isolated_iff`: labelling pods and cleaning up role Services for one resource leaves the
  other's alone exactly when their names are not `Confusable`.  `a.b` and `a-b` are
  (`dotted_name_loses_labels`).
* `separate_iff`: the objects of two owners, instances or roles, are kept apart exactly when
  the texts behind their names are not.  Instance `b-c` of `a` and instance `c` of `a-b` are not
  kept apart (`joined_names_delete`).
-/
import AuroraOperator.Render.Labels
import AuroraOperator.Controller.Success

namespace AuroraOperator

namespace Controller

open Planner Render Program

/-! ## 1. Pods and role Services -/

/-- A Deployment rendered for the resource selects the pod. -/
def SelectedBy (resource : PgBouncerAurora) (pod : Pod) : Prop :=
  ∃ entry digest, ∀ key value : String,
    (instanceDeployment resource entry digest).selector[key]? = some value →
      pod.labels[key]? = some value

/-- Labelling pods and cleaning up for one resource leaves the pods and the role Services of
another as they are. -/
def LeavesAlone (resource neighbour : PgBouncerAurora) (plan : Output) (w : World) : Prop :=
  (∀ (key : String) (pod : Pod), SelectedBy neighbour pod → w.cluster.pods[key]? = some pod →
    (final (patchPodMembership resource plan) w).cluster.pods[key]? = some pod) ∧
  ∀ (role : Role) (service : Service),
    service.metadata.labels = (roleService neighbour role).metadata.labels →
    objectAt .service (serviceNameForRole neighbour role) w = some service →
    objectAt .service (serviceNameForRole neighbour role)
      (final (cleanupStaleRoleServices resource) w) = some service

/-- It does so for any two resources of these names: whatever the specs, the plan, the namespace
and the failures. -/
def Isolated (name other : String) : Prop :=
  ∀ resource neighbour : PgBouncerAurora, resource.name = name → neighbour.name = other →
    ∀ (plan : Output) (w : World), LeavesAlone resource neighbour plan w

section Neighbours

variable {resource neighbour : PgBouncerAurora}

theorem SelectedBy.labels {pod : Pod} (h : SelectedBy resource pod) :
    pod.labels[labelManagedBy]? = some managedByValue ∧
      pod.labels[labelCluster]? = some (clusterLabelValue resource.name) := by
  obtain ⟨entry, digest, hlabels⟩ := h
  obtain ⟨hby, hcluster, -⟩ := getElem?_baseLabels resource.name entry.name
  exact ⟨hlabels _ _ hby, hlabels _ _ hcluster⟩

/-- Who has the label of another cluster is not listed. -/
theorem not_managed (h : clusterLabelValue resource.name ≠ clusterLabelValue neighbour.name)
    {labels : StringMap String}
    (hcluster : labels[labelCluster]? = some (clusterLabelValue neighbour.name)) :
    managed resource labels ≠ true := by
  intro hmanaged
  rw [managed_iff, hcluster, Option.some.injEq] at hmanaged
  exact h hmanaged.2.symm

theorem patchPod_keeps_other {name key : String} (h : name ≠ key) (labels : StringMap String) :
    Keeps (fun w : World => w.cluster.pods[key]?) (patchPod name labels) :=
  Keeps.call (fun _ _ => rfl) fun w => by
    dsimp only [final]
    cases w.cluster.pods[name]? with
    | none => rfl
    | some pod => simp [Std.ExtTreeMap.getElem?_insert, h]

theorem deleteObject_keeps_other {kind k : Kind} {name other : String}
    (h : k = kind → other ≠ name) : Keeps (objectAt k other) (deleteObject kind name) := by
  intro w
  show objectAt k other (final (deleteObject kind name) w) = objectAt k other w
  cases hrun : deleteObject kind name w with
  | ok _ w' =>
    rw [final_of_ok hrun]
    exact (deleteObject_eq_ok hrun).2.others k other h
  | error e w' =>
    rw [final_of_error hrun]
    exact congrArg (fun v => (objects k v.2.1)[other]?) (deleteObject_clean kind name hrun)

theorem leavesAlone_of_ne
    (h : clusterLabelValue resource.name ≠ clusterLabelValue neighbour.name) (plan : Output)
    (w : World) : LeavesAlone resource neighbour plan w := by
  constructor
  · intro key pod hselected hat
    have hR : Frame fun w w' => w'.cluster.pods[key]? = w.cluster.pods[key]? :=
      frame_view (fun v => v.2.1.pods[key]?) fun _ => rfl
    refine (patchPodMembership_final hR plan fun name pod' hat' hmanaged labels => ?_).trans hat
    refine patchPod_keeps_other (fun heq => ?_) labels
    rw [heq, hat, Option.some.injEq] at hat'
    exact not_managed h hselected.labels.2 (hat' ▸ hmanaged)
  · intro role service hlabels hat
    have hR : Frame fun w w' => objectAt .service (serviceNameForRole neighbour role) w'
        = objectAt .service (serviceNameForRole neighbour role) w :=
      frame_view (fun v => (objects .service v.2.1)[serviceNameForRole neighbour role]?) fun _ => rfl
    refine (cleanupStaleRoleServices_final hR fun name hstale => ?_).trans hat
    refine deleteObject_keeps_other fun _ heq => ?_
    obtain ⟨service', hat', hmanaged, -⟩ := hstale
    rw [← heq, hat, Option.some.injEq] at hat'
    have hcluster : service'.metadata.labels[labelCluster]?
        = some (clusterLabelValue neighbour.name) := by
      rw [← hat', hlabels]
      show ((baseClusterLabels neighbour.name).insert labelServiceRole role.text)[labelCluster]? = _
      rw [Std.ExtTreeMap.getElem?_insert, if_neg (by decide)]
      exact (getElem?_baseClusterLabels neighbour.name).2.1
    exact not_managed h hcluster hmanaged

/-- A pod of the neighbour that is the writer. -/
def writerPod (neighbour : PgBouncerAurora) (x : String) : Pod :=
  { labels := (baseLabels neighbour.name x).insert labelWriter "true" }

theorem writerPod_selected (neighbour : PgBouncerAurora) (x : String) :
    SelectedBy neighbour (writerPod neighbour x) := by
  refine ⟨{ name := x, role := .writer }, none, fun key value hkey => ?_⟩
  show ((baseLabels neighbour.name x).insert labelWriter "true")[key]? = _
  rw [Std.ExtTreeMap.getElem?_insert]
  split
  · rename_i heq
    obtain rfl : labelWriter = key := by simpa using heq
    have hnone : (baseLabels neighbour.name x)[labelWriter]? = none := by
      simp only [baseLabels, baseClusterLabels, Std.ExtTreeMap.getElem?_insert]
      simp [labelManagedBy, labelCluster, labelAppName, labelAppComponent, labelAppInstance,
        labelAppManagedBy, labelAppPartOf, labelInstance, labelWriter]
    exact absurd (hkey.symm.trans hnone) (by simp)
  · exact hkey

/-- With one label for both, the neighbour's writer loses its label. -/
theorem not_isolated_of_eq {name other : String}
    (h : clusterLabelValue name = clusterLabelValue other) : ¬ Isolated name other := by
  intro hisolated
  let neighbour : PgBouncerAurora := { name := other }
  let pod := writerPod neighbour "x"
  let w : World :=
    { stored := StoredResource.create name {}
      cluster := { pods := (∅ : StringMap Pod).insert "pod" pod } }
  obtain ⟨_, w', hrun, -⟩ := patchPodMembership_succeeds { name := name } {} w rfl
  have hkept : w'.cluster.pods["pod"]? = some pod := by
    have hpods := (hisolated { name := name } neighbour rfl rfl {} w).1 "pod" pod
      (writerPod_selected neighbour "x") (by simp [w])
    rwa [final_of_ok hrun] at hpods
  have hselected := (writerPod_selected neighbour "x").labels
  have hmanaged : managed { name := name } pod.labels = true :=
    (managed_iff _).mpr ⟨hselected.1, hselected.2.trans (congrArg some h.symm)⟩
  have hinstance : podInstance pod = "x" := by
    simp only [podInstance, pod, writerPod, baseLabels, Std.ExtTreeMap.getElem?_insert]
    simp [labelWriter, labelInstance]
  -- the empty plan has no writer, so exact labels would not name one
  have hexact := patchPodMembership_exact hrun "pod" pod hkept hmanaged (by simp [hinstance])
  have hwriter : pod.labels[labelWriter]? = some "true" := by simp [pod, writerPod]
  simp [podExact, membershipLabelsExact, boolMembershipLabelExact, stringSet, hwriter] at hexact

end Neighbours

/-- **When two resources are kept apart.**  As long as the hash tells their names apart, what is
done for one leaves the pods and role Services of the other alone exactly when their names are
not confusable. -/
theorem isolated_iff {name other : String} (hhash : nameHash name = nameHash other → name = other) :
    Isolated name other ↔ ¬ Confusable name other := by
  have hlabels : clusterLabelValue name = clusterLabelValue other ↔ Confusable name other :=
    safeDNSLabel_eq_iff hhash
  rw [← hlabels]
  constructor
  · intro hisolated heq
    exact not_isolated_of_eq heq hisolated
  · rintro hne resource neighbour rfl rfl plan w
    exact leavesAlone_of_ne hne plan w

theorem isolated_iff_example : Isolated "orders" "billing.eu" := by
  have hhash : nameHash "orders" ≠ nameHash "billing.eu" := by decide +kernel
  refine (isolated_iff fun heq => absurd heq hhash).mpr ?_
  decide +kernel

/-- Resource `a.b` takes the label off the writer of resource `a-b`. -/
theorem dotted_name_loses_labels :
    let neighbour : PgBouncerAurora := { name := "a-b" }
    let pod := writerPod neighbour "db-1"
    let w : World :=
      { stored := StoredResource.create "a.b" {}
        cluster := { pods := (∅ : StringMap Pod).insert "pod" pod } }
    nameHash "a.b" ≠ nameHash "a-b" ∧ SelectedBy neighbour pod ∧
      w.cluster.pods["pod"]? = some pod ∧
      (final (patchPodMembership { name := "a.b" } {}) w).cluster.pods["pod"]? ≠ some pod := by
  intro neighbour pod w
  exact ⟨by decide +kernel, writerPod_selected neighbour "db-1",
    Std.ExtTreeMap.getElem?_insert_self, by decide +kernel⟩

/-! ## 2. Objects -/

/-- Who objects are rendered for: an instance, or a role, of a resource. -/
inductive Owner
  | ofInstance (resource : PgBouncerAurora) (name : String)
  | ofRole (resource : PgBouncerAurora) (role : Role)

namespace Owner

def resource : Owner → PgBouncerAurora
  | .ofInstance resource _ => resource
  | .ofRole resource _ => resource

/-- What follows the name of the resource: the instance, or the configured name of the role's
Service. -/
def part : Owner → String
  | .ofInstance _ name => name
  | .ofRole resource role =>
    let configured := (roleServiceSpec resource role).name
    if configured = "" then role.text else configured

/-- The text behind the name. -/
def text (o : Owner) : String := joinStrings [o.resource.name, o.part] "-"

def serviceName : Owner → String
  | .ofInstance resource name => instanceResourceName resource.name name
  | .ofRole resource role => serviceNameForRole resource role

def Renders : Owner → DesiredObject → Prop
  | .ofInstance resource name, d =>
    ∃ digest entry, entry.name = name ∧ d ∈ instanceObjects resource digest entry
  | .ofRole resource role, d => d = ⟨.service, roleService resource role⟩

theorem serviceName_eq (o : Owner) : o.serviceName = safeDNSLabel [o.resource.name, o.part] := by
  cases o <;> rfl

/-- All that is rendered for an owner has its name. -/
theorem Renders.key {o : Owner} {d : DesiredObject} (h : o.Renders d) : d.key.2 = o.serviceName := by
  cases o with
  | ofInstance resource name =>
    obtain ⟨digest, entry, rfl, hd⟩ := h
    exact key_instanceObjects hd
  | ofRole resource role =>
    obtain rfl : d = ⟨.service, roleService resource role⟩ := h
    rw [key_roleService, Owner.serviceName]

end Owner

/-- The objects of two owners have different names, and neither applying nor deleting those of
the first touches one of the second. -/
structure Separate (o other : Owner) : Prop where
  names : o.serviceName ≠ other.serviceName
  applies : ∀ d, o.Renders d → ∀ d', other.Renders d' → ∀ hollow w,
    objectAt d'.1 d'.key.2 (final (applyObject d.1 (setOwner d.1 o.resource d.2) hollow) w)
      = objectAt d'.1 d'.key.2 w
  deletes : ∀ resource name, o = .ofInstance resource name → ∀ d', other.Renders d' → ∀ w,
    objectAt d'.1 d'.key.2 (final (deleteInstanceResources resource name) w)
      = objectAt d'.1 d'.key.2 w

section Others

variable {kind k : Kind} {name other : String}

theorem createObject_keeps_other {object : kind.Object} (h : other ≠ (kind.metadata object).name) :
    Keeps (objectAt k other) (createObject kind object) := by
  intro w
  show objectAt k other (final (createObject kind object) w) = objectAt k other w
  cases hrun : createObject kind object w with
  | ok _ w' =>
    rw [final_of_ok hrun]
    exact (createObject_eq_ok hrun).2.2.others k other fun _ => h
  | error e w' =>
    rw [final_of_error hrun]
    exact congrArg (fun v => (objects k v.2.1)[other]?) (createObject_clean kind object hrun)

theorem updateObject_keeps_other (h : other ≠ name) (object : kind.Object) :
    Keeps (objectAt k other) (updateObject kind name object) := by
  intro w
  show objectAt k other (final (updateObject kind name object) w) = objectAt k other w
  cases hrun : updateObject kind name object w with
  | ok _ w' =>
    rw [final_of_ok hrun]
    exact (updateObject_eq_ok hrun).2.others k other fun _ => h
  | error e w' =>
    rw [final_of_error hrun]
    exact congrArg (fun v => (objects k v.2.1)[other]?) (updateObject_clean kind name object hrun)

theorem frame_objectAt (k : Kind) (other : String) :
    Frame fun w w' => objectAt k other w' = objectAt k other w :=
  frame_view (fun v => (objects k v.2.1)[other]?) fun _ => rfl

end Others

/-- Objects under different names do not meet. -/
theorem separate_of_ne {o other : Owner} (h : o.serviceName ≠ other.serviceName) :
    Separate o other where
  names := h
  applies d hd d' hd' hollow := by
    have hname : d'.key.2 ≠ (d.1.metadata (setOwner d.1 o.resource d.2)).name := by
      rw [metadata_setOwner, hd'.key]
      exact fun heq => h (hd.key.symm.trans heq.symm)
    exact applyObject_within (frame_objectAt d'.1 d'.key.2) (createObject_keeps_other hname)
      (updateObject_keeps_other hname)
  deletes := by
    rintro resource name rfl d' hd'
    refine deleteInstanceResources_within (frame_objectAt d'.1 d'.key.2) fun kind => ?_
    refine deleteObject_keeps_other fun _ heq => h ?_
    rw [← hd'.key, heq]
    rfl

/-- **When the objects of two owners are kept apart.**  As long as the hash tells the texts behind
their names apart, exactly when the texts are not confusable. -/
theorem separate_iff {o other : Owner} (hhash : nameHash o.text = nameHash other.text →
      o.text = other.text) : Separate o other ↔ ¬ Confusable o.text other.text := by
  have hnames : o.serviceName = other.serviceName ↔ Confusable o.text other.text := by
    rw [o.serviceName_eq, other.serviceName_eq]
    exact safeDNSLabel_eq_iff hhash
  rw [← hnames]
  exact ⟨fun h => h.names, separate_of_ne⟩

theorem separate_iff_example :
    let o : Owner := .ofInstance { name := "orders" } "db-1"
    let other : Owner := .ofRole { name := "orders" } .writer
    Separate o other := by
  intro o other
  have hhash : nameHash o.text ≠ nameHash other.text := by decide +kernel
  have hconfusable : ¬ Confusable o.text other.text := by decide +kernel
  exact (separate_iff fun heq => absurd heq hhash).mpr hconfusable

/-- Cleaning up instance `b-c` of `a` deletes the Deployment of instance `c` of `a-b`. -/
theorem joined_names_delete :
    let entry : InstancePlan := { name := "c", role := .writer }
    let deployment := instanceDeployment { name := "a-b" } entry none
    let w : World :=
      { stored := StoredResource.create "a" {}
        cluster := { deployments :=
          (∅ : StringMap Deployment).insert deployment.metadata.name deployment } }
    instanceResourceName "a" "b-c" = instanceResourceName "a-b" "c" ∧
      objectAt .deployment (instanceResourceName "a-b" "c") w = some deployment ∧
      objectAt .deployment (instanceResourceName "a-b" "c")
        (final (deleteInstanceResources { name := "a" } "b-c") w) = none := by
  intro entry deployment w
  refine ⟨by decide +kernel, ?_, by decide +kernel⟩
  have hname : deployment.metadata.name = instanceResourceName "a-b" "c" := by
    simp only [deployment, entry, instanceDeployment]
  simp only [objectAt, objects, w, hname, Std.ExtTreeMap.getElem?_insert_self]

end Controller

end AuroraOperator

/-
# What applying does to the objects

`applyObject` and `deleteIfPresent` retry, recover and compare; what they come to, when they
return, is a change of one object of one kind (`applyObject_ensures`,
`deleteIfPresent_ensures`).  The loops of `applyDesired` and of the clean-ups are built from
those two, and this file says what each loop leaves behind.

The objects that an apply wants are listed once (`desiredObjects`), and `Placed` says what it
means for one of them to be stored: it is the rendered object with what `copyDesired` keeps of
an earlier one.  `AppliedAll` carries that through the loops, with everything else untouched.
-/
import AuroraOperator.Controller.Membership

namespace AuroraOperator

namespace Controller

open Planner Render Program

/-! ## 1. One object -/

def objectAt (kind : Kind) (name : String) (w : World) : Option kind.Object :=
  (objects kind w.cluster)[name]?

/-- Nothing but the object of one kind and name has changed. -/
structure OnlyAt (kind : Kind) (name : String) (w w' : World) : Prop where
  others : ∀ (k : Kind) (other : String), (k = kind → other ≠ name) →
    objectAt k other w' = objectAt k other w
  secrets : w'.cluster.secrets = w.cluster.secrets

theorem OnlyAt.refl (kind : Kind) (name : String) (w : World) : OnlyAt kind name w w :=
  ⟨fun _ _ _ => rfl, rfl⟩

theorem OnlyAt.of_cluster {kind : Kind} {name : String} {w w₁ w' w₁' : World}
    (h : OnlyAt kind name w₁ w₁') (hw : w₁.cluster = w.cluster) (hw' : w₁'.cluster = w'.cluster) :
    OnlyAt kind name w w' where
  others k other hne := by
    have hother := h.others k other hne
    unfold objectAt at hother ⊢
    rw [← hw, ← hw']
    exact hother
  secrets := by rw [← hw, ← hw']; exact h.secrets

@[simp] theorem objects_setObjects (kind : Kind) (m : StringMap kind.Object) (cluster : Cluster) :
    objects kind (setObjects kind m cluster) = m := by
  cases kind <;> rfl

theorem objects_setObjects_of_ne {kind k : Kind} (h : k ≠ kind) (m : StringMap kind.Object)
    (cluster : Cluster) : objects k (setObjects kind m cluster) = objects k cluster := by
  cases kind <;> cases k <;> first | rfl | exact absurd rfl h

@[simp] theorem setObjects_secrets (kind : Kind) (m : StringMap kind.Object) (cluster : Cluster) :
    (setObjects kind m cluster).secrets = cluster.secrets := by
  cases kind <;> rfl

/-- A change of the map of one kind that agrees with the old map elsewhere. -/
theorem onlyAt_setObjects {kind : Kind} {name : String} {w w' : World} {m : StringMap kind.Object}
    (hcluster : w'.cluster = setObjects kind m w.cluster)
    (hm : ∀ other, other ≠ name → m[other]? = (objects kind w.cluster)[other]?) :
    OnlyAt kind name w w' where
  others k other hne := by
    unfold objectAt
    rw [hcluster]
    by_cases hk : k = kind
    · subst hk
      rw [objects_setObjects]
      exact hm other (hne rfl)
    · rw [objects_setObjects_of_ne hk]
  secrets := by rw [hcluster, setObjects_secrets]

theorem onlyAt_insert {kind : Kind} {name : String} {object : kind.Object} {w w' : World}
    (hcluster : w'.cluster = setObjects kind ((objects kind w.cluster).insert name object)
      w.cluster) :
    objectAt kind name w' = some object ∧ OnlyAt kind name w w' := by
  refine ⟨?_, onlyAt_setObjects hcluster fun other hne => ?_⟩
  · rw [objectAt, hcluster, objects_setObjects, Std.ExtTreeMap.getElem?_insert_self]
  · rw [Std.ExtTreeMap.getElem?_insert, if_neg (by simpa using Ne.symm hne)]

theorem onlyAt_erase {kind : Kind} {name : String} {w w' : World}
    (hcluster : w'.cluster = setObjects kind ((objects kind w.cluster).erase name) w.cluster) :
    objectAt kind name w' = none ∧ OnlyAt kind name w w' := by
  refine ⟨?_, onlyAt_setObjects hcluster fun other hne => ?_⟩
  · rw [objectAt, hcluster, objects_setObjects, Std.ExtTreeMap.getElem?_erase_self]
  · rw [Std.ExtTreeMap.getElem?_erase, if_neg (by simpa using Ne.symm hne)]

section Calls

variable {kind : Kind} {name : String} {object : kind.Object} {w w' : World}

theorem createObject_eq_ok (h : createObject kind object w = .ok () w') :
    objectAt kind (kind.metadata object).name w = none ∧
      objectAt kind (kind.metadata object).name w' = some object ∧
      OnlyAt kind (kind.metadata object).name w w' := by
  obtain ⟨faults, hrun⟩ := call_eq_ok h
  dsimp only at hrun
  cases hl : (objects kind w.cluster)[(kind.metadata object).name]? with
  | some _ => simp [hl] at hrun
  | none =>
    simp only [hl, EStateM.Result.ok.injEq, true_and] at hrun
    exact ⟨hl, onlyAt_insert (by rw [← hrun]; rfl)⟩

theorem updateObject_eq_ok (h : updateObject kind name object w = .ok () w') :
    objectAt kind name w' = some object ∧ OnlyAt kind name w w' := by
  obtain ⟨faults, hrun⟩ := call_eq_ok h
  dsimp only at hrun
  cases hl : (objects kind w.cluster)[name]? with
  | none => simp [hl] at hrun
  | some _ =>
    simp only [hl, EStateM.Result.ok.injEq, true_and] at hrun
    exact onlyAt_insert (by rw [← hrun]; rfl)

theorem deleteObject_eq_ok (h : deleteObject kind name w = .ok () w') :
    objectAt kind name w' = none ∧ OnlyAt kind name w w' := by
  obtain ⟨faults, hrun⟩ := call_eq_ok h
  dsimp only at hrun
  cases hl : (objects kind w.cluster)[name]? with
  | none => simp [hl] at hrun
  | some _ =>
    simp only [hl, EStateM.Result.ok.injEq, true_and] at hrun
    exact onlyAt_erase (by rw [← hrun])

theorem deleteObject_eq_notFound (h : deleteObject kind name w = .error .notFound w') :
    objectAt kind name w = none ∧ w'.cluster = w.cluster := by
  rcases call_eq_error h with ⟨hne, -⟩ | ⟨faults, hrun⟩
  · exact absurd rfl hne
  · dsimp only at hrun
    cases hl : (objects kind w.cluster)[name]? with
    | some _ => simp [hl] at hrun
    | none =>
      simp only [hl, EStateM.Result.error.injEq, true_and] at hrun
      exact ⟨hl, by rw [← hrun]⟩

theorem createObject_clean (kind : Kind) (object : kind.Object) :
    Clean World.visible (createObject kind object) :=
  Clean.call fun w _ _ h => by
    dsimp only at h
    cases hl : (objects kind w.cluster)[(kind.metadata object).name]? with
    | none => simp [hl] at h
    | some _ =>
      simp only [hl, EStateM.Result.error.injEq] at h
      rw [← h.2]

theorem deleteObject_clean (kind : Kind) (name : String) :
    Clean World.visible (deleteObject kind name) :=
  Clean.call fun w _ _ h => by
    cases hl : (objects kind w.cluster)[name]? with
    | some _ => simp [hl] at h
    | none =>
      simp only [hl, EStateM.Result.error.injEq] at h
      rw [← h.2]

end Calls

/-- What `applyObject` leaves in place of what it finds. -/
def applied (kind : Kind) (existing : Option kind.Object) (desired : kind.Object) : kind.Object :=
  match existing with
  | none => desired
  | some existing => copyDesired kind existing desired

/-- **Applying one object.**  When it returns, the desired object is there, with what
`copyDesired` keeps of the old one, and nothing else has changed. -/
theorem applyObject_ensures (kind : Kind) (desired : kind.Object) (hollow : List Part) :
    Ensures (applyObject kind desired hollow) fun w _ w' =>
      objectAt kind (kind.metadata desired).name w'
          = some (applied kind (objectAt kind (kind.metadata desired).name w) desired) ∧
        OnlyAt kind (kind.metadata desired).name w w' := by
  unfold applyObject retryOnConflict
  refine Clean.ensures_retry World.visible ?clean ?indep ?body 4
  case clean =>
    refine Clean.bind (Keeps.recover (fetch_keeps _)) fun found => ?_
    split
    · exact Clean.mapError (createObject_clean _ _)
    · exact Clean.ite _ (Clean.of_keeps (Keeps.pure _)) (updateObject_clean _ _ _)
  case indep =>
    intro w w₁ _ w' hv hq
    have hcluster : w₁.cluster = w.cluster := congrArg (fun v => v.2.1) hv
    refine ⟨?_, hq.2.of_cluster hcluster rfl⟩
    have hat : objectAt kind (kind.metadata desired).name w₁
        = objectAt kind (kind.metadata desired).name w := by rw [objectAt, objectAt, hcluster]
    rw [← hat]
    exact hq.1
  case body =>
    intro w _ w' h
    obtain ⟨found, w₁, h₁, h₂⟩ := bind_eq_ok.mp h
    have hcluster : w₁.cluster = w.cluster :=
      congrArg (fun v => v.2.1) ((Keeps.recover (fetch_keeps _)).of_ok h₁)
    cases found with
    | none =>
      obtain ⟨e, he, hcaught⟩ := recover_eq_none.mp h₁
      rw [decide_eq_true_eq] at hcaught
      subst hcaught
      have habsent : objectAt kind (kind.metadata desired).name w = none := fetch_eq_notFound he
      obtain ⟨-, hput, honly⟩ := createObject_eq_ok (mapError_eq_ok h₂)
      rw [habsent]
      exact ⟨hput, honly.of_cluster hcluster rfl⟩
    | some existing =>
      have hpresent : objectAt kind (kind.metadata desired).name w = some existing :=
        fetch_eq_ok (recover_eq_some.mp h₁)
      dsimp only at h₂
      rw [hpresent]
      by_cases hsame : existing = copyDesired kind existing desired ∧
          hollowAfter kind existing desired hollow = []
      · rw [if_pos hsame] at h₂
        cases h₂
        refine ⟨?_, (OnlyAt.refl _ _ _).of_cluster hcluster rfl⟩
        have hat : objectAt kind (kind.metadata desired).name w' = some existing := by
          rw [← hpresent, objectAt, objectAt, hcluster]
        rw [hat]
        exact congrArg some hsame.1
      · rw [if_neg hsame] at h₂
        obtain ⟨hput, honly⟩ := updateObject_eq_ok h₂
        exact ⟨hput, honly.of_cluster hcluster rfl⟩

/-- **Deleting one object.**  When it returns, the object is gone. -/
theorem deleteIfPresent_ensures (kind : Kind) (name : String) :
    Ensures (deleteIfPresent kind name) fun w _ w' =>
      objectAt kind name w' = none ∧ OnlyAt kind name w w' := by
  intro w _ w' h
  obtain ⟨found, w₁, h₁, h₂⟩ := bind_eq_ok.mp h
  cases h₂
  cases found with
  | none =>
    obtain ⟨e, he, hcaught⟩ := recover_eq_none.mp h₁
    rw [decide_eq_true_eq] at hcaught
    subst hcaught
    obtain ⟨habsent, hcluster⟩ := deleteObject_eq_notFound he
    refine ⟨?_, (OnlyAt.refl _ _ _).of_cluster rfl hcluster.symm⟩
    rw [objectAt, hcluster]
    exact habsent
  | some _ => exact deleteObject_eq_ok (recover_eq_some.mp h₁)

/-! ## 2. Applying what is wanted -/

/-- A rendered object of some kind. -/
abbrev DesiredObject := (kind : Kind) × kind.Object

/-- The kind and the name an object is stored under. -/
def DesiredObject.key (d : DesiredObject) : Kind × String := (d.1, (d.1.metadata d.2).name)

def instanceObjects (resource : PgBouncerAurora) (digest : Option (Digest AuthFileMetadata))
    (entry : InstancePlan) : List DesiredObject :=
  [⟨.configMap, configMap resource entry.toInstanceObservation⟩,
    ⟨.deployment, instanceDeployment resource entry digest⟩,
    ⟨.service, instanceService resource entry⟩]

def roleObjects (resource : PgBouncerAurora) : List DesiredObject :=
  [⟨.service, roleService resource .writer⟩, ⟨.service, roleService resource .reader⟩]

/-- All that `applyDesired` applies, in its order. -/
def desiredObjects (resource : PgBouncerAurora) (digest : Option (Digest AuthFileMetadata))
    (plan : Output) : List DesiredObject :=
  (activePlanInstances plan.instances).flatMap (instanceObjects resource digest) ++
    roleObjects resource

/-- The object is stored, up to what `copyDesired` keeps of an earlier one. -/
def Placed (resource : PgBouncerAurora) (d : DesiredObject) (w : World) : Prop :=
  ∃ existing, objectAt d.1 d.key.2 w = some (applied d.1 existing (setOwner d.1 resource d.2))

/-- Every object is one of those that were applied, or as it was before. -/
structure AppliedAll (resource : PgBouncerAurora) (done : List DesiredObject) (w w' : World) :
    Prop where
  each : ∀ (kind : Kind) (name : String),
    (∃ d ∈ done, d.key = (kind, name) ∧ Placed resource d w') ∨
      ((∀ d ∈ done, d.key ≠ (kind, name)) ∧ objectAt kind name w' = objectAt kind name w)
  secrets : w'.cluster.secrets = w.cluster.secrets

theorem AppliedAll.nil (resource : PgBouncerAurora) (w : World) : AppliedAll resource [] w w :=
  ⟨fun _ _ => Or.inr ⟨by simp, rfl⟩, rfl⟩

theorem metadata_setOwner (kind : Kind) (owner : PgBouncerAurora) (object : kind.Object) :
    (kind.metadata (setOwner kind owner object)).name = (kind.metadata object).name := by
  cases kind <;> rfl

/-- One more object: it replaces whatever was applied under its key before. -/
theorem AppliedAll.apply {resource : PgBouncerAurora} {done : List DesiredObject} {w w₁ w' : World}
    (h : AppliedAll resource done w w₁) {d : DesiredObject} {hollow : List Part}
    (hrun : applyObject d.1 (setOwner d.1 resource d.2) hollow w₁ = .ok () w') :
    AppliedAll resource (done ++ [d]) w w' := by
  obtain ⟨hput, honly⟩ := applyObject_ensures _ _ _ hrun
  rw [metadata_setOwner] at hput honly
  refine ⟨fun kind name => ?_, honly.secrets.trans h.secrets⟩
  by_cases hkey : d.key = (kind, name)
  · exact Or.inl ⟨d, by simp, hkey, _, hput⟩
  · have hother : objectAt kind name w' = objectAt kind name w₁ := by
      refine honly.others kind name ?_
      rintro rfl rfl
      exact hkey rfl
    rcases h.each kind name with ⟨d', hd', hkey', existing, hplaced⟩ | ⟨hnone, hsame⟩
    · refine Or.inl ⟨d', by simp [hd'], hkey', existing, ?_⟩
      obtain ⟨rfl, rfl⟩ := Prod.mk.inj hkey'
      exact hother.trans hplaced
    · refine Or.inr ⟨fun d' hd' => ?_, hother.trans hsame⟩
      rcases List.mem_append.mp hd' with hd' | hd'
      · exact hnone d' hd'
      · rw [List.mem_singleton.mp hd']
        exact hkey

theorem AppliedAll.applyInstance {resource : PgBouncerAurora}
    {digest : Option (Digest AuthFileMetadata)} {entry : InstancePlan}
    {done : List DesiredObject} {w w₁ w' : World} (h : AppliedAll resource done w w₁)
    (hrun : applyInstance resource digest entry w₁ = .ok () w') :
    AppliedAll resource (done ++ instanceObjects resource digest entry) w w' := by
  obtain ⟨_, w₂, h₁, hrun⟩ := bind_eq_ok.mp hrun
  obtain ⟨_, w₃, h₂, h₃⟩ := bind_eq_ok.mp hrun
  have hall₁ := h.apply (d := ⟨.configMap, configMap resource entry.toInstanceObservation⟩) h₁
  have hall₂ := hall₁.apply (d := ⟨.deployment, instanceDeployment resource entry digest⟩) h₂
  have hall₃ := hall₂.apply (d := ⟨.service, instanceService resource entry⟩) h₃
  rw [List.append_assoc, List.append_assoc] at hall₃
  exact hall₃

theorem AppliedAll.instances {resource : PgBouncerAurora}
    {digest : Option (Digest AuthFileMetadata)} {instances : List InstancePlan} {w w' : World}
    (hrun : instances.forM (Controller.applyInstance resource digest) w = .ok ⟨⟩ w') :
    AppliedAll resource (instances.flatMap (instanceObjects resource digest)) w w' := by
  refine Ensures.forM (I := fun done v => AppliedAll resource
    (done.flatMap (instanceObjects resource digest)) w v) ?_ hrun (AppliedAll.nil resource w)
  intro before entry after _ v v' hI h
  rw [List.flatMap_append]
  simpa using hI.applyInstance h

theorem AppliedAll.roles {resource : PgBouncerAurora} {done : List DesiredObject}
    {w w₁ w' : World} (h : AppliedAll resource done w w₁)
    (hrun : [Role.writer, .reader].forM (fun role =>
      applyObject .service (setOwner .service resource (roleService resource role)) []) w₁
        = .ok ⟨⟩ w') :
    AppliedAll resource (done ++ roleObjects resource) w w' := by
  have hroles := Ensures.forM (I := fun roles v => AppliedAll resource
    (done ++ roles.map fun role => ⟨.service, roleService resource role⟩) w v) ?_ hrun
    (by simpa using h)
  · exact hroles
  · intro before role after _ v v' hI h
    rw [List.map_append, ← List.append_assoc]
    exact hI.apply (d := ⟨.service, roleService resource role⟩) h

/-! ## 3. Cleaning up -/

/-- Nothing has changed but that some objects, of kinds and names in `P`, are gone. -/
structure Erases (P : Kind → String → Prop) (w w' : World) : Prop where
  each : ∀ (kind : Kind) (name : String), objectAt kind name w' = objectAt kind name w ∨
    (P kind name ∧ objectAt kind name w' = none)
  secrets : w'.cluster.secrets = w.cluster.secrets

namespace Erases

variable {P : Kind → String → Prop} {w w₁ w' : World}

theorem refl (P : Kind → String → Prop) (w : World) : Erases P w w := ⟨fun _ _ => Or.inl rfl, rfl⟩

theorem trans (h₁ : Erases P w w₁) (h₂ : Erases P w₁ w') : Erases P w w' where
  each kind name := by
    rcases h₂.each kind name with hsame | hgone
    · rw [hsame]
      exact h₁.each kind name
    · exact Or.inr hgone
  secrets := h₂.secrets.trans h₁.secrets

/-- What is gone stays gone. -/
theorem none {kind : Kind} {name : String} (h : Erases P w w') (hgone : objectAt kind name w = .none) :
    objectAt kind name w' = .none := by
  rcases h.each kind name with hsame | ⟨-, hnone⟩
  · rw [hsame, hgone]
  · exact hnone

/-- What is still there was there before. -/
theorem some {kind : Kind} {name : String} {object : kind.Object} (h : Erases P w w')
    (hthere : objectAt kind name w' = .some object) : objectAt kind name w = .some object := by
  rcases h.each kind name with hsame | ⟨-, hnone⟩
  · rw [← hsame, hthere]
  · rw [hthere] at hnone
    cases hnone

/-- What is not up for deletion stays. -/
theorem kept {kind : Kind} {name : String} (h : Erases P w w') (hP : ¬ P kind name) :
    objectAt kind name w' = objectAt kind name w :=
  (h.each kind name).resolve_right fun hgone => hP hgone.1

theorem delete {kind : Kind} {name : String} (hP : P kind name) {u : Unit}
    (hrun : deleteIfPresent kind name w = .ok u w') :
    objectAt kind name w' = .none ∧ Erases P w w' := by
  obtain ⟨hgone, honly⟩ := deleteIfPresent_ensures kind name hrun
  refine ⟨hgone, fun k other => ?_, honly.secrets⟩
  by_cases hat : k = kind ∧ other = name
  · obtain ⟨rfl, rfl⟩ := hat
    exact Or.inr ⟨hP, hgone⟩
  · exact Or.inl (honly.others k other fun hk hother => hat ⟨hk, hother⟩)

end Erases

theorem deleteInstanceResources_ensures (resource : PgBouncerAurora) (instanceName : String) :
    Ensures (deleteInstanceResources resource instanceName) fun w _ w' =>
      Erases (fun _ name => name = instanceResourceName resource.name instanceName) w w' := by
  intro w _ w' h
  refine Ensures.forM (I := fun _ v => Erases (fun _ name =>
    name = instanceResourceName resource.name instanceName) w v) ?_ h (Erases.refl _ _)
  intro before kind after _ v v' hI hrun
  exact hI.trans (Erases.delete rfl hrun).2

/-- The resource names of the disabled instances of a plan. -/
def disabledNames (resource : PgBouncerAurora) (plan : Output) : List String :=
  (plan.instances.filter (·.disabled)).map fun entry => instanceResourceName resource.name entry.name

theorem cleanupDisabledInstanceResources_ensures (resource : PgBouncerAurora) (plan : Output) :
    Ensures (cleanupDisabledInstanceResources resource plan) fun w _ w' =>
      Erases (fun _ name => name ∈ disabledNames resource plan) w w' := by
  intro w _ w' h
  refine Ensures.forM (I := fun _ v => Erases (fun _ name => name ∈ disabledNames resource plan)
    w v) ?_ h (Erases.refl _ _)
  intro before entry after hsplit v v' hI hrun
  cases hd : entry.disabled with
  | false =>
    rw [hd] at hrun
    cases hrun
    exact hI
  | true =>
    rw [hd] at hrun
    have herases := deleteInstanceResources_ensures resource entry.name hrun
    refine hI.trans ⟨fun kind name => (herases.each kind name).imp_right ?_, herases.secrets⟩
    rintro ⟨rfl, hgone⟩
    have hin : entry ∈ plan.instances := by rw [hsplit]; simp
    exact ⟨List.mem_map.mpr ⟨entry, List.mem_filter.mpr ⟨hin, hd⟩, rfl⟩, hgone⟩

/-- Once an instance's resources are deleted, none is left of any kind. -/
theorem deleteInstanceResources_gone (resource : PgBouncerAurora) (instanceName : String) :
    Ensures (deleteInstanceResources resource instanceName) fun _ _ w' =>
      ∀ kind, objectAt kind (instanceResourceName resource.name instanceName) w' = none := by
  intro w _ w' h
  have hgone := Ensures.forM (I := fun done v => ∀ kind ∈ done,
    objectAt kind (instanceResourceName resource.name instanceName) v = none) ?_ h (by simp)
  · intro kind
    exact hgone kind (by cases kind <;> simp)
  · intro before kind after _ v v' hI hrun other hother
    obtain ⟨hkind, herases⟩ := Erases.delete (P := fun _ _ => True) trivial hrun
    rcases List.mem_append.mp hother with hbefore | hlast
    · exact herases.none (hI other hbefore)
    · rw [List.mem_singleton.mp hlast]
      exact hkind

/-- **Disabled instances have no resources once they are cleaned up.** -/
theorem cleanupDisabledInstanceResources_gone (resource : PgBouncerAurora) (plan : Output) :
    Ensures (cleanupDisabledInstanceResources resource plan) fun _ _ w' =>
      ∀ kind, ∀ name ∈ disabledNames resource plan, objectAt kind name w' = none := by
  intro w _ w' h
  have hgone := Ensures.forM (I := fun done v => ∀ entry ∈ done, entry.disabled = true →
    ∀ kind, objectAt kind (instanceResourceName resource.name entry.name) v = none) ?_ h (by simp)
  · intro kind name hname
    obtain ⟨entry, hentry, rfl⟩ := List.mem_map.mp hname
    obtain ⟨hin, hoff⟩ := List.mem_filter.mp hentry
    exact hgone entry hin hoff kind
  · intro before entry after _ v v' hI hrun other hother hoff kind
    cases hd : entry.disabled with
    | false =>
      rw [hd] at hrun
      cases hrun
      rcases List.mem_append.mp hother with hbefore | hlast
      · exact hI other hbefore hoff kind
      · rw [List.mem_singleton.mp hlast, hd] at hoff
        cases hoff
    | true =>
      rw [hd] at hrun
      rcases List.mem_append.mp hother with hbefore | hlast
      · exact (deleteInstanceResources_ensures resource entry.name hrun).none
          (hI other hbefore hoff kind)
      · rw [List.mem_singleton.mp hlast]
        exact deleteInstanceResources_gone resource entry.name hrun kind

/-- The names of the two role Services. -/
def roleNames (resource : PgBouncerAurora) : List String :=
  [serviceNameForRole resource .writer, serviceNameForRole resource .reader]

/-- A stale role Service of the resource is stored under the name. -/
def StaleAt (resource : PgBouncerAurora) (w : World) (name : String) : Prop :=
  ∃ service : Service, objectAt .service name w = some service ∧
    managed resource service.metadata.labels = true ∧
    isStaleRoleService resource (roleNames resource) name service = true

theorem mem_listObjects {kind : Kind} {resource : PgBouncerAurora} {w w' : World}
    {listed : List (String × kind.Object)} (h : listObjects kind resource w = .ok listed w')
    {name : String} {object : kind.Object} :
    (name, object) ∈ listed ↔ objectAt kind name w = some object ∧
      managed resource (kind.metadata object).labels = true := by
  obtain ⟨faults, hrun⟩ := call_eq_ok h
  simp only [EStateM.Result.ok.injEq] at hrun
  rw [← hrun.1, List.mem_filter, Std.ExtTreeMap.mem_toList_iff_getElem?_eq_some]
  rfl

/-- Cleaning up does what deleting stale role Services does. -/
theorem cleanupStaleRoleServices_final {R : World → World → Prop} (hR : Frame R)
    {resource : PgBouncerAurora} {w : World}
    (hdelete : ∀ name, StaleAt resource w name → Within R (deleteObject .service name)) :
    R w (final (cleanupStaleRoleServices resource) w) := by
  refine hR.bind (hR.read (listObjects_keeps _ _) _) fun services w₁ hlist => ?_
  refine Within.forM hR.toSteps (fun entry hentry => ?_) w₁
  obtain ⟨hat, hmanaged⟩ := (mem_listObjects hlist).mp hentry
  split
  · rename_i hstale
    exact deleteIfPresent_within hR (hdelete _ ⟨_, hat, hmanaged, hstale⟩)
  · exact Within.pure hR.toSteps _

/-- **Exactly the stale role Services go.** -/
theorem cleanupStaleRoleServices_ensures (resource : PgBouncerAurora) :
    Ensures (cleanupStaleRoleServices resource) fun w _ w' =>
      Erases (fun kind name => kind = .service ∧ StaleAt resource w name) w w' ∧
        ∀ name, StaleAt resource w name → objectAt .service name w' = none := by
  intro w _ w' h
  obtain ⟨services, w₁, hlist, hrun⟩ := bind_eq_ok.mp h
  have hcluster : w₁.cluster = w.cluster :=
    congrArg (fun v => v.2.1) ((listObjects_keeps _ _).of_ok hlist)
  have hstart : Erases (fun kind name => kind = .service ∧ StaleAt resource w name) w w₁ :=
    ⟨fun kind name => Or.inl (by rw [objectAt, objectAt, hcluster]), by rw [hcluster]⟩
  -- the invariant: so far only stale Services went, and those that were looked at are gone
  have hinv := Ensures.forM (I := fun done v =>
    Erases (fun kind name => kind = .service ∧ StaleAt resource w name) w v ∧
      ∀ entry ∈ done, isStaleRoleService resource (roleNames resource) entry.1 entry.2 = true →
        objectAt .service entry.1 v = none) ?_ hrun ⟨hstart, by simp⟩
  · refine ⟨hinv.1, fun name hstale => ?_⟩
    obtain ⟨service, hat, hmanaged, hstale⟩ := hstale
    exact hinv.2 (name, service) ((mem_listObjects hlist).mpr ⟨hat, hmanaged⟩) hstale
  · intro before entry after hsplit v v' hI hbody
    have hin : (entry.1, entry.2) ∈ services := by rw [hsplit]; simp
    obtain ⟨hat, hmanaged⟩ := (mem_listObjects hlist).mp hin
    have hbody' : (if isStaleRoleService resource (roleNames resource) entry.1 entry.2 then
        deleteIfPresent .service entry.1 else pure ()) v = .ok ⟨⟩ v' := hbody
    by_cases hstale : isStaleRoleService resource (roleNames resource) entry.1 entry.2 = true
    · rw [if_pos hstale] at hbody'
      obtain ⟨hgone, herases⟩ := Erases.delete
        (P := fun kind name => kind = .service ∧ StaleAt resource w name)
        ⟨rfl, entry.2, hat, hmanaged, hstale⟩ hbody'
      refine ⟨hI.1.trans herases, fun entry' hentry' hstale' => ?_⟩
      rcases List.mem_append.mp hentry' with hbefore | hlast
      · exact herases.none (hI.2 entry' hbefore hstale')
      · rw [List.mem_singleton.mp hlast]
        exact hgone
    · rw [if_neg hstale] at hbody'
      cases hbody'
      refine ⟨hI.1, fun entry' hentry' hstale' => ?_⟩
      rcases List.mem_append.mp hentry' with hbefore | hlast
      · exact hI.2 entry' hbefore hstale'
      · rw [List.mem_singleton.mp hlast] at hstale'
        exact absurd hstale' hstale

/-! ## 4. The whole apply -/

theorem planDigest_keeps (resource : PgBouncerAurora) (plan : Output) :
    Keeps World.visible (planDigest resource plan) :=
  Keeps.ite _ (authFileHash_keeps resource) (Keeps.pure none)

/-- The applies are done once both loops have returned, whatever the clean-ups do then. -/
theorem appliedAll_of_stages {resource : PgBouncerAurora} {plan : Output}
    {digest : Option (Digest AuthFileMetadata)} {w w₀ v w₁ : World}
    (h₀ : planDigest resource plan w = .ok digest w₀)
    (h₁ : (activePlanInstances plan.instances).forM (applyInstance resource digest) w₀
      = .ok ⟨⟩ v)
    (h₂ : [Role.writer, .reader].forM (fun role =>
      applyObject .service (setOwner .service resource (roleService resource role)) []) v
        = .ok ⟨⟩ w₁) :
    AppliedAll resource (desiredObjects resource digest plan) w w₁ := by
  have hread : w₀.cluster = w.cluster :=
    congrArg (fun v => v.2.1) ((planDigest_keeps resource plan).of_ok h₀)
  have hall := (AppliedAll.instances h₁).roles h₂
  refine ⟨fun kind name => ?_, by rw [hall.secrets, hread]⟩
  have heach := hall.each kind name
  unfold objectAt at heach ⊢
  rw [hread] at heach
  exact heach

/-- What a successful `applyDesired` has done, stage by stage. -/
theorem applyDesired_eq_ok {resource : PgBouncerAurora} {plan : Output} {w w' : World}
    (h : applyDesired resource plan w = .ok () w') :
    ∃ digest w₀ w₁ w₂, planDigest resource plan w = .ok digest w₀ ∧
      AppliedAll resource (desiredObjects resource digest plan) w w₁ ∧
      (Erases (fun kind name => kind = .service ∧ StaleAt resource w₁ name) w₁ w₂ ∧
        ∀ name, StaleAt resource w₁ name → objectAt .service name w₂ = none) ∧
      Erases (fun _ name => name ∈ disabledNames resource plan) w₂ w' := by
  obtain ⟨digest, w₀, h₀, h⟩ := bind_eq_ok.mp h
  obtain ⟨_, v, h₁, h⟩ := bind_eq_ok.mp h
  obtain ⟨_, w₁, h₂, h⟩ := bind_eq_ok.mp h
  obtain ⟨_, w₂, h₃, h₄⟩ := bind_eq_ok.mp h
  exact ⟨digest, w₀, w₁, w₂, h₀, appliedAll_of_stages h₀ h₁ h₂,
    cleanupStaleRoleServices_ensures resource h₃,
    cleanupDisabledInstanceResources_ensures resource plan h₄⟩

theorem applyDesired_cleared {resource : PgBouncerAurora} {plan : Output} {w w' : World}
    (h : applyDesired resource plan w = .ok () w') (kind : Kind) {name : String}
    (hname : name ∈ disabledNames resource plan) : objectAt kind name w' = none := by
  obtain ⟨_, _, -, h⟩ := bind_eq_ok.mp h
  obtain ⟨_, _, -, h⟩ := bind_eq_ok.mp h
  obtain ⟨_, _, -, h⟩ := bind_eq_ok.mp h
  obtain ⟨_, _, -, h⟩ := bind_eq_ok.mp h
  exact cleanupDisabledInstanceResources_gone resource plan h kind name hname

end Controller

end AuroraOperator

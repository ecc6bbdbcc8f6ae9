/-
# A Secret that cannot be read

The digest of the auth-file Secret is an annotation of every pod template, so that the pods roll
when the Secret changes.  A read that fails is taken for a Secret that is not there, and then the
annotation is the hash of the Secret's name.

A Reconcile of a namespace that is as the last apply left it reads the Secret once or twice: the
drift detector does, and the apply that follows does again.

* `templates_survive_iff`: the pod templates survive such a Reconcile, and the undisturbed one
  after it, exactly when no read fails, or only the detector's does.
* `unreadable_secret_rolls`: with both reads failing, the pod templates change.
-/
import AuroraOperator.Controller.Templates
import AuroraOperator.Controller.WriterChange

namespace AuroraOperator

namespace Controller

open Planner Render Program

/-! ## 1. Counting failures -/

/-- Failures of the server itself, and not answers about an object. -/
def Transient (faults : List (Option Fault)) : Prop :=
  ∀ fault : Fault, some fault ∈ faults → ∃ message, fault.val = .other message

/-- How many calls are to fail. -/
def failures (faults : List (Option Fault)) : Nat := faults.countP Option.isSome

/-- Who only survives lost races has met no transient failure. -/
theorem OnlyMet.none_failed {w w' : World} (h : OnlyMet LostRace w w') (ht : Transient w.faults) :
    Transient w'.faults ∧ failures w'.faults = failures w.faults := by
  obtain ⟨met, heq, hall⟩ := h
  rw [heq] at ht ⊢
  refine ⟨fun fault hin => ht fault (List.mem_append_right met hin), ?_⟩
  have hnone : met.countP Option.isSome = 0 := by
    rw [List.countP_eq_zero]
    rintro (_ | fault) hin hsome
    · cases hsome
    · obtain ⟨message, hother⟩ := ht fault (List.mem_append_left _ hin)
      rcases hall fault hin with hrace | hrace <;> rw [hrace] at hother <;> cases hother
  rw [failures, failures, List.countP_append, hnone, Nat.zero_add]

/-- A program that returned and stops at failures has met none. -/
theorem StopsAtFault.none_failed {α : Type} {m : Api α} (hm : StopsAtFault LostRace m) {w w' : World}
    {a : α} (h : m w = .ok a w') (ht : Transient w.faults) :
    Transient w'.faults ∧ failures w'.faults = failures w.faults := (hm.of_ok h).none_failed ht

/-- Reading takes the first fate from the list. -/
theorem recover_fetch_eq {α : Type} (lookup : Cluster → Option α) (w : World) :
    recover (fun _ => true) (fetch lookup) w =
      .ok (if w.faults.head?.join.isSome then none else lookup w.cluster)
        { w with faults := w.faults.tail } := by
  have hself : w.faults = [] → w = { w with faults := w.faults.tail } := by
    intro hnil
    rw [hnil, List.tail_nil, ← hnil]
  unfold recover fetch call
  cases hfaults : w.faults with
  | nil =>
    rw [hfaults] at hself
    cases hfound : lookup w.cluster <;> simpa [hfound] using hself rfl
  | cons first rest =>
    cases first with
    | none => cases hfound : lookup w.cluster <;> simp [hfound]
    | some fault => simp

theorem recover_fetch_cases {α : Type} (lookup : Cluster → Option α) {w : World}
    (ht : Transient w.faults) :
    ∃ found w', recover (fun _ => true) (fetch lookup) w = .ok found w' ∧ Transient w'.faults ∧
      (found = lookup w.cluster ∧ failures w.faults = failures w'.faults ∨
        found = none ∧ failures w.faults = failures w'.faults + 1) := by
  refine ⟨_, _, recover_fetch_eq lookup w, fun fault hin => ht fault (List.mem_of_mem_tail hin), ?_⟩
  rcases w.faults with - | ⟨- | fault, rest⟩
  · exact Or.inl ⟨rfl, rfl⟩
  · exact Or.inl ⟨rfl, rfl⟩
  · exact Or.inr ⟨rfl, by simp [failures]⟩

/-- **A read of the Secret always returns.**  It gives the digest of what is stored, or it has met
a failure and gives nothing. -/
theorem authFileHash_cases (resource : PgBouncerAurora) {w : World} (ht : Transient w.faults) :
    ∃ digest w', authFileHash resource w = .ok digest w' ∧ Transient w'.faults ∧
      (digest = secretDigest resource w.cluster ∧ failures w.faults = failures w'.faults ∨
        digest = none ∧ resource.spec.pgbouncer.authFileSecretRef ≠ "" ∧
          failures w.faults = failures w'.faults + 1) := by
  unfold authFileHash secretDigest
  dsimp only
  split
  · exact ⟨none, w, rfl, ht, Or.inl ⟨rfl, rfl⟩⟩
  · rename_i hname
    obtain ⟨found, w', hrun, ht', hcases⟩ := recover_fetch_cases
      (fun cluster => cluster.secrets[resource.spec.pgbouncer.authFileSecretRef]?) ht
    refine ⟨_, w', bind_eq_ok.mpr ⟨found, w', hrun, rfl⟩, ht', ?_⟩
    rcases hcases with ⟨rfl, hcount⟩ | ⟨rfl, hcount⟩
    · exact Or.inl ⟨rfl, hcount⟩
    · exact Or.inr ⟨rfl, hname, hcount⟩

/-! ## 2. An apply without the digest -/

section Unread

variable {resource : PgBouncerAurora} {plan : Output}

/-- The annotation by which the pods roll when the Secret changes. -/
abbrev authFileOf (deployment : Deployment) : Option Value :=
  deployment.template.annotations[annotationAuthFileHash]?

theorem authFileOf_instanceDeployment (resource : PgBouncerAurora) (entry : InstancePlan)
    (digest : Option (Digest AuthFileMetadata)) :
    authFileOf (instanceDeployment resource entry digest) = some (digest.elim
      (hashString resource.spec.pgbouncer.authFileSecretRef) .authFileHash) := by
  have hrendered : (podTemplateAnnotations resource entry.toInstanceObservation digest)[
      annotationAuthFileHash]? = some (digest.elim
        (hashString resource.spec.pgbouncer.authFileSecretRef) .authFileHash) := by
    unfold podTemplateAnnotations
    rw [Std.ExtTreeMap.getElem?_insert_self]
    cases digest <;> rfl
  simp only [authFileOf, instanceDeployment, Std.ExtTreeMap.getElem?_erase]
  rw [if_neg (by decide)]
  exact getElem?_mergeMap hrendered

theorem authFileOf_preserveRestart (deployment : Deployment) (token : Option Value) :
    authFileOf (preserveRestartAnnotations deployment token) = authFileOf deployment := by
  cases token with
  | none => rfl
  | some token =>
    simp only [authFileOf, preserveRestartAnnotations, setRestartMark]
    rw [Std.ExtTreeMap.getElem?_insert, if_neg (by decide)]

theorem authFileOf_applied (existing : Option Deployment) (desired : Deployment) :
    authFileOf (applied .deployment existing (setOwner .deployment resource desired))
      = authFileOf desired := by
  cases existing with
  | none => rfl
  | some existing =>
    have htemplate := template_copyDesired existing (setOwner .deployment resource desired)
    have hauth := authFileOf_preserveRestart (setOwner .deployment resource desired)
      (restartMark existing)
    unfold authFileOf at hauth ⊢
    rw [← htemplate] at hauth
    exact hauth

theorem DesiredObject.key_eq {d : DesiredObject} {kind : Kind} {name : String} (hkind : d.1 = kind)
    (hname : d.key.2 = name) : d.key = (kind, name) := Prod.ext hkind hname

/-- After an apply, every Deployment of an active instance has the annotation of its digest. -/
theorem authFileOf_applyDesired {w w₀ w' : World} {digest : Option (Digest AuthFileMetadata)}
    (h : applyDesired resource plan w = .ok () w') (hdigest : planDigest resource plan w = .ok digest w₀)
    {entry : InstancePlan} (hentry : entry ∈ activePlanInstances plan.instances) {name : String}
    (hname : instanceResourceName resource.name entry.name = name)
    (hdisabled : name ∉ disabledNames resource plan) :
    (objectAt .deployment name w').map authFileOf = some (some (digest.elim
      (hashString resource.spec.pgbouncer.authFileSecretRef) .authFileHash)) := by
  obtain ⟨_, _, w₁, w₂, hread, hall, ⟨hstale, -⟩, hcleaned⟩ := applyDesired_eq_ok h
  rw [hdigest] at hread
  cases hread
  -- neither clean-up deletes the Deployment
  have hkept₁ : objectAt .deployment name w₂ = objectAt .deployment name w₁ :=
    hstale.kept (by simp)
  have hkept₂ : objectAt .deployment name w' = objectAt .deployment name w₂ :=
    hcleaned.kept hdisabled
  rw [hkept₂, hkept₁]
  rcases hall.each .deployment name with ⟨d, hd, hkey, existing, hplaced⟩ | ⟨hnone, -⟩
  · -- the object of that kind and name was rendered for an active instance
    rcases mem_desiredObjects.mp hd with ⟨entry', -, hd⟩ | hd
    · simp only [instanceObjects, List.mem_cons, List.not_mem_nil, or_false] at hd
      rcases hd with rfl | rfl | rfl
      · cases congrArg Prod.fst hkey
      · obtain rfl : _ = name := congrArg Prod.snd hkey
        rw [hplaced, Option.map_some, authFileOf_applied, authFileOf_instanceDeployment]
      · cases congrArg Prod.fst hkey
    · simp only [roleObjects, List.mem_cons, List.not_mem_nil, or_false] at hd
      rcases hd with rfl | rfl <;> cases congrArg Prod.fst hkey
  · have hmem := deployment_mem resource digest entry
    have hkey := DesiredObject.key_eq rfl (key_instanceObjects hmem)
    rw [hname] at hkey
    exact absurd hkey (hnone _ (instanceObject_mem hentry hmem))

/-- What follows does not touch the annotation of a Deployment that it does not delete. -/
theorem finishApply_keeps_authFile {discovery : DiscoveryResult}
    {missing : List MissingInstanceStatus} {now : Int} {name : String}
    (hremoved : ∀ m ∈ missing, keepsMissing resource discovery now m = false →
      name ≠ instanceResourceName resource.name m.instanceName) :
    Keeps (fun w : World => w.cluster.deployments[name]?.map authFileOf)
      (finishApply resource discovery plan missing now) := by
  have hR : Frame fun w w' : World => w'.cluster.deployments[name]?.map authFileOf
      = w.cluster.deployments[name]?.map authFileOf :=
    frame_view (fun v => v.2.1.deployments[name]?.map authFileOf) fun _ => rfl
  refine finishApply_within hR (fun kind m hm hgone w => ?_) (fun other labels w => ?_)
    fun _ target _ => ?_
  · exact congrArg (Option.map authFileOf) (deleteObject_keeps_other (k := .deployment)
      (fun _ => hremoved m hm hgone) w)
  · exact congrArg (fun side => (side.2 .deployment)[name]?.map authFileOf)
      (patchPod_keeps other labels w)
  · unfold restartDeployment retryOnConflict
    refine Within.retry hR.toSteps (hR.lookup fun w => ?_) 4
    cases hthere : (objects .deployment w.cluster)[instanceResourceName resource.name target]? with
    | none => exact hR.refl w
    | some existing =>
      dsimp only
      split
      · exact hR.refl w
      · cases hrun : updateObject .deployment (instanceResourceName resource.name target)
            (setRestartMark existing (planToken resource plan)) w with
        | error e w₁ =>
          rw [final_of_error hrun]
          exact hR.reads (updateObject_clean _ _ _ hrun)
        | ok _ w₁ =>
          rw [final_of_ok hrun, updateDeployment_eq_ok hrun, Std.ExtTreeMap.getElem?_insert]
          split
          · rename_i hsame
            rw [← compare_eq_iff_eq.mp hsame, show w.cluster.deployments[_]? = _ from hthere]
            exact congrArg some (authFileOf_preserveRestart existing (some (planToken resource plan)))
          · rfl

end Unread

/-! ## 3. A namespace as the last apply left it -/

/-- The namespace is as an apply of the plan leaves it, with the Secret there was then. -/
structure AsApplied (w : World) : Prop where
  unfrozen : w.planned.frozen = false
  settled : Settled w.stored.resource w.planned (secretDigest w.stored.resource w.cluster) w
  labels : LabelsExact w.stored.resource w.planned w.cluster
  cleared : ∀ kind, ∀ name ∈ disabledNames w.stored.resource w.planned, objectAt kind name w = none
  restarted : RestartsFor w.stored.resource w.planned →
    ∀ name ∈ restartTargets w.stored.resource w.planned
        (effectiveWriterChangeConnectionHandling w.stored.resource),
      Restarted (planToken w.stored.resource w.planned) w.cluster.deployments
        (instanceResourceName w.stored.resource.name name)
  readable : w.stored.resource.spec.pgbouncer.authFileSecretRef ≠ "" →
    secretDigest w.stored.resource w.cluster ≠ none
  /-- A missing instance does not share its resource name with another one that is active. -/
  apart : ∀ m ∈ w.stored.resource.status.missingInstances,
    ∀ entry ∈ activePlanInstances w.planned.instances,
      instanceResourceName w.stored.resource.name entry.name
          = instanceResourceName w.stored.resource.name m.instanceName →
        m.instanceName = entry.name

/-- What an attempt needs to leave the templates alone, if it reads the Secret. -/
structure Ready (w : World) : Prop where
  rendered : Rendered w.stored.resource w.planned (secretDigest w.stored.resource w.cluster)
    w.cluster.deployments
  disabled : ∀ entry ∈ activePlanInstances w.planned.instances,
    instanceResourceName w.stored.resource.name entry.name
      ∉ disabledNames w.stored.resource w.planned
  removed : ∀ now, ∀ entry ∈ activePlanInstances w.planned.instances,
    ∀ m ∈ w.stored.resource.status.missingInstances,
      keepsMissing w.stored.resource (cachedDiscovery w.stored.resource) now m = false →
      instanceResourceName w.stored.resource.name entry.name
        ≠ instanceResourceName w.stored.resource.name m.instanceName

section States

variable {w : World}

theorem placed_deployment {resource : PgBouncerAurora} {plan : Output}
    {digest : Option (Digest AuthFileMetadata)} {entry : InstancePlan}
    (h : ∀ d ∈ desiredObjects resource digest plan, Placed resource d w)
    (hentry : entry ∈ activePlanInstances plan.instances) :
    ∃ existing, w.cluster.deployments[instanceResourceName resource.name entry.name]?
      = some (applied .deployment existing
        (setOwner .deployment resource (instanceDeployment resource entry digest))) := by
  have hmem := deployment_mem resource digest entry
  obtain ⟨existing, hplaced⟩ := h _ (instanceObject_mem hentry hmem)
  have hname := key_instanceObjects hmem
  rw [hname] at hplaced
  exact ⟨existing, hplaced⟩

/-- An instance that is planned is discovered, so it is not removed for being missing. -/
theorem not_removed (hplan : w.planned.frozen = false) {entry : InstancePlan}
    (hentry : entry ∈ activePlanInstances w.planned.instances) {m : MissingInstanceStatus}
    (hsame : m.instanceName = entry.name) (now : Int) :
    keepsMissing w.stored.resource (cachedDiscovery w.stored.resource) now m = true := by
  have hin := (finalPlan_entry hplan (List.mem_filter.mp hentry).1).1
  unfold keepsMissing discoveredInstanceSet removedInstanceReadyForDelete
  by_cases hempty : m.instanceName = ""
  · simp [hempty]
  · have hany : (cachedDiscovery w.stored.resource).instances.any
        (fun o => decide (o.name = m.instanceName)) = true :=
      List.any_eq_true.mpr ⟨_, hin, by simp [hsame]⟩
    simp [hempty, hany]

theorem AsApplied.ready (h : AsApplied w) : Ready w where
  rendered :=
    { each := fun entry hentry => by
        obtain ⟨existing, hplaced⟩ := placed_deployment h.settled.placed hentry
        exact ⟨_, hplaced, reapplies_applied existing entry⟩
      restarted := h.restarted }
  disabled entry hentry hin := by
    obtain ⟨existing, hplaced⟩ := placed_deployment h.settled.placed hentry
    have hnone : w.cluster.deployments[instanceResourceName w.stored.resource.name entry.name]?
        = none := h.cleared .deployment _ hin
    rw [hplaced] at hnone
    cases hnone
  removed now entry hentry m hm hgone hsame := by
    rw [not_removed h.unfrozen hentry (h.apart m hm entry hentry hsame) now] at hgone
    cases hgone

end States

/-! ## 4. The decision -/

/-- The next attempt applies its plan without asking the drift detector. -/
def AppliesAtOnce (w : World) (now : Int) : Prop :=
  w.stored.resource.generation ≠ w.stored.resource.status.observedGeneration ∨
    w.stored.resource.status.lastAppliedTime = none ∨
    removedInstanceDeletionDue w.stored.resource w.stored.resource.status.missingInstances now = true

instance (w : World) (now : Int) : Decidable (AppliesAtOnce w now) :=
  inferInstanceAs (Decidable (_ ∨ _ ∨ _))

section Decision

variable {w v v' : World}

theorem Settled.of_cluster {resource : PgBouncerAurora} {plan : Output}
    {digest : Option (Digest AuthFileMetadata)} (h : Settled resource plan digest w)
    (hcluster : v.cluster = w.cluster) : Settled resource plan digest v := by
  have hat : ∀ kind name, objectAt kind name v = objectAt kind name w := by
    intro kind name
    rw [objectAt, objectAt, hcluster]
  constructor
  · intro d hd
    obtain ⟨existing, hplaced⟩ := h.placed d hd
    exact ⟨existing, (hat _ _).trans hplaced⟩
  · rintro name ⟨service, hthere, hstale⟩
    exact h.fresh name ⟨service, (hat _ _).symm.trans hthere, hstale⟩

/-- The detector reads the Secret at most once, and finds a drift only if that read fails. -/
theorem deploymentTemplateDrifted_cases {resource : PgBouncerAurora} {plan : Output}
    (h : Settled resource plan (secretDigest resource w.cluster) w)
    {listed : List (String × Deployment)} {w₁ : World}
    (hlist : listObjects .deployment resource w = .ok listed w₁) (hv : v.cluster = w.cluster)
    (ht : Transient v.faults) {drifted : Bool}
    (hrun : deploymentTemplateDrifted resource plan listed v = .ok drifted v') :
    Transient v'.faults ∧ (drifted = false ∧ failures v.faults = failures v'.faults ∨
      failures v.faults = failures v'.faults + 1) := by
  rw [deploymentTemplateDrifted_eq] at hrun
  split at hrun
  · cases hrun
    exact ⟨ht, Or.inl ⟨rfl, rfl⟩⟩
  · obtain ⟨digest, v₁, hread, ht₁, hcases⟩ := authFileHash_cases resource ht
    obtain ⟨_, _, hread', hrun⟩ := bind_eq_ok.mp hrun
    cases hread.symm.trans hread'
    cases hrun
    refine ⟨ht₁, ?_⟩
    rcases hcases with ⟨rfl, hcount⟩ | ⟨-, -, hcount⟩
    · rw [hv]
      exact Or.inl ⟨((deployments_content_iff hlist _).mpr h.deployments).2, hcount⟩
    · exact Or.inr hcount

theorem cachedPlanNeedsApply_cases (h : AsApplied w) (hv : v.cluster = w.cluster)
    (ht : Transient v.faults) {decision : Bool × String}
    (hrun : cachedPlanNeedsApply w.stored.resource w.planned v = .ok decision v') :
    Transient v'.faults ∧ (decision.1 = false ∧ failures v.faults = failures v'.faults ∨
      failures v.faults = failures v'.faults + 1) := by
  unfold cachedPlanNeedsApply at hrun
  obtain ⟨configMaps, v₁, h₁, hrun⟩ := bind_eq_ok.mp hrun
  have hc₁ : v₁.cluster = w.cluster :=
    (congrArg (fun v => v.2.1) ((listObjects_keeps _ _).of_ok h₁)).trans hv
  obtain ⟨ht₁, hf₁⟩ := (listObjects_stops _ _).none_failed h₁ ht
  rw [(configMapReason_eq_none_iff h₁).mpr (h.settled.of_cluster hv).configMaps] at hrun
  obtain ⟨deployments, v₂, h₂, hrun⟩ := bind_eq_ok.mp hrun
  have hc₂ : v₂.cluster = w.cluster :=
    (congrArg (fun v => v.2.1) ((listObjects_keeps _ _).of_ok h₂)).trans hc₁
  obtain ⟨ht₂, hf₂⟩ := (listObjects_stops _ _).none_failed h₂ ht₁
  rw [((deployments_content_iff h₂ _).mpr (h.settled.of_cluster hc₁).deployments).1] at hrun
  obtain ⟨drifted, v₃, h₃, hrun⟩ := bind_eq_ok.mp hrun
  have hc₃ : v₃.cluster = w.cluster :=
    (congrArg (fun v => v.2.1) ((deploymentTemplateDrifted_keeps _ _ _).of_ok h₃)).trans hc₂
  have hsettled₁ := h.settled.of_cluster hc₁
  rw [← hc₁] at hsettled₁
  obtain ⟨ht₃, hread⟩ := deploymentTemplateDrifted_cases hsettled₁ h₂ (hc₂.trans hc₁.symm) ht₂ h₃
  rw [hf₂, hf₁] at hread
  cases drifted with
  | true =>
    cases hrun
    exact ⟨ht₃, Or.inr (hread.resolve_left fun hno => by cases hno.1)⟩
  | false =>
    -- the rest reads without failing, and finds the Services and the labels in order
    obtain ⟨services, v₄, h₄, hrun⟩ := bind_eq_ok.mp hrun
    obtain ⟨ht₄, hf₄⟩ := (listObjects_stops _ _).none_failed h₄ ht₃
    have hc₄ : v₄.cluster = w.cluster :=
      (congrArg (fun v => v.2.1) ((listObjects_keeps _ _).of_ok h₄)).trans hc₃
    have hsettled₃ := h.settled.of_cluster hc₃
    rw [(serviceReason_eq_none_iff h₄).mpr ⟨hsettled₃.services, hsettled₃.noneStale⟩] at hrun
    obtain ⟨pods, v₅, h₅, hrun⟩ := bind_eq_ok.mp hrun
    obtain ⟨ht₅, hf₅⟩ := (listPods_stops _).none_failed h₅ ht₄
    have hlabels := h.labels
    rw [← hc₄] at hlabels
    rw [hlabels.not_drifted h₅] at hrun
    cases hrun
    rw [hf₅, hf₄]
    exact ⟨ht₅, hread.imp_left fun hno => ⟨rfl, hno.2⟩⟩

/-- **The decision.**  An attempt that asks the detector applies only if the read of the Secret
fails. -/
theorem shouldApplyPlan_cases (h : AsApplied w) (hv : v.cluster = w.cluster)
    (ht : Transient v.faults) {now : Int} {decision : Bool × String}
    (hrun : shouldApplyPlan w.stored.resource (scheduledEvaluation w.stored.resource) w.planned
      w.stored.resource.status.missingInstances now v = .ok decision v') :
    Transient v'.faults ∧
      (AppliesAtOnce w now ∧ decision.1 = true ∧ failures v.faults = failures v'.faults ∨
        ¬ AppliesAtOnce w now ∧ (decision.1 = false ∧ failures v.faults = failures v'.faults ∨
          failures v.faults = failures v'.faults + 1)) := by
  unfold shouldApplyPlan at hrun
  rw [if_neg (by simp [h.unfrozen])] at hrun
  by_cases hfirst : (w.stored.resource.generation ≠ w.stored.resource.status.observedGeneration ||
      w.stored.resource.status.lastAppliedTime = none) = true
  · rw [if_pos hfirst] at hrun
    cases hrun
    refine ⟨ht, Or.inl ⟨?_, rfl, rfl⟩⟩
    simp only [ne_eq, decide_not, Bool.or_eq_true, Bool.not_eq_true', decide_eq_false_iff_not,
      decide_eq_true_eq] at hfirst
    exact hfirst.imp_right Or.inl
  · rw [if_neg hfirst, if_neg (by simp [scheduledEvaluation])] at hrun
    simp only [ne_eq, decide_not, Bool.or_eq_true, Bool.not_eq_true', decide_eq_false_iff_not,
      decide_eq_true_eq, not_or, not_not] at hfirst
    by_cases hdue : removedInstanceDeletionDue w.stored.resource
        w.stored.resource.status.missingInstances now = true
    · rw [if_pos hdue] at hrun
      cases hrun
      exact ⟨ht, Or.inl ⟨Or.inr (Or.inr hdue), rfl, rfl⟩⟩
    · rw [if_neg hdue] at hrun
      obtain ⟨ht', hcases⟩ := cachedPlanNeedsApply_cases h hv ht hrun
      refine ⟨ht', Or.inr ⟨?_, hcases⟩⟩
      rintro (hgeneration | hnever | hdue')
      · exact hgeneration hfirst.1
      · exact hfirst.2 hnever
      · exact hdue hdue'

end Decision

/-! ## 5. Whole attempts -/

section Attempts

variable {w v v' w₁ : World}

theorem planDigest_cases (resource : PgBouncerAurora) (plan : Output) (ht : Transient v.faults) :
    ∃ digest v', planDigest resource plan v = .ok digest v' ∧ Transient v'.faults ∧
      ((activePlanInstances plan.instances ≠ [] → digest = secretDigest resource v.cluster) ∧
          failures v.faults = failures v'.faults ∨
        digest = none ∧ resource.spec.pgbouncer.authFileSecretRef ≠ "" ∧
          activePlanInstances plan.instances ≠ [] ∧
          failures v.faults = failures v'.faults + 1) := by
  unfold planDigest
  split
  · rename_i hactive
    obtain ⟨digest, v', hrun, ht', hcases⟩ := authFileHash_cases resource ht
    refine ⟨digest, v', hrun, ht', hcases.imp (fun hread => ⟨fun _ => hread.1, hread.2⟩) ?_⟩
    rintro ⟨hnone, hname, hcount⟩
    exact ⟨hnone, hname, List.ne_nil_of_length_pos hactive, hcount⟩
  · rename_i hactive
    refine ⟨none, v, rfl, ht, Or.inl ⟨fun hne => ?_, rfl⟩⟩
    exact absurd (List.length_pos_of_ne_nil hne) hactive

/-- Some active instance has the annotation of a Secret that could not be read. -/
def Unread (w v : World) : Prop :=
  ∃ entry ∈ activePlanInstances w.planned.instances,
    (objectAt .deployment (instanceResourceName w.stored.resource.name entry.name) v).map authFileOf
      = some (some (hashString w.stored.resource.spec.pgbouncer.authFileSecretRef))

/-- **An apply** keeps the templates, or its read of the Secret has failed. -/
theorem applyPlan_cases (h : Ready w) (hv : v.cluster = w.cluster) (ht : Transient v.faults)
    {now : Int} {remaining : List MissingInstanceStatus}
    (hrun : applyPlan w.stored.resource (cachedDiscovery w.stored.resource) w.planned
      w.stored.resource.status.missingInstances now v = .ok remaining v') :
    Transient v'.faults ∧
    (Rendered w.stored.resource w.planned (secretDigest w.stored.resource w.cluster)
          v'.cluster.deployments ∧
        TemplatesKept w.cluster.deployments v'.cluster.deployments ∧
        failures v.faults = failures v'.faults ∨
      w.stored.resource.spec.pgbouncer.authFileSecretRef ≠ "" ∧ Unread w v' ∧
        failures v.faults = failures v'.faults + 1) := by
  rw [applyPlan_eq] at hrun
  obtain ⟨_, v₂, happly, hfinish⟩ := bind_eq_ok.mp hrun
  obtain ⟨digest, v₁, hdigest, hwith⟩ := bind_eq_ok.mp (applyDesired_eq _ _ ▸ happly)
  obtain ⟨_, _, hdigest', ht₁, hcases⟩ := planDigest_cases w.stored.resource w.planned ht
  rw [hdigest] at hdigest'
  cases hdigest'
  obtain ⟨ht₂, hf₂⟩ := (applyWith_stops _ _ _).none_failed hwith ht₁
  obtain ⟨ht₃, hf₃⟩ := (finishApply_stops _ _ _ _ _).none_failed hfinish ht₂
  have hcount : failures v'.faults = failures v₁.faults := hf₃.trans hf₂
  have hc₁ : v₁.cluster = w.cluster :=
    (congrArg (fun v => v.2.1) ((planDigest_keeps _ _).of_ok hdigest)).trans hv
  refine ⟨ht₃, hcases.imp (fun hread => ?_) fun hfailed => ?_⟩
  · -- with the digest that is stored, everything stays as it is rendered
    have hrendered : Rendered w.stored.resource w.planned digest v₁.cluster.deployments := by
      rw [hc₁]
      refine ⟨fun entry hentry => ?_, h.rendered.restarted⟩
      rw [hread.1 (List.ne_nil_of_mem hentry), hv]
      exact h.rendered.each entry hentry
    obtain ⟨hafter, hkept⟩ := (apply_stays h.disabled (h.removed now)).of_ok
      (bind_eq_ok.mpr ⟨_, _, hwith, hfinish⟩) hrendered
    rw [hc₁] at hkept
    refine ⟨⟨fun entry hentry => ?_, hafter.restarted⟩, hkept, hread.2.trans hcount.symm⟩
    have hdigest_eq := hread.1 (List.ne_nil_of_mem hentry)
    rw [hv] at hdigest_eq
    rw [← hdigest_eq]
    exact hafter.each entry hentry
  · obtain ⟨rfl, hname, hactive, hone⟩ := hfailed
    obtain ⟨entry, hentry⟩ := List.exists_mem_of_ne_nil _ hactive
    refine ⟨hname, ⟨entry, hentry, ?_⟩, hone.trans (by rw [hcount])⟩
    have hput := authFileOf_applyDesired happly hdigest hentry rfl (h.disabled entry hentry)
    exact ((finishApply_keeps_authFile (h.removed now entry hentry)).of_ok hfinish).trans hput

/-- What a returning attempt went through: reads, the decision, the apply and the commit. -/
theorem reconcile_stages {now : Int} {p : Prepared}
    (h : reconcile .scheduled now w = .ok p w₁) :
    ∃ v decision v₁ remaining v₂, p.applied = decision.1 ∧ OnlyMet LostRace w v ∧
      v.cluster = w.cluster ∧
      shouldApplyPlan w.stored.resource (scheduledEvaluation w.stored.resource) w.planned
        w.stored.resource.status.missingInstances now v = .ok decision v₁ ∧
      applyIf decision.1 w.stored.resource (scheduledEvaluation w.stored.resource) w.planned
        w.stored.resource.status.missingInstances now v₁ = .ok remaining v₂ ∧
      OnlyMet LostRace v₂ w₁ ∧ w₁.cluster = v₂.cluster := by
  obtain ⟨prepared, u, hprepare, hcommit⟩ := bind_eq_ok.mp h
  obtain ⟨committed, _, hcommit, hend⟩ := bind_eq_ok.mp hcommit
  cases hend
  obtain ⟨cached, w₁, h₁, hprepare⟩ := bind_eq_ok.mp hprepare
  obtain ⟨resource, w₂, h₂, hprepare⟩ := bind_eq_ok.mp hprepare
  rw [evaluate, pure_bind] at hprepare
  obtain ⟨planned, w₃, h₃, hprepare⟩ := bind_eq_ok.mp hprepare
  obtain ⟨decision, w₄, h₄, hprepare⟩ := bind_eq_ok.mp hprepare
  obtain ⟨remaining, w₅, h₅, hprepare⟩ := bind_eq_ok.mp hprepare
  cases hprepare
  have v₂ := (getResource_keeps.of_ok h₂).trans (getResource_keeps.of_ok h₁)
  have v₃ := ((planFor_keeps _ _ _).of_ok h₃).trans v₂
  have hresource : resource = w.stored.resource := by
    rw [getResource_eq_ok h₂]
    exact congrArg (fun v => v.1.resource) (getResource_keeps.of_ok h₁)
  subst hresource
  have hplan : applyZoneAwareConflictPolicy w.stored.resource planned = w.planned := by
    rw [planFor_eq_ok h₃, show w₂.cluster = w.cluster from congrArg (fun v => v.2.1) v₂]
    rfl
  rw [hplan] at h₄ h₅
  refine ⟨w₃, decision, w₄, remaining, u, rfl, ?_, congrArg (fun v => v.2.1) v₃, h₄, h₅,
    (commitStatus_stops _).of_ok hcommit,
    congrArg (fun v => v.1) ((commitStatus_keeps _).of_ok hcommit)⟩
  exact ((getResource_stops.of_ok h₁).trans (getResource_stops.of_ok h₂)).trans
    ((planFor_stops _ _ _).of_ok h₃)

/-- An attempt that was not told to apply leaves the templates. -/
theorem Ready.skipped (h : Ready w) (hv : v.cluster = w.cluster) :
    Rendered w.stored.resource w.planned (secretDigest w.stored.resource w.cluster)
        v.cluster.deployments ∧
      TemplatesKept w.cluster.deployments v.cluster.deployments := by
  rw [hv]
  exact ⟨h.rendered, .refl _⟩

/-- **A returning attempt** keeps the templates, or it applied and its read of the Secret failed. -/
theorem reconcile_templates (h : Ready w) {now : Int} {faults : List (Option Fault)}
    {p : Prepared} (hrun : reconcile .scheduled now (w.meet faults) = .ok p w₁) :
    ∃ v decision v', OnlyMet LostRace (w.meet faults) v ∧ v.cluster = w.cluster ∧
      shouldApplyPlan w.stored.resource (scheduledEvaluation w.stored.resource) w.planned
        w.stored.resource.status.missingInstances now v = .ok decision v' ∧
      (Transient v'.faults →
        Rendered w.stored.resource w.planned (secretDigest w.stored.resource w.cluster)
            w₁.cluster.deployments ∧
          TemplatesKept w.cluster.deployments w₁.cluster.deployments ∧
          failures v'.faults = failures w₁.faults ∨
        decision.1 = true ∧ w.stored.resource.spec.pgbouncer.authFileSecretRef ≠ "" ∧
          Unread w w₁ ∧ failures v'.faults = failures w₁.faults + 1) := by
  obtain ⟨v, decision, v', remaining, v₂, -, hmet, hv, hdecide, happly, hlast, hcluster⟩ :=
    reconcile_stages hrun
  refine ⟨v, decision, v', hmet, hv, hdecide, fun ht => ?_⟩
  have hv' : v'.cluster = w.cluster :=
    (congrArg (fun v => v.2.1) ((shouldApplyPlan_keeps _ _ _ _ _).of_ok hdecide)).trans hv
  rw [hcluster]
  unfold applyIf at happly
  split at happly
  · rename_i hyes
    obtain ⟨ht₂, hcases⟩ := applyPlan_cases h hv' ht happly
    have hend := (hlast.none_failed ht₂).2
    refine hcases.imp (fun hkept => ?_) fun hunread => ?_
    · exact ⟨hkept.1, hkept.2.1, hkept.2.2.trans hend.symm⟩
    · obtain ⟨hname, ⟨entry, hentry, hauth⟩, hcount⟩ := hunread
      refine ⟨hyes, hname, ⟨entry, hentry, ?_⟩, by rw [hcount, hend]⟩
      rw [objectAt, hcluster]
      exact hauth
  · cases happly
    obtain ⟨hrendered, hkept⟩ := h.skipped hv'
    exact Or.inl ⟨hrendered, hkept, (hlast.none_failed ht).2.symm⟩

/-- Without failures, the templates are kept. -/
theorem Ready.undisturbed (h : Ready w) (now : Int) :
    TemplatesKept w.cluster.deployments (w.next (.reconcile now [])).cluster.deployments := by
  obtain ⟨p, w₁, hrun, hend⟩ := reconcile_succeeds now (w.meet []) rfl
  rw [show w.next (.reconcile now []) = w₁ from final_of_ok hrun]
  obtain ⟨v, decision, v', ⟨met, hmet, -⟩, -, hdecide, hcases⟩ := reconcile_templates h hrun
  -- nothing was left to fail, neither before the decision nor after it
  have hv : v.faults = [] := (List.append_eq_nil_iff.mp hmet.symm).2
  obtain ⟨_, _, hdecide', hv'⟩ := shouldApplyPlan_succeeds w.stored.resource
    (scheduledEvaluation w.stored.resource) w.planned w.stored.resource.status.missingInstances now
    v hv
  rw [hdecide] at hdecide'
  cases hdecide'
  rcases hcases (by rw [hv']; nofun) with ⟨-, hkept, -⟩ | ⟨-, -, -, hcount⟩
  · exact hkept
  · rw [hv'] at hcount
    simp [failures] at hcount

end Attempts

/-! ## 6. The attempt after that -/

section Again

variable {w w₁ : World}

theorem frame_secrets : Frame fun w w' : World => w'.cluster.secrets = w.cluster.secrets :=
  frame_view (fun v => v.2.1.secrets) fun _ => rfl

theorem createObject_secrets (kind : Kind) (object : kind.Object) :
    Keeps (fun w : World => w.cluster.secrets) (createObject kind object) :=
  Keeps.call (fun _ _ => rfl) fun w => by
    dsimp only [final]
    cases (objects kind w.cluster)[(kind.metadata object).name]? <;> simp [putObject]

theorem updateObject_secrets (kind : Kind) (name : String) (object : kind.Object) :
    Keeps (fun w : World => w.cluster.secrets) (updateObject kind name object) :=
  Keeps.call (fun _ _ => rfl) fun w => by
    dsimp only [final]
    cases (objects kind w.cluster)[name]? <;> simp [putObject]

theorem deleteObject_secrets (kind : Kind) (name : String) :
    Keeps (fun w : World => w.cluster.secrets) (deleteObject kind name) :=
  Keeps.call (fun _ _ => rfl) fun w => by
    dsimp only [final]
    cases (objects kind w.cluster)[name]? <;> simp

theorem patchPod_secrets (name : String) (labels : StringMap String) :
    Keeps (fun w : World => w.cluster.secrets) (patchPod name labels) :=
  Keeps.call (fun _ _ => rfl) fun w => by
    dsimp only [final]
    cases w.cluster.pods[name]? <;> rfl

/-- The operator does not write Secrets. -/
theorem applyPlan_secrets (resource : PgBouncerAurora) (discovery : DiscoveryResult)
    (plan : Output) (missing : List MissingInstanceStatus) (now : Int) :
    Keeps (fun w : World => w.cluster.secrets) (applyPlan resource discovery plan missing now) := by
  have hR := frame_secrets
  have happly : ∀ kind (object : kind.Object) hollow, Keeps (fun w : World => w.cluster.secrets)
      (applyObject kind object hollow) := fun kind object hollow =>
    applyObject_within hR (createObject_secrets _ _) (updateObject_secrets _ _)
  refine Keeps.bind (Keeps.bind (hR.read (planDigest_keeps _ _)) fun digest => ?_) fun _ => ?_
  · exact applyWith_within hR
      (fun entry _ => applyInstance_within hR createObject_secrets updateObject_secrets _ _ entry)
      (fun _ => happly _ _ _) (fun _ => deleteObject_secrets _ _) fun _ _ _ => deleteObject_secrets _ _
  · exact finishApply_within hR (fun _ _ _ _ => deleteObject_secrets _ _) patchPod_secrets
      fun _ _ _ => restartDeployment_within hR updateObject_secrets _ _

theorem reconcile_secrets {now : Int} {p : Prepared} (h : reconcile .scheduled now w = .ok p w₁) :
    w₁.cluster.secrets = w.cluster.secrets := by
  obtain ⟨u, hprepare, hcluster, -⟩ := reconcile_eq_ok h
  have hkept := prepare_final frame_secrets now (w := w) fun _ v hv =>
    applyPlan_secrets _ _ _ _ _ v
  rw [final_of_ok hprepare] at hkept
  rw [hcluster]
  exact hkept

theorem membershipChanged_self (names : List String) : membershipChanged names names = false := by
  simp [membershipChanged]

/-- Once the membership is committed, its writer is no change any more. -/
theorem committed_not_changed {now : Int} {p : Prepared}
    (h : reconcile .scheduled now w = .ok p w₁) (hplan : w.planned.frozen = false) :
    membershipChanged w₁.stored.resource.status.lastAppliedMembership.writer
      w.planned.membership.writer = false := by
  obtain ⟨u, hprepare, -, hstored⟩ := reconcile_eq_ok h
  have hp := prepare_eq_ok hprepare
  have hf : p.plan.frozen = false := by
    rw [hp.plan]
    exact hplan
  rw [hstored, StoredResource.updateStatus_status, Status.marshal_lastAppliedMembership,
    Prepared.status, reconcileCommit_membership _ _ _ _ _ _ hf, hp.plan]
  split
  · exact membershipChanged_self _
  · rename_i hsame
    simp only [Bool.or_eq_true, not_or, Bool.not_eq_true] at hsame
    exact hsame.1

/-- The next attempt finds the same namespace, if it plans the same. -/
theorem AsApplied.ready_again (h : AsApplied w) {now : Int} {faults : List (Option Fault)}
    {p : Prepared} (hrun : reconcile .scheduled now (w.meet faults) = .ok p w₁)
    (hrendered : Rendered w.stored.resource w.planned (secretDigest w.stored.resource w.cluster)
      w₁.cluster.deployments) (hplan : w₁.planned = w.planned) : Ready w₁ := by
  obtain ⟨u, hprepare, -, hstored⟩ := reconcile_eq_ok hrun
  have hp := prepare_eq_ok hprepare
  have hname : w₁.stored.resource.name = w.stored.resource.name := by rw [hstored]; rfl
  have hdigest : secretDigest w₁.stored.resource w₁.cluster
      = secretDigest w.stored.resource w.cluster := by
    unfold secretDigest
    rw [reconcile_secrets hrun, hstored]
    rfl
  have hunfrozen : w₁.planned.frozen = false := by
    rw [hplan]
    exact h.unfrozen
  refine ⟨?_, ?_, fun now entry hentry m hm hgone hsame => ?_⟩
  · rw [hplan, hdigest]
    refine ⟨fun entry hentry => ?_, fun hrestarts => ?_⟩
    · obtain ⟨deployment, hat, hreapplies⟩ := hrendered.each entry hentry
      refine ⟨deployment, by rw [hname]; exact hat, ?_⟩
      rw [hstored]
      exact hreapplies
    · have hsame := committed_not_changed hrun h.unfrozen
      exact absurd (hsame.symm.trans hrestarts.2.1) (by decide)
  · rw [hplan, hname]
    have hnames : disabledNames w₁.stored.resource w.planned
        = disabledNames w.stored.resource w.planned := by
      unfold disabledNames
      rw [hname]
    rw [hnames]
    exact h.ready.disabled
  · -- the missing list has only become shorter
    have hin : m.instanceName ∈ w.stored.resource.status.missingInstances.map (·.instanceName) := by
      have hsub := hp.missing_sublist.map MissingInstanceStatus.instanceName
      have hm' := List.mem_map_of_mem (f := MissingInstanceStatus.instanceName) hm
      rw [hstored, hp.stored_missing] at hm'
      exact hsub.mem hm'
    obtain ⟨m', hm', heq⟩ := List.mem_map.mp hin
    rw [hname, ← heq] at hsame
    rw [hplan] at hentry
    have hsameName := h.apart m' hm' entry hentry hsame
    rw [heq] at hsameName
    rw [not_removed hunfrozen (hplan ▸ hentry) hsameName now] at hgone
    cases hgone

end Again

/-! ## 7. When the templates survive -/

/-- Every Deployment that is still there has the template it had. -/
def SameTemplates (w w' : World) : Prop :=
  ∀ (name : String) (before after : Deployment), w.cluster.deployments[name]? = some before →
    w'.cluster.deployments[name]? = some after → after.template = before.template

theorem TemplatesKept.same {w w' : World}
    (h : TemplatesKept w.cluster.deployments w'.cluster.deployments) : SameTemplates w w' := by
  intro name before after hbefore hafter
  obtain ⟨old, hold, htemplate⟩ := h.template hafter
  rw [hbefore] at hold
  cases hold
  exact htemplate

/-- The annotation of a Secret that was read is not that of one that was not. -/
theorem AsApplied.not_same_of_unread {w w₁ : World} (h : AsApplied w)
    (hname : w.stored.resource.spec.pgbouncer.authFileSecretRef ≠ "") (hunread : Unread w w₁) :
    ¬ SameTemplates w w₁ := by
  intro hsame
  obtain ⟨entry, hentry, hauth⟩ := hunread
  obtain ⟨existing, hplaced⟩ := placed_deployment h.settled.placed hentry
  obtain ⟨after, hafter, hafterAuth⟩ := Option.map_eq_some_iff.mp hauth
  have hbefore := @authFileOf_applied w.stored.resource existing
    (instanceDeployment w.stored.resource entry (secretDigest w.stored.resource w.cluster))
  rw [authFileOf_instanceDeployment] at hbefore
  unfold authFileOf at hbefore hafterAuth
  rw [← hsame _ _ _ hplaced hafter, hafterAuth] at hbefore
  obtain ⟨digest, hdigest⟩ := Option.ne_none_iff_exists'.mp (h.readable hname)
  rw [hdigest] at hbefore
  cases hbefore

/-- **When the templates survive failing reads.**  A namespace is as the last apply left it, and a
Reconcile returns although some calls failed.  It and the undisturbed one after it leave every pod
template as it was exactly when no call failed, or a single one did and it was the detector's. -/
theorem templates_survive_iff (w : World) (h : AsApplied w) (now : Int)
    (faults : List (Option Fault)) (ht : Transient faults) (p : Prepared) (w₁ : World)
    (hrun : reconcile .scheduled now (w.meet faults) = .ok p w₁) (hmet : w₁.faults = []) :
    (SameTemplates w w₁ ∧ ∀ later, w₁.planned = w.planned →
      SameTemplates w (w₁.next (.reconcile later []))) ↔
      failures faults = 0 ∨ failures faults = 1 ∧ ¬ AppliesAtOnce w now := by
  obtain ⟨v, decision, v', hreads, hv, hdecide, hcases⟩ := reconcile_templates h.ready hrun
  obtain ⟨htv, hbefore⟩ := hreads.none_failed (w := w.meet faults) ht
  obtain ⟨ht', hdecision⟩ := shouldApplyPlan_cases h hv htv hdecide
  have hnone : failures w₁.faults = 0 := by rw [hmet]; rfl
  change failures v.faults = failures faults at hbefore
  rcases hcases ht' with ⟨hrendered, hkept, hcount⟩ | ⟨hyes, hname, hunread, hcount⟩
  · have hsame : SameTemplates w w₁ ∧ ∀ later, w₁.planned = w.planned →
        SameTemplates w (w₁.next (.reconcile later [])) :=
      ⟨hkept.same, fun later hplan =>
        (hkept.trans ((h.ready_again hrun hrendered hplan).undisturbed later)).same⟩
    refine iff_of_true hsame ?_
    rcases hdecision with ⟨-, -, hread⟩ | ⟨hnot, ⟨-, hread⟩ | hread⟩
    · left
      omega
    · left
      omega
    · exact Or.inr ⟨by omega, hnot⟩
  · refine iff_of_false (fun hsame => h.not_same_of_unread hname hunread hsame.1) ?_
    rcases hdecision with ⟨hatOnce, -, hread⟩ | ⟨-, ⟨hno, -⟩ | hread⟩
    · rintro (hzero | ⟨-, hnot⟩)
      · omega
      · exact hnot hatOnce
    · rw [hyes] at hno
      cases hno
    · omega

/-! ## 8. After a first apply -/

/-- The rest of a first apply, with nothing missing and no writer to restart, changes no object. -/
theorem finishApply_first {resource : PgBouncerAurora} {discovery : DiscoveryResult} {plan : Output}
    {now : Int} {remaining : List MissingInstanceStatus} {w w' : World}
    (hwriter : resource.status.lastAppliedMembership.writer = [])
    (h : finishApply resource discovery plan [] now w = .ok remaining w') :
    w'.objectSide = w.objectSide := by
  obtain ⟨_, w₁, h₁, h⟩ := bind_eq_ok.mp h
  obtain ⟨_, w₂, h₂, h⟩ := bind_eq_ok.mp h
  obtain ⟨_, w₃, h₃, h⟩ := bind_eq_ok.mp h
  cases h
  have hsame₁ : w₁ = w := by
    unfold cleanupRemovedInstanceResources at h₁
    split at h₁ <;> cases h₁ <;> rfl
  have hsame₃ : w' = w₂ := by
    unfold handleWriterChangeConnection at h₃
    rw [hwriter] at h₃
    dsimp only at h₃
    split at h₃ <;> cases h₃ <;> rfl
  rw [hsame₃, ← hsame₁]
  exact (patchPodMembership_keeps resource plan).of_ok h₂

/-- A digest read without failures is the one of the Secret in the cluster, wherever a rendered
object depends on it. -/
theorem mem_desiredObjects_of_read {resource : PgBouncerAurora} {plan : Output}
    {digest : Option (Digest AuthFileMetadata)} {v v' : World} {d : DesiredObject}
    (hv : v.faults = []) (hdigest : planDigest resource plan v = .ok digest v')
    (hd : d ∈ desiredObjects resource (secretDigest resource v.cluster) plan) :
    d ∈ desiredObjects resource digest plan := by
  rcases mem_desiredObjects.mp hd with ⟨entry, hentry, hd⟩ | hd
  · have hread : digest = secretDigest resource v.cluster := by
      unfold planDigest at hdigest
      rw [if_pos (List.length_pos_of_mem hentry), authFileHash_of_no_faults _ hv] at hdigest
      cases hdigest
      rfl
    rw [hread]
    exact mem_desiredObjects.mpr (Or.inl ⟨entry, hentry, hd⟩)
  · exact mem_desiredObjects.mpr (Or.inr hd)

/-- The apply of an undisturbed Reconcile starts in the same cluster, with no failure to come. -/
theorem reconcile_undisturbed_applies {w w₁ : World} {now : Int} {p : Prepared}
    (hw : w.faults = []) (hrun : reconcile .scheduled now w = .ok p w₁)
    (happlied : p.applied = true) :
    ∃ v v₁ remaining v₂, v.faults = [] ∧ v.cluster = w.cluster ∧
      applyDesired w.stored.resource w.planned v = .ok () v₁ ∧
      finishApply w.stored.resource (scheduledEvaluation w.stored.resource).discovery w.planned
        w.stored.resource.status.missingInstances now v₁ = .ok remaining v₂ ∧
      w₁.cluster = v₂.cluster := by
  obtain ⟨v, decision, v₁, remaining, v₂, hdecision, ⟨met, hmet, -⟩, hv, hdecide, happly, -, hcluster⟩ :=
    reconcile_stages hrun
  have hvf : v.faults = [] := by
    rw [hw] at hmet
    exact (List.append_eq_nil_iff.mp hmet.symm).2
  obtain ⟨_, _, hdecide', hv₁f⟩ := shouldApplyPlan_succeeds w.stored.resource
    (scheduledEvaluation w.stored.resource) w.planned w.stored.resource.status.missingInstances now
    v hvf
  rw [hdecide] at hdecide'
  cases hdecide'
  have hv₁ : v₁.cluster = w.cluster :=
    (congrArg (fun v => v.2.1) ((shouldApplyPlan_keeps _ _ _ _ _).of_ok hdecide)).trans hv
  rw [← hdecision, happlied] at happly
  obtain ⟨_, v₃, hdesired, hfinish⟩ := bind_eq_ok.mp happly
  exact ⟨v₁, v₃, remaining, v₂, hv₁f, hv₁, hdesired, hfinish, hcluster⟩

/-- **A first apply leaves the namespace so.** -/
theorem asApplied_of_first {w w₁ : World} {now : Int} {p : Prepared} (hw : w.faults = [])
    (hrun : reconcile .scheduled now w = .ok p w₁) (happlied : p.applied = true)
    (hmissing : w.stored.resource.status.missingInstances = [])
    (hwriter : w.stored.resource.status.lastAppliedMembership.writer = [])
    (hplan : w₁.planned = w.planned)
    (hnames : (expectedNames .service w.stored.resource w.planned).Nodup)
    (hdisabled : ∀ name ∈ expectedNames .service w.stored.resource w.planned,
      name ∉ disabledNames w.stored.resource w.planned)
    (hreadable : secretDigest w.stored.resource w.cluster ≠ none) : AsApplied w₁ := by
  obtain ⟨v, v₁, remaining, v₂, hvf, hv, hdesired, hfinish, hcluster⟩ :=
    reconcile_undisturbed_applies hw hrun happlied
  obtain ⟨u, hprepare, hcluster', hstored⟩ := reconcile_eq_ok hrun
  have hp := prepare_eq_ok hprepare
  have hunfrozen : w.planned.frozen = false := by
    have hf := (hp.applied happlied).1
    rw [hp.plan] at hf
    exact hf
  obtain ⟨digest, v₀, hdigest, hplaced, hfresh, -⟩ :=
    applyDesired_placed hdesired hnames hdisabled
  rw [hmissing] at hfinish
  have hside := finishApply_first hwriter hfinish
  have hat : ∀ kind name, objectAt kind name w₁ = objectAt kind name v₁ := by
    intro kind name
    rw [objectAt, hcluster]
    exact congrArg (fun side => (side.2 kind)[name]?) hside
  have hdigest₁ : secretDigest w₁.stored.resource w₁.cluster
      = secretDigest w.stored.resource w.cluster := by
    unfold secretDigest
    rw [reconcile_secrets hrun, hstored]
    rfl
  have hstatus : w₁.stored.resource.status.missingInstances = [] := by
    have hsub := hp.missing_sublist
    rw [hmissing] at hsub
    rw [hstored, hp.stored_missing, List.sublist_nil.mp hsub]
  refine
    { unfrozen := by rw [hplan]; exact hunfrozen
      settled := ?_
      labels := ?_
      cleared := ?_
      restarted := ?_
      readable := fun _ => by rw [hdigest₁]; exact hreadable
      apart := ?_ }
  · rw [hplan, hdigest₁]
    refine ⟨fun d hd => ?_, fun name hstale => ?_⟩
    · rw [hstored] at hd ⊢
      rw [← hv] at hd
      obtain ⟨existing, hplaced⟩ := hplaced d (mem_desiredObjects_of_read hvf hdigest hd)
      exact ⟨existing, (hat _ _).trans hplaced⟩
    · obtain ⟨service, hthere, hstale⟩ := hstale
      rw [hstored] at hstale
      exact hfresh name ⟨service, (hat _ _).symm.trans hthere, hstale⟩
  · have hlabels := hp.labels (by rw [hp.plan]; exact hunfrozen)
    rw [hp.plan] at hlabels
    rw [hplan, hcluster', hstored]
    exact hlabels
  · intro kind name hname
    rw [hplan, hstored] at hname
    rw [hat]
    exact applyDesired_cleared hdesired kind hname
  · intro hrestarts
    have hnot := committed_not_changed hrun hunfrozen
    rw [hplan] at hrestarts
    exact absurd (hnot.symm.trans hrestarts.2.1) (by decide)
  · rw [hstatus]
    exact fun _ hm => absurd hm List.not_mem_nil

/-- A resource with a Secret, before its first apply. -/
def credentialed : World :=
  Machine.run World.next
    (World.initial "db" { discovery := { domainName := "rds" }, monitor := { recoveryThreshold := 1 },
                          pgbouncer := { authFileSecretRef := "users" } }
      { secrets := (∅ : StringMap Secret).insert "users" { uid := "1", resourceVersion := "7" } })
    [discoverWriter "a" (10 * second), monitorHealthy "a" (20 * second)]

def credentialedApplied : World := credentialed.next (.reconcile (30 * second) [])

theorem credentialed_asApplied : AsApplied credentialedApplied := by
  have hcheck : (returns (fun p w₁ => p.applied && w₁.planned == credentialed.planned)
      (reconcile .scheduled (30 * second)) (credentialed.meet []) &&
        credentialed.stored.resource.status.missingInstances.isEmpty &&
        credentialed.stored.resource.status.lastAppliedMembership.writer.isEmpty &&
        (secretDigest credentialed.stored.resource credentialed.cluster).isSome &&
        decide ((expectedNames .service credentialed.stored.resource credentialed.planned).Nodup ∧
          ∀ name ∈ expectedNames .service credentialed.stored.resource credentialed.planned,
            name ∉ disabledNames credentialed.stored.resource credentialed.planned)) = true := by
    decide +kernel
  simp only [Bool.and_eq_true, returns_iff, beq_iff_eq, List.isEmpty_iff, decide_eq_true_eq] at hcheck
  obtain ⟨⟨⟨⟨⟨p, w₁, hrun, happlied, hplan⟩, hmissing⟩, hwriter⟩, hsecret⟩, hnames, hdisabled⟩ := hcheck
  rw [credentialedApplied, show credentialed.next (.reconcile (30 * second) []) = w₁ from
    final_of_ok hrun]
  refine asApplied_of_first rfl hrun happlied hmissing hwriter hplan hnames hdisabled fun hnone => ?_
  have hnone' : secretDigest credentialed.stored.resource credentialed.cluster = none := hnone
  rw [hnone'] at hsecret
  cases hsecret

theorem other_ne_notFound (message : String) : ApiError.other message ≠ .notFound := by simp

/-- The detector's read fails, and the next `more` calls as well. -/
def unreadable (more : Nat) : List (Option Fault) :=
  List.replicate 4 none ++ List.replicate (more + 1) (some ⟨.other "timeout", other_ne_notFound _⟩)

theorem unreadable_transient (more : Nat) : Transient (unreadable more) := by
  intro fault hin
  rcases List.mem_append.mp hin with hin | hin
  · cases List.eq_of_mem_replicate hin
  · cases List.eq_of_mem_replicate hin
    exact ⟨_, rfl⟩

/-- One failing read rolls nothing. -/
theorem templates_survive_one_failure :
    ∃ p w₁, reconcile .scheduled (40 * second) (credentialedApplied.meet (unreadable 0)) = .ok p w₁ ∧
      SameTemplates credentialedApplied w₁ ∧ ∀ later, w₁.planned = credentialedApplied.planned →
        SameTemplates credentialedApplied (w₁.next (.reconcile later [])) := by
  have hcheck : (returns (fun _ w₁ => w₁.faults.isEmpty) (reconcile .scheduled (40 * second))
      (credentialedApplied.meet (unreadable 0)) &&
        !decide (AppliesAtOnce credentialedApplied (40 * second))) = true := by decide +kernel
  simp only [Bool.and_eq_true, returns_iff, Bool.not_eq_true', decide_eq_false_iff_not] at hcheck
  obtain ⟨⟨p, w₁, hrun, hmet⟩, hnot⟩ := hcheck
  exact ⟨p, w₁, hrun, (templates_survive_iff _ credentialed_asApplied _ _ (unreadable_transient 0) p
    w₁ hrun (List.isEmpty_iff.mp hmet)).mpr (Or.inr ⟨by decide, hnot⟩)⟩

/-- **A Secret that cannot be read twice in a row rolls the pods.** -/
theorem unreadable_secret_rolls :
    AsApplied credentialedApplied ∧ Transient (unreadable 1) ∧
      ∃ p w₁, reconcile .scheduled (40 * second) (credentialedApplied.meet (unreadable 1))
          = .ok p w₁ ∧ ¬ SameTemplates credentialedApplied w₁ := by
  have hcheck : returns (fun _ w₁ =>
      (credentialedApplied.cluster.deployments["db-a"]?).any fun before =>
        (w₁.cluster.deployments["db-a"]?).any fun after => authFileOf after != authFileOf before)
      (reconcile .scheduled (40 * second)) (credentialedApplied.meet (unreadable 1)) = true := by
    decide +kernel
  obtain ⟨p, w₁, hrun, hdiffers⟩ := returns_iff.mp hcheck
  refine ⟨credentialed_asApplied, unreadable_transient 1, p, w₁, hrun, fun hsame => ?_⟩
  simp only [Option.any_eq_true, bne_iff_ne, ne_eq] at hdiffers
  obtain ⟨before, hbefore, after, hafter, hne⟩ := hdiffers
  unfold authFileOf at hne
  rw [hsame _ _ _ hbefore hafter] at hne
  exact hne rfl

end Controller

end AuroraOperator

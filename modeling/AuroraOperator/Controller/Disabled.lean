/-
# What is left of a disabled instance

An override may disable an instance; its ConfigMap, Deployment and Service are then deleted.  That
happens in an apply, and an apply comes about when the spec has changed or something that ought to
be there is not.  Objects that ought not to be there are no reason.  So the clean-up hangs on the
one apply after the edit, and there are ways around it:

* a Reconcile whose plan is frozen takes note of the new generation without applying anything;
* the edit is applied while the instance is gone, and the instance comes back;
* an object of another instance, or a role Service, has the same name and the apply stops half way.

`disabled_cleared_of_orderly`: in every run without these, an unfrozen Reconcile that succeeds leaves
no object of a disabled instance.
-/
import AuroraOperator.Controller.Agreement
import AuroraOperator.Controller.SecretReads

namespace AuroraOperator

namespace Controller

open Planner Render Program

/-! ## 1. No object appears -/

/-- What did not exist under the name does not exist afterwards. -/
def StaysBare (name : String) (w w' : World) : Prop :=
  ∀ kind, objectAt kind name w = none → objectAt kind name w' = none

section Calls

variable {name : String}

theorem frame_staysBare (name : String) : Frame (StaysBare name) where
  refl _ _ h := h
  trans h₁ h₂ kind h := h₂ kind (h₁ kind h)
  reads hv kind h := by
    have hcluster := congrArg (fun v => v.2.1) hv
    rw [objectAt]
    exact (congrArg (fun cluster => (objects kind cluster)[name]?) hcluster).trans h

theorem staysBare_of_keeps {α : Type} {m : Api α} (h : ∀ kind, Keeps (objectAt kind name) m) :
    Within (StaysBare name) m := by
  intro w kind hnone
  exact (h kind w).trans hnone

theorem createObject_bare {kind : Kind} {object : kind.Object}
    (h : (kind.metadata object).name ≠ name) : Within (StaysBare name) (createObject kind object) :=
  staysBare_of_keeps fun _ => createObject_keeps_other h.symm

/-- An update needs something to update. -/
theorem updateObject_bare (kind : Kind) (other : String) (object : kind.Object) :
    Within (StaysBare name) (updateObject kind other object) := by
  intro w k hnone
  cases hrun : updateObject kind other object w with
  | ok _ w' =>
    rw [final_of_ok hrun]
    refine ((updateObject_eq_ok hrun).2.others k name fun hk heq => ?_).trans hnone
    subst hk heq
    obtain ⟨faults, hcall⟩ := call_eq_ok hrun
    dsimp only at hcall
    rw [objectAt] at hnone
    simp [hnone] at hcall
  | error e w' =>
    rw [final_of_error hrun]
    refine Eq.trans ?_ hnone
    exact congrArg (fun v => (objects k v.2.1)[name]?) (updateObject_clean kind other object hrun)

theorem deleteObject_bare (kind : Kind) (other : String) :
    Within (StaysBare name) (deleteObject kind other) := by
  intro w k hnone
  by_cases hsame : k = kind ∧ name = other
  · obtain ⟨rfl, rfl⟩ := hsame
    cases hrun : deleteObject k name w with
    | ok _ w' =>
      rw [final_of_ok hrun]
      exact (deleteObject_eq_ok hrun).1
    | error e w' =>
      rw [final_of_error hrun]
      refine Eq.trans ?_ hnone
      exact congrArg (fun v => (objects k v.2.1)[name]?) (deleteObject_clean k name hrun)
  · have hother : k = kind → name ≠ other := fun hk heq => hsame ⟨hk, heq⟩
    exact (deleteObject_keeps_other hother w).trans hnone

theorem patchPod_bare (pod : String) (labels : StringMap String) :
    Within (StaysBare name) (patchPod pod labels) :=
  staysBare_of_keeps fun kind w =>
    congrArg (fun side => (side.2 kind)[name]?) (patchPod_keeps pod labels w)

theorem applyObject_bare {kind : Kind} {desired : kind.Object} {hollow : List Part}
    (h : (kind.metadata desired).name ≠ name) (owner : PgBouncerAurora) :
    Within (StaysBare name) (applyObject kind (setOwner kind owner desired) hollow) := by
  refine applyObject_within (frame_staysBare name) (createObject_bare ?_) (updateObject_bare _ _)
  rw [metadata_setOwner]
  exact h

end Calls

/-! ## 2. An attempt -/

section Attempt

variable {resource : PgBouncerAurora} {plan : Output} {name : String}

/-- Once the objects are applied, none is created any more. -/
theorem finishApply_bare (name : String) (discovery : DiscoveryResult)
    (missing : List MissingInstanceStatus) (now : Int) :
    Within (StaysBare name) (finishApply resource discovery plan missing now) :=
  finishApply_within (frame_staysBare name) (fun kind _ _ _ => deleteObject_bare kind _) patchPod_bare
    fun _ _ _ => restartDeployment_within (frame_staysBare name) updateObject_bare _ _

/-- No active instance and no role has its objects under the name. -/
structure Unclaimed (resource : PgBouncerAurora) (plan : Output) (name : String) : Prop where
  instances : ∀ entry ∈ activePlanInstances plan.instances,
    instanceResourceName resource.name entry.name ≠ name
  roles : ∀ role, serviceNameForRole resource role ≠ name

theorem applyPlan_bare (h : Unclaimed resource plan name) (discovery : DiscoveryResult)
    (missing : List MissingInstanceStatus) (now : Int) :
    Within (StaysBare name) (applyPlan resource discovery plan missing now) := by
  have hR := frame_staysBare name
  refine Within.bind hR.toSteps (Within.bind hR.toSteps (hR.read (planDigest_keeps _ _))
    fun digest => ?_) fun _ => finishApply_bare name discovery missing now
  refine applyWith_within hR (fun entry hentry => ?_) (fun role => ?_)
    (fun _ => deleteObject_bare _ _) fun _ _ _ => deleteObject_bare _ _
  · have hname := h.instances entry hentry
    refine Within.bind hR.toSteps (applyObject_bare ?_ _) fun _ =>
      Within.bind hR.toSteps (applyObject_bare ?_ _) fun _ => applyObject_bare ?_ _
    · simpa only [Kind.metadata, configMap] using hname
    · simpa only [Kind.metadata, instanceDeployment] using hname
    · simpa only [Kind.metadata, instanceService] using hname
  · refine applyObject_bare ?_ _
    simpa only [Kind.metadata, roleService] using h.roles role

/-- **An attempt creates nothing under an unclaimed name**, not even one that fails. -/
theorem reconcile_bare (w : World) (now : Int)
    (h : (finalPlan w.stored.resource w.cluster).frozen = false →
      Unclaimed w.stored.resource (finalPlan w.stored.resource w.cluster) name) :
    StaysBare name w (final (reconcile .scheduled now) w) := by
  have hR := frame_staysBare name
  refine hR.bind (prepare_final hR now fun hfrozen v _ => applyPlan_bare (h hfrozen) _ _ _ v)
    fun prepared v _ => ?_
  refine hR.bind (commitStatus_within hR (fun status => ?_) _ v) fun _ _ _ => hR.refl _
  exact staysBare_of_keeps fun kind u =>
    congrArg (fun side : Cluster × List Write => (objects kind side.1)[name]?)
      (updateResourceStatus_keeps status u)

/-- An attempt that applies its plan leaves nothing of the plan's disabled instances. -/
theorem reconcile_applied_bare {w w' : World} {now : Int} {p : Prepared}
    (h : reconcile .scheduled now w = .ok p w') (happlied : p.applied = true)
    (hname : name ∈ disabledNames w.stored.resource (finalPlan w.stored.resource w.cluster))
    (kind : Kind) : objectAt kind name w' = none := by
  obtain ⟨v, decision, v₁, remaining, v₂, hdecision, -, -, -, happly, -, hcluster⟩ :=
    reconcile_stages h
  rw [← hdecision, happlied] at happly
  obtain ⟨_, v₃, hdesired, hfinish⟩ := bind_eq_ok.mp happly
  have hcleared := applyDesired_cleared hdesired kind hname
  have hkept := (finishApply_bare name _ _ _).of_ok hfinish kind hcleared
  rw [objectAt, hcluster]
  exact hkept

end Attempt

/-! ## 3. Runs -/

/-- The instance is in the last known topology, and the spec disables it. -/
def DisabledIn (resource : PgBouncerAurora) (x : String) : Prop :=
  x ∈ resource.status.lastKnownTopology.map (·.instanceName) ∧
    instanceDisabled resource.spec.pgbouncer x = true

/-- No object has the name of the instance. -/
def Bare (resource : PgBouncerAurora) (cluster : Cluster) (x : String) : Prop :=
  ∀ kind, (objects kind cluster)[instanceResourceName resource.name x]? = none

def AllBare (resource : PgBouncerAurora) (cluster : Cluster) : Prop :=
  ∀ x, DisabledIn resource x → Bare resource cluster x

/-- A spec that no Reconcile has observed yet. -/
def EditPending (resource : PgBouncerAurora) : Prop :=
  resource.generation ≠ resource.status.observedGeneration

/-- No enabled instance and no role shares the name of a disabled instance. -/
def NamesApart (resource : PgBouncerAurora) : Prop :=
  ∀ x ∈ resource.status.lastKnownTopology.map (·.instanceName),
    instanceDisabled resource.spec.pgbouncer x = true →
      (∀ y ∈ resource.status.lastKnownTopology.map (·.instanceName),
        instanceDisabled resource.spec.pgbouncer y = false →
          instanceResourceName resource.name y ≠ instanceResourceName resource.name x) ∧
      ∀ role ∈ [Role.writer, .reader],
        serviceNameForRole resource role ≠ instanceResourceName resource.name x

instance (resource : PgBouncerAurora) : Decidable (NamesApart resource) :=
  inferInstanceAs (Decidable (∀ _ ∈ _, _ → _))

/-- What is asked of a step, in the state before it. -/
def Orderly (w : World) : Step → Prop
  | .discover discover _ _ _ =>
    -- no disabled instance comes back to objects of its own
    ∀ d, discover w.stored.resource = .ok d → d.trusted = true → ∀ o ∈ d.instances,
      instanceDisabled w.stored.resource.spec.pgbouncer o.name = true →
        DisabledIn w.stored.resource o.name ∨ Bare w.stored.resource w.cluster o.name
  | .reconcile _ _ =>
    -- no edit that leaves something to clean up is observed by a frozen attempt
    NamesApart w.stored.resource ∧
      (EditPending w.stored.resource → w.stored.resource.status.lastAppliedTime ≠ none →
        (cachedDiscovery w.stored.resource).trusted = true ∧
            failsOnZones w.stored.resource = false ∨
          AllBare w.stored.resource w.cluster)
  | .environment cluster =>
    ∀ x, DisabledIn w.stored.resource x → Bare w.stored.resource w.cluster x →
      Bare w.stored.resource cluster x
  | .monitor .. | .editSpec _ => True

/-- A Reconcile that succeeds with an unfrozen plan leaves no object of a discovered instance that
the spec disables. -/
def DisabledCleared (w : World) (step : Step) : Prop :=
  ∀ now faults p w', step = .reconcile now faults →
    reconcile .scheduled now (w.meet faults) = .ok p w' → p.plan.frozen = false →
    ∀ o ∈ p.evaluation.discovery.instances,
      instanceDisabled p.resource.spec.pgbouncer o.name = true →
      ∀ kind, objectAt kind (instanceResourceName p.resource.name o.name) w' = none

/-- The clean-up has been done, or the next apply is certain. -/
structure Tidy (w : World) : Prop where
  observed : w.stored.resource.status.observedGeneration ≤ w.stored.resource.generation
  bare : EditPending w.stored.resource ∨ w.stored.resource.status.lastAppliedTime = none ∨
    AllBare w.stored.resource w.cluster

section Tidy

variable {w w' : World}

theorem Tidy.of_unchanged (h : Tidy w) (hstored : w'.stored = w.stored)
    (hbare : AllBare w.stored.resource w.cluster → AllBare w.stored.resource w'.cluster) :
    Tidy w' where
  observed := by
    rw [hstored]
    exact h.observed
  bare := by
    rw [hstored]
    exact h.bare.imp_right (Or.imp_right hbare)

/-- A commit that is not a Reconcile's. -/
theorem Tidy.of_commit (h : Tidy w) (hcluster : w'.cluster = w.cluster) {status : Status}
    (hstored : w'.stored = w.stored.updateStatus status)
    (hobserved : status.observedGeneration = w.stored.resource.status.observedGeneration)
    (happlied : status.lastAppliedTime = w.stored.resource.status.lastAppliedTime)
    (hbare : ∀ x ∈ status.lastKnownTopology.map (·.instanceName),
      instanceDisabled w.stored.resource.spec.pgbouncer x = true →
        DisabledIn w.stored.resource x ∨ Bare w.stored.resource w.cluster x) : Tidy w' := by
  have happlied' : w'.stored.resource.status.lastAppliedTime
      = w.stored.resource.status.lastAppliedTime := by
    rw [hstored, StoredResource.updateStatus_status, Status.marshal_lastAppliedTime, happlied]
    exact congrArg Status.lastAppliedTime w.stored.canonical
  have hobserved' : w'.stored.resource.status.observedGeneration
      = w.stored.resource.status.observedGeneration := by
    rw [hstored]
    exact hobserved
  have hgeneration : w'.stored.resource.generation = w.stored.resource.generation := by
    rw [hstored]
    rfl
  refine ⟨by rw [hgeneration, hobserved']; exact h.observed, ?_⟩
  rw [EditPending, hgeneration, hobserved', happlied', hcluster]
  refine h.bare.imp_right (Or.imp_right fun hall => ?_)
  rw [hstored]
  rintro x ⟨hknown, hoff⟩
  exact (hbare x hknown hoff).elim (hall x) id

end Tidy

/-! ## 4. Discoveries -/

/-- A discovery job commits instances that it was told of, or knew before. -/
theorem discoveryWork_told {discover : Discover} {resource : PgBouncerAurora} {now : Int}
    {status : Status}
    (hcommit : (discoveryWork discover resource now).commit resource = some status) {x : String}
    (hx : x ∈ status.lastKnownTopology.map (·.instanceName)) :
    x ∈ resource.status.lastKnownTopology.map (·.instanceName) ∨
      ∃ d, discover resource = .ok d ∧ d.trusted = true ∧ ∃ o ∈ d.instances, o.name = x := by
  cases ht : (effectiveDiscovery discover resource).1.trusted with
  | false =>
    rw [(discoveryCommit_untrusted hcommit ht).1] at hx
    exact Or.inl hx
  | true =>
    rw [(discoveryCommit_trusted hcommit ht).1, ← map_name_topologyObservations,
      topologyObservations_topologyStatus] at hx
    rcases effectiveDiscovery_cases discover resource with ⟨d, hok, htd, heq⟩ | ⟨-, -, hcases⟩
    · have hwork : (discoveryWork discover resource now).discovery = d := congrArg Prod.fst heq
      rw [hwork] at hx
      exact Or.inr ⟨d, hok, htd, List.mem_map.mp hx⟩
    · obtain ⟨hcached, -⟩ := hcases.resolve_left (by simp [ht])
      have hwork : (discoveryWork discover resource now).discovery.instances
          = topologyObservations resource.status.lastKnownTopology := hcached
      rw [hwork, map_name_topologyObservations] at hx
      exact Or.inl hx

theorem Tidy.discover {w : World} (h : Tidy w) {discover : Discover} {checkedAt now : Int}
    {faults : List (Option Fault)} (horderly : Orderly w (.discover discover checkedAt now faults)) :
    Tidy (w.next (.discover discover checkedAt now faults)) := by
  have hcluster : (w.next (.discover discover checkedAt now faults)).cluster = w.cluster :=
    congrArg Prod.fst (runJob_keeps _ _ (w.meet faults))
  rcases discover_cases w discover checkedAt now faults with
    ⟨-, -, status, hcommit, hstored⟩ | ⟨-, hstored⟩
  · obtain ⟨-, happlied, -, hobserved, -⟩ := discoveryCommit_frame hcommit
    refine h.of_commit hcluster hstored hobserved happlied fun x hx hoff => ?_
    rcases discoveryWork_told hcommit hx with hold | ⟨d, hok, ht, o, ho, rfl⟩
    · exact Or.inl ⟨hold, hoff⟩
    · exact horderly d hok ht o ho hoff
  · exact h.of_unchanged hstored (by rw [hcluster]; exact id)

theorem Tidy.monitor {w : World} (h : Tidy w) (check : Check) (checkedAt now : Int)
    (faults : List (Option Fault)) : Tidy (w.next (.monitor check checkedAt now faults)) := by
  have hcluster : (w.next (.monitor check checkedAt now faults)).cluster = w.cluster :=
    congrArg Prod.fst (runJob_keeps _ _ (w.meet faults))
  rcases monitor_cases w check checkedAt now faults with
    ⟨-, -, status, hcommit, hstored⟩ | ⟨-, hstored⟩
  · obtain ⟨htopology, -, -, -, happlied, -⟩ := monitorCommit_frame hcommit
    have hobserved : status.observedGeneration = w.stored.resource.status.observedGeneration := by
      obtain ⟨-, -, rfl⟩ := monitorCommit_eq_some.mp hcommit
      rfl
    refine h.of_commit hcluster hstored hobserved happlied fun x hx hoff => ?_
    rw [htopology] at hx
    exact Or.inl ⟨hx, hoff⟩
  · exact h.of_unchanged hstored (by rw [hcluster]; exact id)

/-! ## 5. Reconciles -/

section Reconcile

variable {w w' : World} {now : Int} {p : Prepared}

/-- A disabled instance keeps its name to itself. -/
theorem NamesApart.unclaimed (h : NamesApart w.stored.resource) {x : String}
    (hx : DisabledIn w.stored.resource x)
    (hfrozen : (finalPlan w.stored.resource w.cluster).frozen = false) :
    Unclaimed w.stored.resource (finalPlan w.stored.resource w.cluster)
      (instanceResourceName w.stored.resource.name x) where
  instances entry hentry := by
    obtain ⟨hmem, hactive⟩ := List.mem_filter.mp hentry
    obtain ⟨hknown, hoff⟩ := finalPlan_entry hfrozen hmem
    rw [cachedDiscovery_instances (trusted_of_not_frozen hfrozen)] at hknown
    refine (h x hx.1 hx.2).1 entry.name ?_ ?_
    · rw [← map_name_topologyObservations]
      exact List.mem_map_of_mem (f := fun o : InstanceObservation => o.name) hknown
    · rw [← hoff]
      simpa using hactive
  roles role := (h x hx.1 hx.2).2 role (by cases role <;> simp)

/-- An edit that was not observed, or nothing applied yet: the plan is applied. -/
theorem shouldApplyPlan_unapplied {resource : PgBouncerAurora} {evaluation : Evaluation}
    {plan : Output} {missing : List MissingInstanceStatus} (hfrozen : plan.frozen = false)
    (h : EditPending resource ∨ resource.status.lastAppliedTime = none) :
    shouldApplyPlan resource evaluation plan missing now
      = pure (true, "generation-or-never-applied") := by
  unfold shouldApplyPlan
  rw [if_neg (by simp [hfrozen]), if_pos]
  simpa [EditPending] using h

/-- **An unfrozen Reconcile that succeeds from a tidy state leaves nothing behind.** -/
theorem Tidy.cleared (h : Tidy w) (hrun : reconcile .scheduled now w = .ok p w')
    (hfrozen : p.plan.frozen = false) : AllBare w.stored.resource w'.cluster := by
  obtain ⟨w₁, hprepare, hcluster, -⟩ := reconcile_eq_ok hrun
  have hp := prepare_eq_ok hprepare
  rw [hp.plan] at hfrozen
  have ht := trusted_of_not_frozen hfrozen
  rintro x hx kind
  cases happlied : p.applied with
  | true =>
    refine reconcile_applied_bare hrun happlied ?_ kind
    obtain ⟨o, ho, rfl⟩ : ∃ o ∈ (cachedDiscovery w.stored.resource).instances, o.name = x := by
      rw [← List.mem_map, cachedDiscovery_instances ht, map_name_topologyObservations]
      exact hx.1
    obtain ⟨entry, hentry, hstanding⟩ := (mem_finalPlan_standing ht).mpr ⟨ho, hx.2⟩
    rw [standing, Prod.mk.injEq] at hstanding
    refine List.mem_map.mpr ⟨entry, List.mem_filter.mpr ⟨hentry, hstanding.2⟩, ?_⟩
    rw [← hstanding.1]
  | false =>
    have hsame : w'.cluster = w.cluster :=
      hcluster.trans (congrArg (fun v => v.2.1) (hp.skipped happlied).2)
    rw [hsame]
    -- nothing was to be applied, so the state was bare
    have hbare : AllBare w.stored.resource w.cluster := by
      by_contra hnot
      obtain ⟨v, decision, v₁, _, _, hdecision, -, -, hdecide, -⟩ := reconcile_stages hrun
      have hunapplied := h.bare.imp_right (·.resolve_right hnot)
      have happly : w.planned.frozen = false := hfrozen
      rw [shouldApplyPlan_unapplied happly hunapplied] at hdecide
      cases hdecide
      exact absurd (happlied.symm.trans hdecision) (by simp)
    exact hbare x hx kind

/-- An attempt that fails, or changes nothing, creates nothing that was not to be there. -/
theorem Tidy.kept (h : NamesApart w.stored.resource) (hbare : AllBare w.stored.resource w.cluster) :
    AllBare w.stored.resource (final (reconcile .scheduled now) w).cluster := fun x hx kind =>
  reconcile_bare w now (fun hfrozen => h.unclaimed hx hfrozen) kind (hbare x hx kind)

/-- What a Reconcile commits of the fields that matter here. -/
theorem PrepareSpec.committed (hp : PrepareSpec now w p w') :
    (p.status w.stored.resource).observedGeneration = w.stored.resource.generation ∧
      (p.status w.stored.resource).lastKnownTopology
        = w.stored.resource.status.lastKnownTopology := by
  rw [Prepared.status, hp.resource, hp.evaluation]
  exact ⟨rfl, (reconcileCommit_frame _ _ _ _ _).1⟩

theorem Tidy.reconciled (h : Tidy w) {faults : List (Option Fault)}
    (horderly : Orderly w (.reconcile now faults))
    (hrun : reconcile .scheduled now w = .ok p w') : Tidy w' := by
  obtain ⟨w₁, hprepare, hcluster, hstored⟩ := reconcile_eq_ok hrun
  have hp := prepare_eq_ok hprepare
  obtain ⟨hobserved, htopology⟩ := hp.committed
  have hdisabled : ∀ x, DisabledIn w'.stored.resource x → DisabledIn w.stored.resource x := by
    rintro x ⟨hknown, hoff⟩
    rw [hstored] at hoff
    rw [hstored, StoredResource.updateStatus_status, Status.marshal_lastKnownTopology,
      htopology] at hknown
    exact ⟨hknown, hoff⟩
  have hname : w'.stored.resource.name = w.stored.resource.name := by
    rw [hstored]
    rfl
  have hbare : AllBare w.stored.resource w'.cluster → AllBare w'.stored.resource w'.cluster := by
    intro hall x hx kind
    rw [hname]
    exact hall x (hdisabled x hx) kind
  refine ⟨?_, Or.inr ?_⟩
  · rw [hstored]
    exact hobserved.le
  · cases hfrozen : p.plan.frozen with
    | false => exact Or.inr (hbare (h.cleared hrun hfrozen))
    | true =>
      have happlied : p.applied = false := by
        by_contra hyes
        have hnot := (hp.applied (by simpa using hyes)).1
        exact absurd (hnot.symm.trans hfrozen) (by simp)
      have hsame : w'.cluster = w.cluster :=
        hcluster.trans (congrArg (fun v => v.2.1) (hp.skipped happlied).2)
      by_cases htime : w.stored.resource.status.lastAppliedTime = none
      · left
        rw [hstored, StoredResource.updateStatus_status, Status.marshal_lastAppliedTime,
          Prepared.status, (reconcileCommit_frozen _ _ _ _ _ _ hfrozen).2.1, htime]
        rfl
      · refine Or.inr (hbare ?_)
        rw [hsame]
        rcases h.bare with hunobserved | hnever | hall
        · refine (horderly.2 hunobserved htime).resolve_left ?_
          rintro ⟨ht, hzones⟩
          rw [hp.plan, finalPlan_frozen_eq ht, hzones] at hfrozen
          cases hfrozen
        · exact absurd hnever htime
        · exact hall

end Reconcile

/-! ## 6. The run -/

theorem Tidy.next {w : World} (h : Tidy w) {step : Step} (horderly : Orderly w step) :
    Tidy (w.next step) := by
  cases step with
  | discover => exact h.discover horderly
  | monitor => exact h.monitor ..
  | reconcile now faults =>
    have hmet : Tidy (w.meet faults) := ⟨h.observed, h.bare⟩
    have horderly' : Orderly (w.meet faults) (.reconcile now faults) := horderly
    cases hrun : reconcile .scheduled now (w.meet faults) with
    | ok p w' =>
      have hnext : w.next (.reconcile now faults) = w' := final_of_ok hrun
      rw [hnext]
      exact hmet.reconciled horderly' hrun
    | error e w' =>
      have hnext : w.next (.reconcile now faults) = final (reconcile .scheduled now) (w.meet faults) :=
        rfl
      have hstored : w'.stored = (w.meet faults).stored := reconcile_eq_error hrun
      refine h.of_unchanged ?_ (Tidy.kept (w := w.meet faults) horderly.1)
      rw [hnext, final_of_error hrun]
      exact hstored
  | editSpec spec =>
    have hlt := Int.lt_add_one_of_le h.observed
    exact ⟨hlt.le, Or.inl hlt.ne'⟩
  | environment cluster =>
    exact h.of_unchanged rfl fun hall x hx => horderly x hx (hall x hx)

theorem Tidy.disabledCleared {w : World} (h : Tidy w) (step : Step) : DisabledCleared w step := by
  rintro now faults p w' - hrun hfrozen o ho hoff kind
  have hmet : Tidy (w.meet faults) := ⟨h.observed, h.bare⟩
  obtain ⟨w₁, hprepare, -⟩ := reconcile_eq_ok hrun
  have hp := prepare_eq_ok hprepare
  have hcleared := hmet.cleared hrun hfrozen
  rw [hp.plan] at hfrozen
  have hinstances := cachedDiscovery_instances (trusted_of_not_frozen hfrozen)
  rw [hp.evaluation] at ho
  rw [hp.resource] at hoff ⊢
  refine hcleared o.name ⟨?_, hoff⟩ kind
  rw [← map_name_topologyObservations, ← hinstances]
  exact List.mem_map_of_mem (f := fun o : InstanceObservation => o.name) ho

/-- **Disabled instances have no objects after an unfrozen Reconcile**, in every run in which no
frozen attempt observes an edit that leaves something to clean up, no disabled instance comes back to
objects of its own, and the names of disabled instances are theirs alone. -/
theorem disabled_cleared_of_orderly (name : String) (spec : PgBouncerAuroraSpec) (cluster : Cluster)
    (steps : List Step)
    (h : Machine.Along World.next Orderly (World.initial name spec cluster) steps) :
    Machine.Along World.next DisabledCleared (World.initial name spec cluster) steps :=
  Machine.Along.imp (I := Tidy) (fun _ step hI _ => hI.disabledCleared step)
    (fun _ _ hI horderly => hI.next horderly)
    ⟨(zero_le_one : (0 : Int) ≤ 1), Or.inr (Or.inl rfl)⟩ h

/-- One instance is switched off. -/
def without (x : String) : PgBouncerAuroraSpec :=
  { pgbouncer := { instanceOverrides := [{ name := x, enabled := some false }] } }

/-- A trusted discovery that finds one writer and nothing else. -/
def discoverOnly (writer : String) (now : Int) : Step :=
  .discover (fun _ => .ok { trusted := true, instances := [{ name := writer, role := .writer }] })
    now now []

/-- The edit is applied at once. -/
def switchOff : List Step :=
  [discoverOnly "a" 0, .reconcile second [], .editSpec (without "a"), .reconcile (2 * second) []]

theorem switchOff_cleared :
    Machine.Along World.next Orderly (World.initial "db" {} {}) switchOff ∧
      Machine.Along World.next DisabledCleared (World.initial "db" {} {}) switchOff := by
  have horderly : Machine.Along World.next Orderly (World.initial "db" {} {}) switchOff := by
    refine ⟨fun d _ _ o _ hoff => ?_, ⟨?_, fun _ hnever => ?_⟩, trivial,
      ⟨?_, fun _ _ => Or.inl ?_⟩, trivial⟩
    · exact absurd hoff (by simp [World.initial, StoredResource.create, instanceDisabled])
    · decide +kernel
    · exact absurd rfl hnever
    · decide +kernel
    · decide +kernel
  exact ⟨horderly, disabled_cleared_of_orderly "db" {} {} switchOff horderly⟩

/-- The Reconcile at `now` succeeds with an unfrozen plan and leaves a Deployment of the discovered
instance, which is disabled. -/
def leavesBehind (w : World) (now : Int) (x : String) : Bool :=
  match reconcile .scheduled now (w.meet []) with
  | .error _ _ => false
  | .ok p w' => !p.plan.frozen && p.evaluation.discovery.instances.any (·.name = x) &&
      instanceDisabled p.resource.spec.pgbouncer x &&
      (objectAt .deployment (instanceResourceName p.resource.name x) w').isSome

theorem not_disabledCleared {w : World} {now : Int} {x : String} (h : leavesBehind w now x = true) :
    ¬ DisabledCleared w (.reconcile now []) := by
  intro hcleared
  unfold leavesBehind at h
  split at h
  · cases h
  · next p w' hrun =>
    simp only [Bool.and_eq_true, Bool.not_eq_true', List.any_eq_true, decide_eq_true_eq] at h
    obtain ⟨⟨⟨hfrozen, o, ho, rfl⟩, hoff⟩, hleft⟩ := h
    rw [hcleared now [] p w' rfl hrun hfrozen o ho hoff .deployment] at hleft
    cases hleft

/-- A discovery that cannot connect. -/
def discoverRefused (now : Int) : Step :=
  .discover (fun _ => .ok (Discovery.untrusted
    "aurora replica status query failed: connection refused")) now now []

/-- **Two ways around the clean-up.**  The edit is first reconciled while the discovery is untrusted,
because it has failed as often as it may; or while the instance is gone, and then it comes back. -/
theorem left_behind :
    ¬ DisabledCleared (reached "db" {} {} [discoverOnly "a" 0, .reconcile second [],
        discoverRefused (10 * second), discoverRefused (20 * second), discoverRefused (30 * second),
        .editSpec (without "a"), .reconcile (31 * second) [], discoverOnly "a" (40 * second)])
      (.reconcile (41 * second) []) ∧
    ¬ DisabledCleared (reached "db" {} {} [discoverOnly "a" 0, .reconcile second [],
        discoverOnly "b" (10 * second), .editSpec (without "a"), .reconcile (11 * second) [],
        discoverOnly "a" (20 * second)])
      (.reconcile (21 * second) []) :=
  ⟨not_disabledCleared (x := "a") (by decide +kernel),
    not_disabledCleared (x := "a") (by decide +kernel)⟩

end Controller

end AuroraOperator

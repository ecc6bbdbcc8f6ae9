/-
# `Reconcile`

One attempt to bring the cluster to the plan.  It reads a snapshot of the resource, plans,
decides whether to apply, applies, and commits the status on a freshly read copy.  `prepare` is
everything up to the commit; `reconcile` is the whole.

The two results the rest of the development stands on:

* `prepare_eq_ok`: what an attempt that gets as far as the commit has computed and achieved;
* `commitStatus_ensures`: what a commit does, including that a commit which finds nothing to
  change is as good as one that writes.
-/
import AuroraOperator.Controller.Decision
import AuroraOperator.Controller.Restart

namespace AuroraOperator

namespace Controller

open Planner Render Program

/-! ## 1. Observing -/

abbrev Discover := PgBouncerAurora → Except String DiscoveryResult

abbrev Check := PgBouncerAurora → List InstanceObservation → Except String (StringMap HealthStatus)

/-- With a scheduler running, jobs of their own discover and monitor; without one, a Reconcile
does both itself. -/
inductive Mode
  | scheduled
  | standalone (discover : Discover) (check : Option Check)

def discoveryFor (discover : Discover) (resource : PgBouncerAurora) (now : Int) :
    Except String Evaluation :=
  if discoveryDue resource now then
    match discover resource with
    | .error err => .error err
    | .ok discovery =>
      if discovery.trusted then .ok { discovery := discovery, discoveryRan := true }
      else .ok { discovery := discoveryAfterFailureThreshold resource discovery
                 discoveryRan := true
                 discoveryFailed := true }
  else if !lastDiscoveryTrusted resource then
    .ok { discovery := { trusted := false, reason := "discovery retry interval not due" } }
  else
    .ok { discovery :=
            { trusted := true
              instances := topologyObservations resource.status.lastKnownTopology
              reason := lastDiscoveryMessage resource } }

/-- The loop of `podReadinessChanged`, with the counts not yet accounted for. -/
def readinessChangedFrom (readyCounts : StringMap Int32) : List InstanceStatus → Bool
  | [] => !readyCounts.isEmpty
  | status :: rest =>
    if status.instanceName = "" then readinessChangedFrom readyCounts rest
    else if readyCounts[status.instanceName]?.getD 0 ≠ status.readyReplicas then true
    else readinessChangedFrom (readyCounts.erase status.instanceName) rest

def topologyChanged (instances : List InstanceObservation)
    (statuses : List InstanceTopologyStatus) : Bool :=
  instances.length ≠ statuses.length || instances.any fun o =>
    match statuses.reverse.find? (·.instanceName = o.name) with
    | none => true
    | some status => topologyStatus [o] ≠ [status]

def activeDiscoveryInstances (resource : PgBouncerAurora) (instances : List InstanceObservation) :
    List InstanceObservation :=
  instances.filter fun o => !instanceDisabled resource.spec.pgbouncer o.name

/-- `shouldRunMonitor` of `healthFor`.  The pods are listed only when nothing else decides. -/
def shouldRunMonitor (resource : PgBouncerAurora) (evaluation : Evaluation) (now : Int) :
    Api Bool :=
  if monitorDue resource now ||
      topologyChanged evaluation.discovery.instances resource.status.lastKnownTopology ||
      (evaluation.discoveryRan && resource.status.instances.length = 0) then pure true
  else do
    let pods ← listPods resource
    pure (readinessChangedFrom (readyPodCounts (pods.map (·.2))) resource.status.instances)

def healthFor (check : Option Check) (resource : PgBouncerAurora) (evaluation : Evaluation)
    (now : Int) : Api Evaluation :=
  let cached := { evaluation with health := healthFromStatus resource.status.instances }
  if !evaluation.discovery.trusted then pure { evaluation with cachedHealth := false }
  else match check with
    | none => pure cached
    | some check => do
      if ← shouldRunMonitor resource evaluation now then
        match check resource (activeDiscoveryInstances resource evaluation.discovery.instances) with
        | .error err => pure { cached with monitorErr := err }
        | .ok health =>
          pure { evaluation with health := health, monitorRan := true, cachedHealth := false }
      else pure cached

def evaluate (mode : Mode) (resource : PgBouncerAurora) (now : Int) : Api Evaluation :=
  match mode with
  | .scheduled => pure (scheduledEvaluation resource)
  | .standalone discover check =>
    match discoveryFor discover resource now with
    | .error err => throw (.other err)
    | .ok evaluation => healthFor check resource evaluation now

/-! ## 2. Planning -/

/-- `planner.Plan`, then the fast path, which lists the pods only when it needs them. -/
def planFor (resource : PgBouncerAurora) (evaluation : Evaluation)
    (missing : List MissingInstanceStatus) : Api Output :=
  let planned := plan
    { resource := resource
      discoveryTrusted := evaluation.discovery.trusted
      discovered := evaluation.discovery.instances
      health := evaluation.health
      cachedHealth := evaluation.cachedHealth
      missingInstances := missing }
  match failoverCandidate resource evaluation.discovery planned with
  | none => pure planned
  | some _ => do
    let pods ← listPods resource
    pure (applyWriterFailoverFastPath resource evaluation.discovery
      (readyPodCounts (pods.map (·.2))) planned)

/-- The pods a list call for the resource returns. -/
def managedPods (resource : PgBouncerAurora) (cluster : Cluster) : List Pod :=
  (cluster.pods.toList.filter fun entry => managed resource entry.2.labels).map (·.2)

/-- The final plan of a scheduled Reconcile. -/
def finalPlan (resource : PgBouncerAurora) (cluster : Cluster) : Output :=
  applyZoneAwareConflictPolicy resource
    (scheduledPlan resource (cachedDiscovery resource) resource.status.missingInstances
      (managedPods resource cluster))

/-! ## 3. Applying and committing -/

/-- All that an unfrozen plan asks for; the entries that remain missing are the result. -/
def applyPlan (resource : PgBouncerAurora) (discovery : DiscoveryResult) (plan : Output)
    (missing : List MissingInstanceStatus) (now : Int) : Api (List MissingInstanceStatus) := do
  applyDesired resource plan
  let remaining ← cleanupRemovedInstanceResources resource discovery missing now
  patchPodMembership resource plan
  handleWriterChangeConnection resource plan
  pure remaining

/-- What a Reconcile brings to its commit. -/
structure Prepared where
  resource : PgBouncerAurora
  evaluation : Evaluation
  plan : Output
  applied : Bool
  missing : List MissingInstanceStatus
  now : Int

/-- Apply the plan if that was decided. -/
def applyIf (shouldApply : Bool) (resource : PgBouncerAurora) (evaluation : Evaluation)
    (plan : Output) (missing : List MissingInstanceStatus) (now : Int) :
    Api (List MissingInstanceStatus) :=
  if shouldApply then applyPlan resource evaluation.discovery plan missing now else pure missing

/-- Everything before the status commit.  The first read goes to the cache, the second past
it. -/
def prepare (mode : Mode) (now : Int) : Api Prepared := do
  let _ ← getResource
  let resource ← getResource
  let evaluation ← evaluate mode resource now
  let missing := if evaluation.discoveryRan then
      missingInstancesFor resource evaluation.discovery true now
    else resource.status.missingInstances
  let planned ← planFor resource evaluation missing
  let plan := applyZoneAwareConflictPolicy resource planned
  let decision ← shouldApplyPlan resource evaluation plan missing now
  let remaining ← applyIf decision.1 resource evaluation plan missing now
  pure { resource := resource, evaluation := evaluation, plan := plan, applied := decision.1
         missing := remaining, now := now }

/-- Read a fresh copy, compute the next status from it, and write it if it differs.  The answer
is whether the work was committed or turned out to be stale. -/
def commitStatus (next : PgBouncerAurora → Option Status) : Api Bool :=
  retryOnConflict do
    let fresh ← getResource
    match next fresh with
    | none => pure false
    | some status =>
      if hashObject fresh.status.marshal = hashObject status.marshal then pure true
      else do
        updateResourceStatus status
        pure true

/-- The status a Reconcile writes over a freshly read one. -/
def Prepared.status (prepared : Prepared) (fresh : PgBouncerAurora) : Status :=
  reconcileCommit prepared.resource prepared.evaluation prepared.plan prepared.missing
    prepared.now fresh

/-- A whole attempt.  The source returns when to come back; the model returns what was
committed. -/
def reconcile (mode : Mode) (now : Int) : Api Prepared := do
  let prepared ← prepare mode now
  let _ ← commitStatus fun fresh => some (prepared.status fresh)
  pure prepared

/-! ## 4. The commit -/

theorem getResource_eq_ok {w w' : World} {resource : PgBouncerAurora}
    (h : getResource w = .ok resource w') : resource = w.stored.resource := by
  obtain ⟨faults, hrun⟩ := call_eq_ok h
  simp only [EStateM.Result.ok.injEq] at hrun
  exact hrun.1.symm

/-- **What a commit does.** -/
theorem commitStatus_ensures (next : PgBouncerAurora → Option Status) :
    Ensures (commitStatus next) fun w committed w' =>
      match next w.stored.resource with
      | none => committed = false ∧ w'.stored = w.stored
      | some status => committed = true ∧ w'.stored = w.stored.updateStatus status := by
  unfold commitStatus retryOnConflict
  refine Clean.ensures_retry World.visible ?clean ?indep ?body 4
  case clean =>
    refine Clean.bind getResource_keeps fun fresh => ?_
    split
    · exact Clean.of_keeps (Keeps.pure _)
    · exact Clean.ite _ (Clean.of_keeps (Keeps.pure _))
        (Clean.bind_pure (updateResourceStatus_clean _) _)
  case indep =>
    intro w w₁ committed w' hv hq
    have hs : w₁.stored = w.stored := congrArg (fun v => v.1) hv
    rw [hs] at hq
    exact hq
  case body =>
    intro w committed w' h
    obtain ⟨fresh, w₁, h₁, h₂⟩ := bind_eq_ok.mp h
    have hs : w₁.stored = w.stored := congrArg (fun v => v.1) (getResource_keeps.of_ok h₁)
    obtain rfl := getResource_eq_ok h₁
    cases hn : next w.stored.resource with
    | none =>
      rw [hn] at h₂
      cases h₂
      exact ⟨rfl, hs⟩
    | some status =>
      rw [hn] at h₂
      dsimp only at h₂
      by_cases heq : hashObject w.stored.resource.status.marshal = hashObject status.marshal
      · rw [if_pos heq] at h₂
        cases h₂
        refine ⟨rfl, ?_⟩
        rw [hashObject_inj, w.stored.canonical] at heq
        rw [hs, StoredResource.updateStatus_self heq.symm]
      · rw [if_neg heq] at h₂
        obtain ⟨_, w₂, h₃, h₄⟩ := bind_eq_ok.mp h₂
        cases h₄
        obtain ⟨faults, hrun⟩ := call_eq_ok h₃
        simp only [EStateM.Result.ok.injEq, true_and] at hrun
        rw [← hrun]
        exact ⟨rfl, by rw [hs]⟩

/-- A failed commit leaves no trace. -/
theorem commitStatus_clean (next : PgBouncerAurora → Option Status) :
    Clean World.visible (commitStatus next) := by
  unfold commitStatus retryOnConflict
  refine Clean.retry (Clean.bind getResource_keeps fun fresh => ?_) 4
  split
  · exact Clean.of_keeps (Keeps.pure _)
  · exact Clean.ite _ (Clean.of_keeps (Keeps.pure _))
      (Clean.bind_pure (updateResourceStatus_clean _) _)

theorem commitStatus_within {R : World → World → Prop} (hR : Frame R)
    (hupdate : ∀ status, Within R (updateResourceStatus status))
    (next : PgBouncerAurora → Option Status) : Within R (commitStatus next) := by
  unfold commitStatus retryOnConflict
  refine Within.retry hR.toSteps (Within.bind hR.toSteps (hR.read getResource_keeps)
    fun fresh => ?_) 4
  split
  · exact Within.pure hR.toSteps _
  · exact Within.ite _ (Within.pure hR.toSteps _)
      (Within.bind hR.toSteps (hupdate _) fun _ => Within.pure hR.toSteps _)

/-- **A commit touches nothing but the status.** -/
theorem commitStatus_keeps (next : PgBouncerAurora → Option Status) :
    Keeps World.namespaceSide (commitStatus next) :=
  commitStatus_within frame_namespaceSide updateResourceStatus_keeps next

/-! ## 5. Up to the commit -/

/-- A frozen plan is not applied. -/
theorem shouldApplyPlan_frozen {resource : PgBouncerAurora} {evaluation : Evaluation}
    {plan : Output} {missing : List MissingInstanceStatus} {now : Int} (h : plan.frozen = true) :
    shouldApplyPlan resource evaluation plan missing now = pure (false, "frozen") := by
  unfold shouldApplyPlan
  rw [if_pos h]

/-- An untrusted discovery freezes the final plan, at the membership applied last. -/
theorem finalPlan_eq_frozenPlan {resource : PgBouncerAurora} {cluster : Cluster}
    (h : (cachedDiscovery resource).trusted = false) :
    finalPlan resource cluster = frozenPlan resource := by
  have hplan : plan (scheduledInput resource (cachedDiscovery resource)
      resource.status.missingInstances) = frozenPlan resource := by
    rw [plan, if_pos (by simp [scheduledInput, h])]
    rfl
  have hnone : failoverCandidate resource (cachedDiscovery resource)
      (frozenPlan resource) = none := by
    simp [failoverCandidate, frozenPlan]
  have hscheduled : scheduledPlan resource (cachedDiscovery resource)
      resource.status.missingInstances (managedPods resource cluster) = frozenPlan resource := by
    rw [scheduledPlan, hplan, applyWriterFailoverFastPath, hnone]
  rw [finalPlan, hscheduled]
  exact zonePolicy_frozen rfl

theorem finalPlan_frozen {resource : PgBouncerAurora} {cluster : Cluster}
    (h : (cachedDiscovery resource).trusted = false) : (finalPlan resource cluster).frozen = true := by
  rw [finalPlan_eq_frozenPlan h]
  rfl

theorem trusted_of_not_frozen {resource : PgBouncerAurora} {cluster : Cluster}
    (h : (finalPlan resource cluster).frozen = false) :
    (cachedDiscovery resource).trusted = true := by
  by_contra ht
  rw [finalPlan_frozen (by simpa using ht)] at h
  cases h

/-- The plan of a scheduled Reconcile, as a function of the snapshot and the pods. -/
theorem planFor_eq_ok {resource : PgBouncerAurora} {missing : List MissingInstanceStatus}
    {out : Output} {w w' : World}
    (h : planFor resource (scheduledEvaluation resource) missing w = .ok out w') :
    out = scheduledPlan resource (cachedDiscovery resource) missing
      (managedPods resource w.cluster) := by
  unfold planFor at h
  unfold scheduledPlan
  set planned := plan (scheduledInput resource (cachedDiscovery resource) missing) with hplanned
  have hin : plan
      { resource := resource
        discoveryTrusted := (scheduledEvaluation resource).discovery.trusted
        discovered := (scheduledEvaluation resource).discovery.instances
        health := (scheduledEvaluation resource).health
        cachedHealth := (scheduledEvaluation resource).cachedHealth
        missingInstances := missing } = planned := rfl
  rw [hin] at h
  have hdisc : (scheduledEvaluation resource).discovery = cachedDiscovery resource := rfl
  rw [hdisc] at h
  cases hc : failoverCandidate resource (cachedDiscovery resource) planned with
  | none =>
    rw [hc] at h
    injection h with hout
    simp only [applyWriterFailoverFastPath, hc, ← hout]
  | some newWriter =>
    rw [hc] at h
    obtain ⟨pods, w₁, h₁, h₂⟩ := bind_eq_ok.mp h
    cases h₂
    rw [listPods_eq_ok h₁]
    rfl

theorem planFor_keeps (resource : PgBouncerAurora) (evaluation : Evaluation)
    (missing : List MissingInstanceStatus) :
    Keeps World.visible (planFor resource evaluation missing) := by
  unfold planFor
  dsimp only
  split
  · exact Keeps.pure _
  · exact Keeps.bind (listPods_keeps _) fun _ => Keeps.pure _

theorem Keeps.stored_of_podSide {α : Type} {m : Api α} (h : Keeps World.podSide m) :
    Keeps World.stored m := fun w => congrArg Prod.fst (h w)

theorem Keeps.stored_of_objectSide {α : Type} {m : Api α} (h : Keeps World.objectSide m) :
    Keeps World.stored m := fun w => congrArg Prod.fst (h w)

theorem Keeps.stored_of_visible {α : Type} {m : Api α} (h : Keeps World.visible m) :
    Keeps World.stored m := fun w => congrArg Prod.fst (h w)

/-- Applying never touches the status. -/
theorem applyPlan_keeps (resource : PgBouncerAurora) (discovery : DiscoveryResult)
    (plan : Output) (missing : List MissingInstanceStatus) (now : Int) :
    Keeps World.stored (applyPlan resource discovery plan missing now) :=
  Keeps.bind (Keeps.stored_of_podSide (applyDesired_keeps _ _)) fun _ =>
    Keeps.bind (Keeps.stored_of_podSide (cleanupRemovedInstanceResources_keeps _ _ _ _)) fun _ =>
      Keeps.bind (Keeps.stored_of_objectSide (patchPodMembership_keeps _ _)) fun _ =>
        Keeps.bind (Keeps.stored_of_podSide (handleWriterChangeConnection_keeps _ _)) fun _ =>
          Keeps.pure _

theorem prepare_keeps (now : Int) : Keeps World.stored (prepare .scheduled now) := by
  have hget : Keeps World.stored getResource := Keeps.stored_of_visible getResource_keeps
  refine Keeps.bind hget fun _ => Keeps.bind hget fun resource => ?_
  refine Keeps.bind (Keeps.pure _) fun evaluation => ?_
  refine Keeps.bind (Keeps.stored_of_visible (planFor_keeps _ _ _)) fun planned => ?_
  refine Keeps.bind (Keeps.stored_of_visible (shouldApplyPlan_keeps _ _ _ _ _)) fun decision => ?_
  exact Keeps.bind (Keeps.ite _ (applyPlan_keeps _ _ _ _ _) (Keeps.pure _)) fun _ => Keeps.pure _

/-- The writer change of a plan is one the policy restarts for. -/
def RestartsFor (resource : PgBouncerAurora) (plan : Output) : Prop :=
  effectiveWriterChangeConnectionHandling resource ≠ .keepExisting ∧
    membershipChanged resource.status.lastAppliedMembership.writer plan.membership.writer = true ∧
    resource.status.lastAppliedMembership.writer ≠ []

/-- The token of a plan's writer change. -/
def planToken (resource : PgBouncerAurora) (plan : Output) : Value :=
  let policy := effectiveWriterChangeConnectionHandling resource
  writerRestartToken resource plan policy (restartTargets resource plan policy)

/-- What is known of an attempt that got from `w` to the commit in `w'`. -/
structure PrepareSpec (now : Int) (w : World) (p : Prepared) (w' : World) : Prop where
  resource : p.resource = w.stored.resource
  evaluation : p.evaluation = scheduledEvaluation w.stored.resource
  plan : p.plan = finalPlan w.stored.resource w.cluster
  time : p.now = now
  stored : w'.stored = w.stored
  /-- Applied or not, an unfrozen plan's labels are on the pods. -/
  labels : p.plan.frozen = false → LabelsExact w.stored.resource p.plan w'.cluster
  skipped : p.applied = false →
    p.missing = w.stored.resource.status.missingInstances ∧ w'.visible = w.visible
  applied : p.applied = true → p.plan.frozen = false ∧
    p.missing = w.stored.resource.status.missingInstances.filter
      (keepsMissing w.stored.resource (cachedDiscovery w.stored.resource) now)
  restarted : p.applied = true → RestartsFor w.stored.resource p.plan →
    ∀ name ∈ restartTargets w.stored.resource p.plan
        (effectiveWriterChangeConnectionHandling w.stored.resource),
      Restarted (planToken w.stored.resource p.plan) w'.cluster.deployments
        (instanceResourceName w.stored.resource.name name)

theorem applyPlan_eq_ok {resource : PgBouncerAurora} {discovery : DiscoveryResult}
    {plan : Output} {missing remaining : List MissingInstanceStatus} {now : Int} {w w' : World}
    (h : applyPlan resource discovery plan missing now w = .ok remaining w')
    (ht : discovery.trusted = true) :
    remaining = missing.filter (keepsMissing resource discovery now) ∧
    LabelsExact resource plan w'.cluster ∧
    (RestartsFor resource plan → ∀ name ∈ restartTargets resource plan
        (effectiveWriterChangeConnectionHandling resource),
      Restarted (planToken resource plan) w'.cluster.deployments
        (instanceResourceName resource.name name)) := by
  obtain ⟨_, w₁, -, h⟩ := bind_eq_ok.mp h
  obtain ⟨kept, w₂, h₂, h⟩ := bind_eq_ok.mp h
  obtain ⟨_, w₃, h₃, h⟩ := bind_eq_ok.mp h
  obtain ⟨_, w₄, h₄, h⟩ := bind_eq_ok.mp h
  cases h
  refine ⟨cleanupRemovedInstanceResources_eq_ok h₂ ht, ?_, ?_⟩
  · -- the restart comes after the labelling and leaves the pods alone
    have hpods : w'.cluster.pods = w₃.cluster.pods :=
      congrArg Prod.snd ((handleWriterChangeConnection_keeps resource plan).of_ok h₄)
    have hexact := patchPodMembership_exact h₃
    intro name pod hpod
    rw [hpods] at hpod
    exact hexact name pod hpod
  · rintro ⟨hpolicy, hchanged, hlast⟩
    exact handleWriterChangeConnection_eq_ok h₄ hpolicy hchanged hlast

/-- **An attempt that reaches its commit.** -/
theorem prepare_eq_ok {now : Int} {w w' : World} {p : Prepared}
    (h : prepare .scheduled now w = .ok p w') : PrepareSpec now w p w' := by
  have hstored := (prepare_keeps now).of_ok h
  obtain ⟨cached, w₁, h₁, h⟩ := bind_eq_ok.mp h
  obtain ⟨resource, w₂, h₂, h⟩ := bind_eq_ok.mp h
  rw [evaluate, pure_bind] at h
  obtain ⟨planned, w₄, h₄, h⟩ := bind_eq_ok.mp h
  obtain ⟨decision, w₅, h₅, h⟩ := bind_eq_ok.mp h
  obtain ⟨remaining, w₆, h₆, h⟩ := bind_eq_ok.mp h
  cases h
  have v₁ := getResource_keeps.of_ok h₁
  have v₂ := (getResource_keeps.of_ok h₂).trans v₁
  have v₄ := ((planFor_keeps _ _ _).of_ok h₄).trans v₂
  have v₅ := ((shouldApplyPlan_keeps _ _ _ _ _).of_ok h₅).trans v₄
  have hresource : resource = w.stored.resource := by
    rw [getResource_eq_ok h₂]
    exact congrArg (fun v => v.1.resource) v₁
  subst hresource
  have hc₂ : w₂.cluster = w.cluster := congrArg (fun v => v.2.1) v₂
  have hplan : applyZoneAwareConflictPolicy w.stored.resource planned
      = finalPlan w.stored.resource w.cluster := by
    rw [planFor_eq_ok h₄, hc₂]
    rfl
  rw [hplan] at h₅ h₆
  have hc₄ : w₄.cluster = w.cluster := congrArg (fun v => v.2.1) v₄
  unfold applyIf at h₆
  obtain ⟨shouldApply, reason⟩ := decision
  cases shouldApply with
  | false =>
    cases h₆
    exact
      { resource := rfl
        evaluation := rfl
        plan := hplan
        time := rfl
        stored := hstored
        labels := fun hf => by
          dsimp only at hf ⊢
          rw [hplan] at hf ⊢
          have hlabels := shouldApplyPlan_labels hf h₅
          have hc₅ : w'.cluster = w₄.cluster := by
            rw [hc₄]
            exact congrArg (fun v => v.2.1) v₅
          rw [hc₅]
          exact hlabels
        skipped := fun _ => ⟨rfl, v₅⟩
        applied := fun hf => by cases hf
        restarted := fun hf => by cases hf }
  | true =>
    have hnf : (finalPlan w.stored.resource w.cluster).frozen = false := by
      by_contra hf
      rw [shouldApplyPlan_frozen (by simpa using hf)] at h₅
      cases h₅
    obtain ⟨hrem, hlabels, hrestart⟩ := applyPlan_eq_ok h₆ (trusted_of_not_frozen hnf)
    exact
      { resource := rfl
        evaluation := rfl
        plan := hplan
        time := rfl
        stored := hstored
        labels := fun _ => by
          dsimp only
          rw [hplan]
          exact hlabels
        skipped := fun hf => by cases hf
        applied := fun _ => ⟨by dsimp only; rw [hplan]; exact hnf, hrem⟩
        restarted := fun _ => by
          dsimp only
          rw [hplan]
          exact hrestart }

/-- What an attempt does before its commit is what the apply does, if there is one. -/
theorem prepare_final {R : World → World → Prop} (hR : Frame R) (now : Int) {w : World}
    (happly : (finalPlan w.stored.resource w.cluster).frozen = false →
      ∀ w₁, w₁.visible = w.visible → R w₁ (final (applyPlan w.stored.resource
        (cachedDiscovery w.stored.resource) (finalPlan w.stored.resource w.cluster)
        w.stored.resource.status.missingInstances now) w₁)) :
    R w (final (prepare .scheduled now) w) := by
  refine hR.bind (hR.read getResource_keeps _) fun cached w₁ h₁ => ?_
  refine hR.bind (hR.read getResource_keeps _) fun resource w₂ h₂ => ?_
  have v₁ := getResource_keeps.of_ok h₁
  have v₂ := (getResource_keeps.of_ok h₂).trans v₁
  have hresource : resource = w.stored.resource := by
    rw [getResource_eq_ok h₂]
    exact congrArg (fun v => v.1.resource) v₁
  subst hresource
  rw [evaluate, pure_bind]
  refine hR.bind (hR.read (planFor_keeps _ _ _) _) fun planned w₃ h₃ => ?_
  have v₃ := ((planFor_keeps _ _ _).of_ok h₃).trans v₂
  have hplan : applyZoneAwareConflictPolicy w.stored.resource planned
      = finalPlan w.stored.resource w.cluster := by
    rw [planFor_eq_ok h₃, show w₂.cluster = w.cluster from congrArg (fun v => v.2.1) v₂]
    rfl
  dsimp only
  rw [hplan]
  refine hR.bind (hR.read (shouldApplyPlan_keeps _ _ _ _ _) _) fun decision w₄ h₄ => ?_
  have v₄ := ((shouldApplyPlan_keeps _ _ _ _ _).of_ok h₄).trans v₃
  refine hR.bind ?_ fun _ _ _ => hR.refl _
  obtain ⟨shouldApply, reason⟩ := decision
  cases shouldApply with
  | false => exact hR.refl _
  | true =>
    refine happly ?_ w₄ v₄
    by_contra hfrozen
    rw [shouldApplyPlan_frozen (by simpa using hfrozen)] at h₄
    cases h₄

/-- With an untrusted discovery nothing is written before the commit, even if that is never
reached. -/
theorem prepare_frozen (now : Int) {w : World}
    (h : (cachedDiscovery w.stored.resource).trusted = false) :
    (final (prepare .scheduled now) w).visible = w.visible := by
  refine prepare_final (frame_view id fun _ => rfl) now fun hfrozen => ?_
  rw [finalPlan_frozen h] at hfrozen
  cases hfrozen

/-! ## 6. Whole attempts -/

theorem reconcile_eq_ok {now : Int} {w w' : World} {p : Prepared}
    (h : reconcile .scheduled now w = .ok p w') :
    ∃ w₁, prepare .scheduled now w = .ok p w₁ ∧ w'.cluster = w₁.cluster ∧
      w'.stored = w.stored.updateStatus (p.status w.stored.resource) := by
  obtain ⟨prepared, w₁, h₁, h₂⟩ := bind_eq_ok.mp h
  obtain ⟨committed, w₂, h₃, h₄⟩ := bind_eq_ok.mp h₂
  cases h₄
  have hs : w₁.stored = w.stored := (prepare_keeps now).of_ok h₁
  obtain ⟨-, hstored⟩ := commitStatus_ensures _ h₃
  refine ⟨w₁, h₁, congrArg (fun v => v.1) ((commitStatus_keeps _).of_ok h₃), ?_⟩
  rw [hstored, hs]

/-- **A failed attempt leaves the status as it was.** -/
theorem reconcile_eq_error {now : Int} {w w' : World} {e : ApiError}
    (h : reconcile .scheduled now w = .error e w') : w'.stored = w.stored := by
  rcases bind_eq_error.mp h with h₁ | ⟨prepared, w₁, h₁, h₂⟩
  · exact (prepare_keeps now).of_error h₁
  · have hs : w₁.stored = w.stored := (prepare_keeps now).of_ok h₁
    rcases bind_eq_error.mp h₂ with h₃ | ⟨_, _, _, h₄⟩
    · rw [← hs]
      exact congrArg (fun v => v.1) (commitStatus_clean _ h₃)
    · cases h₄

/-- With an untrusted discovery an attempt writes nothing but the status. -/
theorem reconcile_frozen {now : Int} {w : World}
    (h : (cachedDiscovery w.stored.resource).trusted = false) :
    (final (reconcile .scheduled now) w).namespaceSide = w.namespaceSide := by
  have hprepare := prepare_frozen now h
  have hside : ∀ v : World, v.namespaceSide = (v.visible.2.1, v.visible.2.2.filter (!·.isStatus)) :=
    fun _ => rfl
  unfold reconcile
  rw [final_bind]
  cases hp : prepare .scheduled now w with
  | error e w₁ =>
    rw [final_of_error hp] at hprepare
    rw [hside, hside, hprepare]
  | ok prepared w₁ =>
    rw [final_of_ok hp] at hprepare
    refine (Keeps.bind (commitStatus_keeps _) (fun _ => Keeps.pure _) w₁).trans ?_
    rw [hside, hside, hprepare]

end Controller

end AuroraOperator

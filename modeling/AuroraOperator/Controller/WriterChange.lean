/-
# Restarts across failed attempts

When the writer changes, pods are relabelled first, then the Deployments of the old and the new
writer are restarted, then the status is committed.  An attempt may fail anywhere in between,
and is repeated.

`restart_kept_iff` says when every committed change has had its restart: exactly when no
repetition commits a change that an earlier attempt has relabelled the pods for without applying
the plan again.  A repetition decides by drift whether to apply, and the labels are part of what
it looks at, while the restart is not: `restart_lost` is a run in which the first attempt fails
between the two and the second one finds nothing left to do.
-/
import AuroraOperator.Controller.Safety

namespace AuroraOperator

namespace Controller

open Planner Render Program

/-! ## 1. Attempts -/

/-- What an attempt to reconcile leaves behind. -/
inductive Attempt
  | committed
  /-- It failed, but not before it had changed writer labels for this writer. -/
  | relabelled (writer : List String)
  deriving DecidableEq

def writerLabels (cluster : Cluster) : List (String × Option String) :=
  cluster.pods.toList.map fun entry => (entry.1, entry.2.labels[labelWriter]?)

def World.attempts (w : World) : Step → List Attempt
  | .reconcile now faults =>
    match reconcile .scheduled now (w.meet faults) with
    | .ok _ _ => [.committed]
    | .error _ w' =>
      if writerLabels w'.cluster = writerLabels w.cluster then []
      else [.relabelled (finalPlan w.stored.resource w.cluster).membership.writer]
  | _ => []

/-- The world with its attempts, newest first. -/
abbrev attempted : World × List Attempt → Step → World × List Attempt :=
  Machine.traced World.next World.attempts

/-- The writers that failed attempts have relabelled pods for since the last commit. -/
def pendingWriters : List Attempt → List (List String)
  | [] => []
  | .committed :: _ => []
  | .relabelled writer :: rest => writer :: pendingWriters rest

/-! ## 2. What a change of the writer asks for -/

/-- The last applied writer. -/
abbrev World.writer (w : World) : List String :=
  w.stored.resource.status.lastAppliedMembership.writer

/-- A commit from `w` to `w'` that changes the writer, under a policy to restart. -/
structure WriterSwitch (w w' : World) : Prop where
  policy : effectiveWriterChangeConnectionHandling w.stored.resource ≠ .keepExisting
  nonempty : w.writer ≠ []
  changed : w'.writer ≠ w.writer

/-- The restart annotation for a change of the writer from `old` to `new`. -/
def CarriesRestart (old new : List String) (deployment : Deployment) : Prop :=
  ∃ payload : WriterRestartTokenPayload,
    payload.previousWriter = sortStrings old ∧ payload.desiredWriter = sortStrings new ∧
    deployment.template.annotations[restartedAtAnnotationKey]?
      = some (.restartToken (hashObject payload))

/-- Every Deployment of an old or new writer carries the restart annotation for the change. -/
def RestartWritten (resource : PgBouncerAurora) (cluster : Cluster) (old new : List String) : Prop :=
  ∀ name ∈ old ++ new, ∀ deployment,
    cluster.deployments[instanceResourceName resource.name name]? = some deployment →
    CarriesRestart old new deployment

/-- A Reconcile that commits a change of the writer, for which pods were relabelled by itself or
by a failed attempt before it, has the restart written. -/
def RestartKept (t : World × List Attempt) (step : Step) : Prop :=
  ∀ now faults p w', step = .reconcile now faults →
    reconcile .scheduled now (t.1.meet faults) = .ok p w' → WriterSwitch t.1 w' →
    p.applied = true ∨ w'.writer ∈ pendingWriters t.2 →
    RestartWritten t.1.stored.resource w'.cluster t.1.writer w'.writer

/-- What an attempt in this state plans. -/
abbrev World.planned (w : World) : Output := finalPlan w.stored.resource w.cluster

/-- The plan of an attempt in this state changes the writer, under a policy to restart. -/
structure SwitchPlanned (w : World) : Prop where
  policy : effectiveWriterChangeConnectionHandling w.stored.resource ≠ .keepExisting
  nonempty : w.writer ≠ []
  unfrozen : w.planned.frozen = false
  changed : w.planned.membership.writer ≠ w.writer

/-- A scheduled attempt up to its decision.  So far it has only read. -/
def applyDecision (now : Int) : Api Bool := do
  let _ ← getResource
  let resource ← getResource
  let evaluation := scheduledEvaluation resource
  let missing := resource.status.missingInstances
  let planned ← planFor resource evaluation missing
  let plan := applyZoneAwareConflictPolicy resource planned
  let decision ← shouldApplyPlan resource evaluation plan missing now
  pure decision.1

/-- An attempt that goes through, in a state for which a failed one has relabelled pods, is one
that decides to apply, unless the restart is written already. -/
def RestartReached (t : World × List Attempt) (step : Step) : Prop :=
  ∀ now faults, step = .reconcile now faults →
    (∃ p w', reconcile .scheduled now (t.1.meet faults) = .ok p w') → SwitchPlanned t.1 →
    t.1.planned.membership.writer ∈ pendingWriters t.2 →
    answer (applyDecision now) (t.1.meet faults) = true ∨
      RestartWritten t.1.stored.resource t.1.cluster t.1.writer t.1.planned.membership.writer

/-! ## 3. An applied change is restarted -/

section Targets

variable {resource : PgBouncerAurora} {cluster : Cluster}

/-- A discovered instance that is not disabled is active in the plan. -/
theorem mem_activeNames (h : (finalPlan resource cluster).frozen = false)
    {o : InstanceObservation} (ho : o ∈ (cachedDiscovery resource).instances)
    (hen : instanceDisabled resource.spec.pgbouncer o.name = false) :
    o.name ∈ (activePlanInstances (finalPlan resource cluster).instances).map (·.name) := by
  obtain ⟨entry, hentry, hstanding⟩ := (@mem_finalPlan_standing _ cluster
    (trusted_of_not_frozen h) _ _).mpr ⟨ho, hen⟩
  rw [standing, Prod.mk.injEq] at hstanding
  obtain ⟨rfl, hdisabled⟩ := hstanding
  exact List.mem_map.mpr ⟨entry, List.mem_filter.mpr ⟨hentry, by simp [hdisabled]⟩, rfl⟩

/-- **A planned writer is an active instance or the old writer**, so that no policy to restart
passes it by. -/
theorem writer_mem_targets (h : (finalPlan resource cluster).frozen = false)
    (hpolicy : effectiveWriterChangeConnectionHandling resource ≠ .keepExisting) {name : String}
    (hname : name ∈ resource.status.lastAppliedMembership.writer ++
      (finalPlan resource cluster).membership.writer) :
    name ∈ restartTargets resource (finalPlan resource cluster)
      (effectiveWriterChangeConnectionHandling resource) := by
  cases hp : effectiveWriterChangeConnectionHandling resource with
  | keepExisting => exact absurd hp hpolicy
  | restartWriters =>
    exact mem_sortStrings.mpr (List.mem_dedup.mpr hname)
  | restartAll =>
    refine mem_sortStrings.mpr (List.mem_dedup.mpr (List.mem_append.mpr ?_))
    rcases List.mem_append.mp hname with hold | hnew
    · exact Or.inr hold
    · rcases finalPlan_writer h with hw | ⟨w, hw, hsingle, hne, hen⟩
      · rw [hw] at hnew
        rcases decidedWriter_cases (reconcileInput resource) with hhealthy | ⟨-, hkept⟩
        · obtain ⟨o, ho, -, hh, rfl⟩ := mem_healthyMembers.mp (hhealthy name hnew)
          exact Or.inl (mem_activeNames h ho (not_disabled_of_healthy _ hh))
        · exact Or.inr (hkept name hnew).1
      · rw [hw] at hnew
        obtain rfl := List.mem_singleton.mp hnew
        obtain ⟨o, ho, -, hon⟩ := exists_single_writer (hsingle ▸ hne)
        rw [hsingle, ← hon] at hen ⊢
        exact Or.inl (mem_activeNames h ho hen)

end Targets

/-- Lists of at most one name that `membershipChanged` takes for the same are the same. -/
theorem eq_of_not_membershipChanged {a b : List String} (ha : a.length ≤ 1) (hb : b.length ≤ 1)
    (h : membershipChanged a b = false) : b = a := by
  have hlength : a.length = b.length := by
    by_contra hne
    simp [membershipChanged, hne] at h
  have hmem : ∀ name, name ∈ a ↔ name ∈ b := fun _ =>
    mem_iff_of_not_membershipChanged h (nodup_of_length_le_one hb)
  match a, b, hlength with
  | [], [], _ => rfl
  | [x], [y], _ => rw [List.mem_singleton.mp ((hmem y).mpr (List.mem_singleton_self y))]

/-- Such a plan is one to restart for. -/
theorem SwitchPlanned.restartsFor {w : World} (h : SwitchPlanned w)
    (hc : Consistent w.stored.resource.status) : RestartsFor w.stored.resource w.planned := by
  refine ⟨h.policy, ?_, h.nonempty⟩
  by_contra hsame
  exact h.changed (eq_of_not_membershipChanged hc.writer
    (finalPlan_writer_length h.unfrozen hc.writer) (by simpa using hsame))

section Attempts

variable {now : Int} {faults : List (Option Fault)} {w w₁ w' : World} {p : Prepared}

/-- The writer that is committed is the planned one, if the plan changes it. -/
theorem PrepareSpec.committed_writer (hp : PrepareSpec now (w.meet faults) p w₁)
    (hc : Consistent w.stored.resource.status)
    (hstored : w'.stored = w.stored.updateStatus (p.status w.stored.resource))
    (h : SwitchPlanned w) : w'.writer = w.planned.membership.writer := by
  have hplan : p.plan = w.planned := hp.plan
  have hf : p.plan.frozen = false := by rw [hplan]; exact h.unfrozen
  have hchanged : membershipChanged w.writer p.plan.membership.writer = true := by
    rw [hplan]
    exact (h.restartsFor hc).2.1
  rw [World.writer, hstored]
  show (p.status w.stored.resource).lastAppliedMembership.writer = _
  rw [Prepared.status, reconcileCommit_membership _ _ _ _ _ _ hf, hchanged, Bool.true_or,
    if_pos rfl, hplan]

/-- **What is committed is what was planned**: the commits that change the writer are those of
attempts whose plan does. -/
theorem PrepareSpec.writerSwitch_iff (hp : PrepareSpec now (w.meet faults) p w₁)
    (hc : Consistent w.stored.resource.status)
    (hstored : w'.stored = w.stored.updateStatus (p.status w.stored.resource)) :
    WriterSwitch w w' ↔ SwitchPlanned w := by
  constructor
  · intro h
    have hwriter : w'.writer = (p.status w.stored.resource).lastAppliedMembership.writer := by
      rw [World.writer, hstored]
      rfl
    rcases p.membership_cases w.stored.resource with hold | ⟨hf, hnew⟩
    · exact absurd (hwriter.trans (congrArg MembershipStatus.writer hold)) h.changed
    · rw [hp.plan] at hf hnew
      refine ⟨h.policy, h.nonempty, hf, fun hsame => h.changed ?_⟩
      exact (hwriter.trans (congrArg MembershipStatus.writer hnew)).trans hsame
  · intro h
    have hwriter := hp.committed_writer hc hstored h
    exact ⟨h.policy, h.nonempty, fun hsame => h.changed (hwriter.symm.trans hsame)⟩

/-- **An applied change of the writer is restarted.** -/
theorem PrepareSpec.restartWritten (hp : PrepareSpec now (w.meet faults) p w₁)
    (hc : Consistent w.stored.resource.status) (h : SwitchPlanned w) (ha : p.applied = true) :
    RestartWritten w.stored.resource w₁.cluster w.writer w.planned.membership.writer := by
  have htargets := hp.restarted ha
  rw [hp.plan] at htargets
  intro name hname deployment hdeployment
  have htarget := writer_mem_targets h.unfrozen h.policy hname
  exact ⟨_, rfl, rfl, htargets (h.restartsFor hc) name htarget deployment hdeployment⟩

/-- An attempt that reaches its commit has applied its plan if that was its decision. -/
theorem applyDecision_eq (h : prepare .scheduled now w = .ok p w') : answer (applyDecision now) w = p.applied := by
  obtain ⟨cached, w₁, h₁, h⟩ := bind_eq_ok.mp h
  obtain ⟨resource, w₂, h₂, h⟩ := bind_eq_ok.mp h
  rw [evaluate, pure_bind] at h
  obtain ⟨planned, w₄, h₄, h⟩ := bind_eq_ok.mp h
  obtain ⟨decision, w₅, h₅, h⟩ := bind_eq_ok.mp h
  obtain ⟨remaining, w₆, -, h⟩ := bind_eq_ok.mp h
  cases h
  have hrun : applyDecision now w = .ok decision.1 w₅ :=
    bind_eq_ok.mpr ⟨cached, w₁, h₁, bind_eq_ok.mpr ⟨resource, w₂, h₂,
      bind_eq_ok.mpr ⟨planned, w₄, h₄, bind_eq_ok.mpr ⟨decision, w₅, h₅, rfl⟩⟩⟩⟩
  rw [answer, hrun]

end Attempts

/-! ## 4. When every change is restarted -/

theorem restartKept_iff_reached {t : World × List Attempt}
    (hc : Consistent t.1.stored.resource.status) (step : Step) :
    RestartKept t step ↔ RestartReached t step := by
  constructor
  · rintro hkept now faults hstep ⟨p, w', hrun⟩ hplanned hpending
    obtain ⟨w₁, hprepare, hcluster, hstored⟩ := reconcile_eq_ok hrun
    have hp := prepare_eq_ok hprepare
    have hwriter := hp.committed_writer hc hstored hplanned
    rw [applyDecision_eq hprepare]
    cases ha : p.applied with
    | true => exact Or.inl rfl
    | false =>
      -- a skipped attempt leaves the cluster, so the restart must have been there
      right
      have hsame : w'.cluster = t.1.cluster :=
        hcluster.trans (congrArg (fun v => v.2.1) (hp.skipped ha).2)
      rw [← hwriter] at hpending
      rw [← hsame, ← hwriter]
      exact hkept now faults p w' hstep hrun ((hp.writerSwitch_iff hc hstored).mpr hplanned)
        (Or.inr hpending)
  · intro hreached now faults p w' hstep hrun hswitch hrelabelled
    obtain ⟨w₁, hprepare, hcluster, hstored⟩ := reconcile_eq_ok hrun
    have hp := prepare_eq_ok hprepare
    have hplanned := (hp.writerSwitch_iff hc hstored).mp hswitch
    have hwriter := hp.committed_writer hc hstored hplanned
    rw [hwriter]
    cases ha : p.applied with
    | true =>
      rw [hcluster]
      exact hp.restartWritten hc hplanned ha
    | false =>
      have hpending := hrelabelled.resolve_left (by simp [ha])
      have hsame : w'.cluster = t.1.cluster :=
        hcluster.trans (congrArg (fun v => v.2.1) (hp.skipped ha).2)
      rw [hwriter] at hpending
      rw [hsame]
      refine (hreached now faults hstep ⟨p, w', hrun⟩ hplanned hpending).resolve_left ?_
      rw [applyDecision_eq hprepare, ha]
      decide

/-- **When no restart is lost.**  Along a run from a new resource, every committed change of the
writer has its restart written, exactly when every attempt that finishes a change begun by a
failed one decides to apply its plan again or finds the restart written. -/
theorem restart_kept_iff (name : String) (spec : PgBouncerAuroraSpec) (cluster : Cluster)
    (steps : List Step) :
    Machine.Along attempted RestartKept (World.initial name spec cluster, []) steps ↔
      Machine.Along attempted RestartReached (World.initial name spec cluster, []) steps :=
  Machine.Along.congr (I := fun t => Consistent t.1.stored.resource.status)
    (fun _ step hc => restartKept_iff_reached hc step)
    (fun t step hc _ => (next_move t.1 step).consistent hc) consistent_empty steps

/-! ## 5. A failover that loses its restart -/

/-- A discovery that lists one instance, the writer. -/
def discoverWriter (writer : String) (now : Int) : Step :=
  .discover (fun resource => .ok (Discovery.Provider.discover
    { rows := some (.ok [⟨writer, "MASTER_SESSION_ID"⟩]), metadata := none } resource)) now now []

def monitorHealthy (name : String) (now : Int) : Step :=
  .monitor (fun _ _ => .ok ((∅ : StringMap HealthStatus).insert name { healthy := true })) now now []

def instancePod (name : String) : Pod where
  labels := (((∅ : StringMap String).insert labelManagedBy managedByValue).insert labelCluster
    (clusterLabelValue "db")).insert labelInstance name
  ready := true

/-- A resource with a pod for each of two instances. -/
def failoverStart : World :=
  World.initial "db" { discovery := { domainName := "rds" }, monitor := { recoveryThreshold := 1 } }
    { pods := ((∅ : StringMap Pod).insert "pod-a" (instancePod "a")).insert "pod-b"
        (instancePod "b") }

/-- `a` is applied as the writer, and then replaced by `b`. -/
def failoverSteps : List Step :=
  [discoverWriter "a" (10 * second), monitorHealthy "a" (20 * second), .reconcile (30 * second) [],
    discoverWriter "b" (40 * second), monitorHealthy "b" (50 * second)]

/-- Every call of the attempt goes through, up to the first one of the restart. -/
def failingRestart : List (Option Fault) :=
  List.replicate 19 none ++ [some ⟨.other "timeout", by decide⟩]

theorem restartReached_of_no_pending {t : World × List Attempt} (h : pendingWriters t.2 = [])
    (step : Step) : RestartReached t step := by
  intro now faults hstep hrun hplanned hpending
  rw [h] at hpending
  cases hpending

/-- The attempt fails between the two pods: `b` has the label of the writer, and `a` has it still. -/
def failingRelabelling : List (Option Fault) :=
  List.replicate 16 none ++ [some ⟨.other "timeout", by decide⟩]

/-- A failover whose first attempt fails before its labels are exact has its restart from the
second. -/
theorem restart_kept_by_second_attempt :
    pendingWriters (Machine.run attempted (failoverStart, [])
        (failoverSteps ++ [.reconcile (60 * second) failingRelabelling])).2 = [["b"]] ∧
      Machine.Along attempted RestartKept (failoverStart, []) (failoverSteps ++
        [.reconcile (60 * second) failingRelabelling, .reconcile (70 * second) []]) := by
  refine ⟨by decide +kernel, (restart_kept_iff _ _ _ _).mpr ⟨restartReached_of_no_pending rfl _,
    restartReached_of_no_pending rfl _, restartReached_of_no_pending rfl _, ?_, ?_,
    restartReached_of_no_pending (by decide +kernel) _, ?_, trivial⟩⟩
  · intro now faults hstep
    cases hstep
  · intro now faults hstep
    cases hstep
  · -- the second attempt finds the label of `a`, and applies again
    intro now faults hstep _ _ _
    cases hstep
    exact Or.inl (by decide +kernel)

/-- A check that an attempt commits a change of the writer which a failed one has begun, does not
apply, and leaves a Deployment of the old writer without any restart annotation. -/
def losesRestart (t : World × List Attempt) (now : Int) (old : String) : Bool :=
  match reconcile .scheduled now (t.1.meet []) with
  | .ok p w' => !p.applied && t.1.writer == [old] && w'.writer != [old] &&
      effectiveWriterChangeConnectionHandling t.1.stored.resource != .keepExisting &&
      (pendingWriters t.2).contains w'.writer &&
      (w'.cluster.deployments[instanceResourceName t.1.stored.resource.name old]?).any
        fun deployment => deployment.template.annotations[restartedAtAnnotationKey]? == none
  | .error _ _ => false

theorem not_restartKept_of_loses {t : World × List Attempt} {now : Int} (old : String)
    (h : losesRestart t now old = true) : ¬ RestartKept t (.reconcile now []) := by
  intro hkept
  unfold losesRestart at h
  cases hrun : reconcile .scheduled now (t.1.meet []) with
  | error e w' => rw [hrun] at h; cases h
  | ok p w' =>
    rw [hrun] at h
    simp only [Bool.and_eq_true, beq_iff_eq, bne_iff_ne, Option.any_eq_true,
      List.contains_iff_mem] at h
    obtain ⟨⟨⟨⟨⟨-, hold⟩, hnew⟩, hpolicy⟩, hpending⟩, deployment, hdeployment, hnone⟩ := h
    have hwritten := hkept now [] p w' rfl hrun
      ⟨hpolicy, by simp [hold], by rw [hold]; exact hnew⟩ (Or.inr hpending)
    obtain ⟨payload, -, -, hcarries⟩ := hwritten old (by simp [hold]) deployment hdeployment
    rw [hnone] at hcarries
    cases hcarries

/-- **A lost restart.**  The first attempt at the failover relabels the pods and fails at the
restart; the second one finds no drift, does not apply, and commits the new writer. -/
theorem restart_lost :
    ¬ RestartKept (Machine.run attempted (failoverStart, [])
      (failoverSteps ++ [.reconcile (60 * second) failingRestart])) (.reconcile (70 * second) []) :=
  not_restartKept_of_loses "a" (by decide +kernel)

end Controller

end AuroraOperator

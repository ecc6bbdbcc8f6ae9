/-
# Two ways to run the operator

With a scheduler, a discovery job and a monitor job store what they see in the status, and a
Reconcile plans on what is stored.  Without one, `evaluate` makes a Reconcile discover and probe by
itself, and plan on what it sees.  The first way goes twice through the status: the topology is
written by one commit and read by the next job, and the health is stored entry by entry, merged
with the thresholds, and read back.

`standalone_plans_as_jobs`: nothing is lost on the way.  When a probe is due, the plan of a
standalone Reconcile is the plan a scheduled one has after the two jobs, frozen or not, whether
discovery was due, failed or was papered over, and whether the probe answered or not.
-/
import AuroraOperator.Controller.Planning
import AuroraOperator.Controller.Coherence
import AuroraOperator.Controller.WriterChange
import AuroraOperator.Controller.Success
import AuroraOperator.Monitor

namespace AuroraOperator

namespace Controller

open Planner Render Program Monitor

/-! ## 1. What a plan reads -/

/-- The final plan on what a Reconcile has evaluated, in either mode. -/
def planOn (resource : PgBouncerAurora) (evaluation : Evaluation)
    (missing : List MissingInstanceStatus) (pods : List Pod) : Output :=
  applyZoneAwareConflictPolicy resource
    (applyWriterFailoverFastPath resource evaluation.discovery (readyPodCounts pods)
      (plan (planInput resource evaluation.discovery evaluation.health evaluation.cachedHealth
        missing)))

theorem finalPlan_eq_planOn (resource : PgBouncerAurora) (cluster : Cluster) :
    finalPlan resource cluster = planOn resource (scheduledEvaluation resource)
      resource.status.missingInstances (managedPods resource cluster) := rfl

section Reads

variable {resource : PgBouncerAurora} {status : Status} {evaluation : Evaluation}
  {missing : List MissingInstanceStatus} {pods : List Pod}

/-- Of the status, the planner reads the instances and the last applied membership. -/
theorem plan_status (hinstances : status.instances = resource.status.instances)
    (hmembers : status.lastAppliedMembership = resource.status.lastAppliedMembership)
    (discovery : DiscoveryResult) (health : StringMap HealthStatus) (cachedHealth : Bool) :
    plan (planInput { resource with status := status } discovery health cachedHealth missing)
      = plan (planInput resource discovery health cachedHealth missing) := by
  obtain ⟨name, nameSpace, uid, generation, spec, stored⟩ := resource
  obtain ⟨⟩ := status
  obtain ⟨⟩ := stored
  dsimp only at hinstances hmembers
  subst hinstances hmembers
  rfl

/-- Of the missing list it reads names and counts, which are stored as they are. -/
theorem plan_marshal_missing (input : Input) :
    plan { input with missingInstances := input.missingInstances.map MissingInstanceStatus.marshal }
      = plan input := by
  have hprevious (previous : List String) (threshold : Int32) :
      previousMissingMembershipBeforeRemoveThreshold previous
          (input.missingInstances.map MissingInstanceStatus.marshal) threshold
        = previousMissingMembershipBeforeRemoveThreshold previous input.missingInstances
          threshold := by
    rw [previousMissingMembershipBeforeRemoveThreshold, List.filter_map, List.map_map]
    rfl
  have hpreserved (readers : List String) :
      preservedMissingReaders input.resource readers
          (input.missingInstances.map MissingInstanceStatus.marshal)
        = preservedMissingReaders input.resource readers input.missingInstances := by
    rw [preservedMissingReaders, List.filter_map, List.map_map]
    rfl
  have hobserved : observedPlan
      { input with missingInstances := input.missingInstances.map MissingInstanceStatus.marshal }
        = observedPlan input := observedPlan_congr rfl fun _ _ => rfl
  unfold plan
  rw [hobserved]
  dsimp only
  unfold stabilizeWriterMembership preserveMissingReaderMembership stabilizeReaderMembership
    previousMissingWriterBeforeRemoveThreshold previousMissingReaderBeforeRemoveThreshold
  rw [List.length_map]
  simp only [hprevious, hpreserved]

/-- The rest of a decision reads the plan, the verdict and the instances of the discovery, and the
writer applied last. -/
theorem planOn_congr {evaluation' : Evaluation} {missing' : List MissingInstanceStatus}
    (htrusted : evaluation'.discovery.trusted = evaluation.discovery.trusted)
    (hinstances : evaluation'.discovery.instances = evaluation.discovery.instances)
    (hmembers : status.lastAppliedMembership = resource.status.lastAppliedMembership)
    (hplan : plan (planInput { resource with status := status } evaluation'.discovery
        evaluation'.health evaluation'.cachedHealth missing')
      = plan (planInput resource evaluation.discovery evaluation.health evaluation.cachedHealth
        missing)) :
    planOn { resource with status := status } evaluation' missing' pods
      = planOn resource evaluation missing pods := by
  unfold planOn
  rw [hplan]
  generalize plan (planInput resource evaluation.discovery evaluation.health
    evaluation.cachedHealth missing) = planned
  have hcandidate :
      failoverCandidate { resource with status := status } evaluation'.discovery planned
        = failoverCandidate resource evaluation.discovery planned := by
    simp only [failoverCandidate, htrusted, hinstances, hmembers]
  unfold applyWriterFailoverFastPath
  rw [hcandidate]
  rfl

/-- An untrusted discovery freezes what was applied last. -/
theorem planOn_untrusted (h : evaluation.discovery.trusted = false) :
    planOn resource evaluation missing pods = frozenPlan resource := by
  have hplan : plan (planInput resource evaluation.discovery evaluation.health
      evaluation.cachedHealth missing) = frozenPlan resource := by
    rw [plan, if_pos (by simp [planInput, h])]
    rfl
  have hnone : failoverCandidate resource evaluation.discovery (frozenPlan resource) = none := by
    simp [failoverCandidate, frozenPlan]
  rw [planOn, hplan, applyWriterFailoverFastPath, hnone]
  exact zonePolicy_frozen rfl

end Reads

/-! ## 2. What a Reconcile decides -/

theorem planFor_planOn {resource : PgBouncerAurora} {evaluation : Evaluation}
    {missing : List MissingInstanceStatus} {out : Output} {w w' : World}
    (h : planFor resource evaluation missing w = .ok out w') :
    applyZoneAwareConflictPolicy resource out
      = planOn resource evaluation missing (managedPods resource w.cluster) := by
  unfold planOn
  set planned := plan (planInput resource evaluation.discovery evaluation.health
    evaluation.cachedHealth missing) with hplanned
  have hin : plan
      { resource := resource
        discoveryTrusted := evaluation.discovery.trusted
        discovered := evaluation.discovery.instances
        health := evaluation.health
        cachedHealth := evaluation.cachedHealth
        missingInstances := missing } = planned := rfl
  unfold planFor at h
  rw [hin] at h
  congr 1
  cases hcandidate : failoverCandidate resource evaluation.discovery planned with
  | none =>
    rw [hcandidate] at h
    injection h with hout
    simp only [applyWriterFailoverFastPath, hcandidate, ← hout]
  | some newWriter =>
    rw [hcandidate] at h
    obtain ⟨pods, w₁, hlist, hout⟩ := bind_eq_ok.mp h
    cases hout
    rw [listPods_eq_ok hlist]
    rfl

theorem evaluate_keeps (mode : Mode) (resource : PgBouncerAurora) (now : Int) :
    Keeps World.visible (evaluate mode resource now) := by
  unfold evaluate
  split
  · exact Keeps.pure _
  · split
    · exact fun _ => rfl
    · rename_i check evaluation _
      unfold healthFor
      refine Keeps.ite _ (Keeps.pure _) ?_
      split
      · exact Keeps.pure _
      · refine Keeps.bind ?_ fun run => ?_
        · unfold shouldRunMonitor
          exact Keeps.ite _ (Keeps.pure _) (Keeps.bind (listPods_keeps _) fun _ => Keeps.pure _)
        · refine Keeps.ite _ ?_ (Keeps.pure _)
          split <;> exact Keeps.pure _

/-- The missing instances an evaluation goes with. -/
def missingFor (resource : PgBouncerAurora) (evaluation : Evaluation) (now : Int) :
    List MissingInstanceStatus :=
  if evaluation.discoveryRan then missingInstancesFor resource evaluation.discovery true now
  else resource.status.missingInstances

/-- In either mode, the plan is a function of the evaluation. -/
theorem prepare_plan {mode : Mode} {now : Int} {w w' : World} {p : Prepared}
    (h : prepare mode now w = .ok p w') :
    (∃ v v', evaluate mode w.stored.resource now v = .ok p.evaluation v') ∧
    p.plan = planOn w.stored.resource p.evaluation
      (missingFor w.stored.resource p.evaluation now)
      (managedPods w.stored.resource w.cluster) := by
  obtain ⟨cached, w₁, h₁, h⟩ := bind_eq_ok.mp h
  obtain ⟨resource, w₂, h₂, h⟩ := bind_eq_ok.mp h
  obtain ⟨evaluation, w₃, h₃, h⟩ := bind_eq_ok.mp h
  obtain ⟨planned, w₄, h₄, h⟩ := bind_eq_ok.mp h
  obtain ⟨decision, w₅, -, h⟩ := bind_eq_ok.mp h
  obtain ⟨remaining, w₆, -, h⟩ := bind_eq_ok.mp h
  cases h
  have v₁ := getResource_keeps.of_ok h₁
  have v₃ := ((evaluate_keeps _ _ _).of_ok h₃).trans ((getResource_keeps.of_ok h₂).trans v₁)
  have hresource : resource = w.stored.resource := by
    rw [getResource_eq_ok h₂]
    exact congrArg (fun v => v.1.resource) v₁
  subst hresource
  have hcluster : w₃.cluster = w.cluster := congrArg (fun v => v.2.1) v₃
  refine ⟨⟨w₂, w₃, h₃⟩, ?_⟩
  rw [← hcluster]
  exact planFor_planOn h₄

/-- What a due probe makes of a discovery. -/
def probed (check : Check) (resource : PgBouncerAurora) (evaluation : Evaluation) : Evaluation :=
  if !evaluation.discovery.trusted then { evaluation with cachedHealth := false }
  else match check resource (activeDiscoveryInstances resource evaluation.discovery.instances) with
    | .error err =>
      { evaluation with health := healthFromStatus resource.status.instances, monitorErr := err }
    | .ok health => { evaluation with health := health, monitorRan := true, cachedHealth := false }

theorem evaluate_standalone {discover : Discover} {check : Check} {resource : PgBouncerAurora}
    {now : Int} {evaluation : Evaluation} {v v' : World} (hdue : monitorDue resource now = true)
    (h : evaluate (.standalone discover (some check)) resource now v = .ok evaluation v') :
    ∃ found, discoveryFor discover resource now = .ok found ∧
      evaluation = probed check resource found := by
  cases hfound : discoveryFor discover resource now with
  | error err =>
    simp only [evaluate, hfound] at h
    cases h
  | ok found =>
    simp only [evaluate, hfound] at h
    refine ⟨found, rfl, ?_⟩
    have hrun : shouldRunMonitor resource found now = pure true := by
      rw [shouldRunMonitor, if_pos (by simp [hdue])]
    unfold healthFor at h
    unfold probed
    dsimp only at h
    split at h
    · rename_i huntrusted
      rw [if_pos huntrusted]
      cases h
      rfl
    · rename_i htrusted
      rw [if_neg htrusted]
      rw [hrun, pure_bind, if_pos rfl] at h
      cases hanswer : check resource
          (activeDiscoveryInstances resource found.discovery.instances) with
      | error err =>
        simp only [hanswer] at h
        cases h
        rfl
      | ok health =>
        simp only [hanswer] at h
        cases h
        rfl

/-! ## 3. The discovery job -/

/-- A probe that looks at the spec and at the enabled instances only. -/
def Impartial (check : Check) : Prop :=
  ∀ (resource : PgBouncerAurora) (status : Status) (instances : List InstanceObservation),
    check { resource with status := status } instances
      = check resource (activeDiscoveryInstances resource instances)

/-- `ProbeMonitor.Check` is one: it drops disabled instances itself and reads no status. -/
theorem start_impartial (job : Job) (status : Status) :
    Job.start { job with resource := { job.resource with status := status } }
      = Job.start { job with instances := activeDiscoveryInstances job.resource job.instances } := by
  have hsame : enabledInstances { job.resource with status := status } job.instances
      = enabledInstances job.resource (activeDiscoveryInstances job.resource job.instances) := by
    simp [enabledInstances, activeDiscoveryInstances, List.filter_filter]
  simp only [Job.start, hsame]
  rfl

/-- The status holds what was discovered, with times as they are stored. -/
structure Holds (resource : PgBouncerAurora) (found : Evaluation) (now : Int) (status : Status) :
    Prop where
  instances : status.instances = resource.status.instances
  members : status.lastAppliedMembership = resource.status.lastAppliedMembership
  generation : status.observedGeneration = resource.status.observedGeneration
  monitored : status.lastMonitorTime = resource.status.lastMonitorTime
  missing : status.missingInstances
    = (missingFor resource found now).map MissingInstanceStatus.marshal
  verdict : (cachedDiscovery { resource with status := status }).trusted = found.discovery.trusted
  topology : found.discovery.trusted = true →
    status.lastKnownTopology = topologyStatus found.discovery.instances ∧
    ∀ hash, status.topologyHash = some hash →
      hash = hashObject (topologyStatus found.discovery.instances)

section Jobs

variable {resource : PgBouncerAurora} {found : Evaluation} {status : Status} {now : Int}

/-- Without failures a job that has work commits it. -/
theorem runJob_commits {W : Type} {take : PgBouncerAurora → Option W}
    {commit : W → PgBouncerAurora → Option Status} {w : World} {work : W} (hw : w.faults = [])
    (htake : take w.stored.resource = some work)
    (hcommit : commit work w.stored.resource = some status) :
    (final (runJob take commit) w).stored = w.stored.updateStatus status := by
  have hyes := answer_runJob hw htake hcommit
  rcases runJob_cases take commit w with ⟨-, work', status', htake', hcommit', hstored⟩ | ⟨hno, -⟩
  · obtain rfl : work = work' := Option.some.inj (htake.symm.trans htake')
    obtain rfl : status = status' := Option.some.inj (hcommit.symm.trans hcommit')
    exact hstored
  · rw [hyes] at hno
    cases hno

theorem runJob_idle {W : Type} {take : PgBouncerAurora → Option W}
    {commit : W → PgBouncerAurora → Option Status} {w : World}
    (htake : take w.stored.resource = none) :
    (final (runJob take commit) w).stored = w.stored := by
  rcases runJob_cases take commit w with ⟨-, work, status, hwork, -⟩ | ⟨-, hstored⟩
  · rw [htake] at hwork
    cases hwork
  · exact hstored

/-- A due discovery is the one the job would go on with. -/
theorem discoveryFor_due {discover : Discover} (hdue : discoveryDue resource now = true)
    (hfound : discoveryFor discover resource now = .ok found) :
    found.discovery = (effectiveDiscovery discover resource).1 ∧ found.discoveryRan = true := by
  unfold discoveryFor at hfound
  rw [if_pos hdue] at hfound
  unfold effectiveDiscovery
  cases hanswer : discover resource with
  | error err =>
    rw [hanswer] at hfound
    cases hfound
  | ok d =>
    rw [hanswer] at hfound
    dsimp only at hfound ⊢
    split at hfound
    · rename_i htrusted
      cases hfound
      rw [if_pos htrusted]
      exact ⟨rfl, rfl⟩
    · rename_i huntrusted
      cases hfound
      rw [if_neg huntrusted]
      exact ⟨rfl, rfl⟩

/-- Otherwise it is the cached one, but for the text of the reason. -/
theorem discoveryFor_not_due {discover : Discover} (hdue : discoveryDue resource now = false)
    (hfound : discoveryFor discover resource now = .ok found) :
    found.discoveryRan = false ∧
    found.discovery.trusted = lastDiscoveryTrusted resource ∧
    (found.discovery.trusted = true →
      found.discovery.instances = topologyObservations resource.status.lastKnownTopology) := by
  unfold discoveryFor at hfound
  rw [if_neg (by simp [hdue])] at hfound
  split at hfound
  · rename_i huntrusted
    cases hfound
    refine ⟨rfl, ?_, fun h => by cases h⟩
    simpa using huntrusted.symm
  · rename_i htrusted
    cases hfound
    have hlast : lastDiscoveryTrusted resource = true := by simpa using htrusted
    exact ⟨rfl, hlast.symm, fun _ => rfl⟩

/-- A stored verdict counts for as much as the topology it is about. -/
theorem verdict_of_conditions
    (hverdict : discoveryVerdict status.conditions = found.discovery.trusted)
    (htopology : found.discovery.trusted = true →
      status.lastKnownTopology = topologyStatus found.discovery.instances)
    (hsome : found.discovery.trusted = true → found.discovery.instances ≠ []) :
    (cachedDiscovery { resource with status := status }).trusted = found.discovery.trusted := by
  rw [Bool.eq_iff_iff, cachedDiscovery_trusted_iff]
  refine ⟨fun h => hverdict.symm.trans h.1, fun h => ⟨hverdict.trans h, ?_⟩⟩
  show status.lastKnownTopology ≠ []
  rw [htopology h]
  simpa [topologyStatus] using hsome h

/-- What a discovery commit stores. -/
theorem holds_of_commit {discovery : DiscoveryResult} {failed : Bool}
    (hcanonical : resource.status.marshal = resource.status) (hran : found.discoveryRan = true)
    (hdiscovery : found.discovery = discovery)
    (hsome : found.discovery.trusted = true → found.discovery.instances ≠ [])
    (h : discoveryCommit discovery (missingInstancesFor resource discovery true now) failed now
      resource = some status) : Holds resource found now status.marshal := by
  subst hdiscovery
  obtain ⟨hmembers, -, hinstances, hgeneration, -, hverdict⟩ := discoveryCommit_frame h
  have htopology (ht : found.discovery.trusted = true) := discoveryCommit_trusted h ht
  have hmissing : status.missingInstances = missingFor resource found now := by
    rw [missingFor, if_pos hran]
    cases ht : found.discovery.trusted with
    | true => exact (htopology ht).2.1
    | false => rw [(discoveryCommit_untrusted h ht).2.1, missingInstancesFor, if_pos (by simp [ht])]
  exact
    { instances := hinstances
      members := hmembers
      generation := hgeneration
      monitored := by
        have htime := congrArg Status.lastMonitorTime hcanonical
        exact (congrArg (Option.map wholeSeconds) (discoveryCommit_lastMonitorTime h)).trans htime
      missing := congrArg (List.map MissingInstanceStatus.marshal) hmissing
      verdict := verdict_of_conditions ((discoveryVerdict_marshal _).trans hverdict)
        (fun ht => (htopology ht).1) hsome
      topology := fun ht => by
        refine ⟨(htopology ht).1, fun hash hhash => ?_⟩
        rw [Status.marshal_topologyHash, (htopology ht).2.2] at hhash
        exact (Option.some.inj hhash).symm }

/-- **After a discovery job the status holds what a standalone Reconcile would have seen.** -/
theorem holds_of_discovery {discover : Discover} {w : World} (hw : w.faults = [])
    (hfound : discoveryFor discover w.stored.resource now = .ok found)
    (hsome : found.discovery.trusted = true → found.discovery.instances ≠ [])
    (hclock : isNewer w.stored.resource.status.lastDiscoveryTime now = false)
    (hhashed : TopologyHashed w.stored.resource.status) :
    ∃ status, Holds w.stored.resource found now status ∧
      (final (runDiscoveryJob discover now now) w).stored.resource
        = { w.stored.resource with status := status } := by
  cases hdue : discoveryDue w.stored.resource now with
  | false =>
    have hstored : (final (runDiscoveryJob discover now now) w).stored = w.stored :=
      runJob_idle (by rw [takeDiscovery, if_neg (by simp [hdue])])
    obtain ⟨hran, hverdict, hinstances⟩ := discoveryFor_not_due hdue hfound
    have htopology (ht : found.discovery.trusted = true) :
        w.stored.resource.status.lastKnownTopology = topologyStatus found.discovery.instances := by
      rw [hinstances ht, topologyStatus_topologyObservations]
    refine ⟨w.stored.resource.status, ?_, congrArg StoredResource.resource hstored⟩
    exact
      { instances := rfl
        members := rfl
        generation := rfl
        monitored := rfl
        missing := by
          rw [missingFor, if_neg (by simp [hran])]
          exact w.stored.marshal_missingInstances.symm
        verdict := verdict_of_conditions hverdict.symm htopology hsome
        topology := fun ht => ⟨htopology ht, fun hash hhash => by
          rw [← htopology ht]
          exact hhashed.hashed hash hhash⟩ }
  | true =>
    obtain ⟨hdiscovery, hran⟩ := discoveryFor_due hdue hfound
    set work := discoveryWork discover w.stored.resource now with hwork
    have htake : takeDiscovery discover now now w.stored.resource = some work := if_pos hdue
    obtain ⟨status, hstatus⟩ : ∃ status, work.commit w.stored.resource = some status :=
      Option.isSome_iff_exists.mp (discoveryCommit_eq_some.mpr hclock)
    have hstored : (final (runDiscoveryJob discover now now) w).stored
        = w.stored.updateStatus status := runJob_commits hw htake hstatus
    exact ⟨status.marshal, holds_of_commit w.stored.canonical hran hdiscovery hsome hstatus,
      congrArg StoredResource.resource hstored⟩

/-! ## 4. The monitor job -/

theorem discoveryFor_cachedHealth {discover : Discover}
    (hfound : discoveryFor discover resource now = .ok found) : found.cachedHealth = true := by
  unfold discoveryFor at hfound
  split at hfound
  · split at hfound
    · cases hfound
    · split at hfound <;> (cases hfound; rfl)
  · split at hfound <;> (cases hfound; rfl)

@[simp] theorem probed_discovery (check : Check) (resource : PgBouncerAurora) (found : Evaluation) :
    (probed check resource found).discovery = found.discovery := by
  unfold probed
  split
  · rfl
  · split <;> rfl

@[simp] theorem missingFor_probed (check : Check) (resource : PgBouncerAurora) (found : Evaluation)
    (now : Int) : missingFor resource (probed check resource found) now
      = missingFor resource found now := by
  have hran : (probed check resource found).discoveryRan = found.discoveryRan := by
    unfold probed
    split
    · rfl
    · split <;> rfl
  rw [missingFor, missingFor, hran, probed_discovery]

/-- The planner reads the verdict and the instances of a discovery. -/
theorem planInput_congr {discovery discovery' : DiscoveryResult}
    (htrusted : discovery'.trusted = discovery.trusted)
    (hinstances : discovery'.instances = discovery.instances) (health : StringMap HealthStatus)
    (cachedHealth : Bool) (missing : List MissingInstanceStatus) :
    planInput resource discovery' health cachedHealth missing
      = planInput resource discovery health cachedHealth missing := by
  rw [planInput, planInput, htrusted, hinstances]

theorem Holds.discovered (h : Holds resource found now status)
    (ht : found.discovery.trusted = true) :
    (cachedDiscovery { resource with status := status }).instances = found.discovery.instances := by
  rw [cachedDiscovery_instances (h.verdict.trans ht), (h.topology ht).1,
    topologyObservations_topologyStatus]

/-- A plan on what is held is the plan on what was discovered. -/
theorem Holds.plan_eq (h : Holds resource found now status) (ht : found.discovery.trusted = true)
    (health : StringMap HealthStatus) (cachedHealth : Bool) :
    plan (planInput { resource with status := status }
        (cachedDiscovery { resource with status := status }) health cachedHealth
        status.missingInstances)
      = plan (planInput resource found.discovery health cachedHealth
          (missingFor resource found now)) := by
  calc plan (planInput { resource with status := status }
        (cachedDiscovery { resource with status := status }) health cachedHealth
        status.missingInstances)
      = plan (planInput { resource with status := status } found.discovery health cachedHealth
          ((missingFor resource found now).map MissingInstanceStatus.marshal)) := by
        rw [planInput_congr h.verdict (h.discovered ht), h.missing]
    _ = plan (planInput { resource with status := status } found.discovery health cachedHealth
          (missingFor resource found now)) := plan_marshal_missing (planInput _ _ _ _ _)
    _ = plan (planInput resource found.discovery health cachedHealth
          (missingFor resource found now)) := plan_status h.instances h.members _ _ _

/-- The monitor job plans as a standalone Reconcile does before its fast path. -/
theorem Holds.monitorWork_plan {check : Check} (hcheck : Impartial check)
    (h : Holds resource found now status) (ht : found.discovery.trusted = true)
    (hcached : found.cachedHealth = true) :
    (∃ health cachedHealth, (monitorWork check { resource with status := status } now).plan
      = plan (planInput { resource with status := status }
          (cachedDiscovery { resource with status := status }) health cachedHealth
          status.missingInstances)) ∧
    (monitorWork check { resource with status := status } now).plan
      = plan (planInput resource found.discovery (probed check resource found).health
          (probed check resource found).cachedHealth (missingFor resource found now)) := by
  have hsame : check { resource with status := status }
      (cachedDiscovery { resource with status := status }).instances
        = check resource (activeDiscoveryInstances resource found.discovery.instances) := by
    rw [hcheck, h.discovered ht]
  cases hanswer : check resource (activeDiscoveryInstances resource found.discovery.instances) with
  | error err =>
    rw [monitorWork_error (hsame.trans hanswer)]
    refine ⟨⟨_, _, rfl⟩, ?_⟩
    have hprobed : probed check resource found
        = { found with
            health := healthFromStatus resource.status.instances, monitorErr := err } := by
      rw [probed, if_neg (by simp [ht]), hanswer]
    rw [hprobed, ← hcached, ← h.plan_eq ht]
    dsimp only
    rw [← h.instances, hcached]
    rfl
  | ok health =>
    rw [monitorWork_ok (hsame.trans hanswer)]
    refine ⟨⟨_, _, rfl⟩, ?_⟩
    have hprobed : probed check resource found
        = { found with health := health, monitorRan := true, cachedHealth := false } := by
      rw [probed, if_neg (by simp [ht]), hanswer]
    rw [hprobed, ← h.plan_eq ht]
    rfl

/-- A monitor job leaves the discovery as it is held. -/
theorem Holds.discovery_committed {check : Check} (h : Holds resource found now status)
    (ht : found.discovery.trusted = true) {next : Status}
    (hcommit : (monitorWork check { resource with status := status } now).commit
      { resource with status := status } = some next) :
    (cachedDiscovery { resource with status := next.marshal }).trusted = true ∧
    (cachedDiscovery { resource with status := next.marshal }).instances
      = found.discovery.instances := by
  obtain ⟨htopology, -, -, -, -, -, hverdict⟩ := monitorCommit_frame hcommit
  have hheld := h.verdict.trans ht
  have htrusted : (cachedDiscovery { resource with status := next.marshal }).trusted = true := by
    refine cachedDiscovery_trusted_iff.mpr ⟨?_, ?_⟩
    · refine (discoveryVerdict_marshal next.conditions).trans (hverdict.trans ?_)
      rw [monitorWork_discovery]
      exact hheld
    · show next.lastKnownTopology ≠ []
      rw [htopology]
      exact (cachedDiscovery_trusted_iff.mp hheld).2
  refine ⟨htrusted, ?_⟩
  rw [cachedDiscovery_instances htrusted, ← topologyObservations_topologyStatus
    found.discovery.instances, ← (h.topology ht).1]
  exact congrArg topologyObservations htopology

/-- The instances a monitor job stores bring its plan back. -/
theorem Holds.finalPlan_committed {check : Check} (hcheck : Impartial check)
    (h : Holds resource found now status) (ht : found.discovery.trusted = true)
    (hcached : found.cachedHealth = true)
    (hnodup : (found.discovery.instances.map (·.name)).Nodup)
    (hnamed : ∀ o ∈ found.discovery.instances, o.name ≠ "") {next : Status}
    (hcommit : (monitorWork check { resource with status := status } now).commit
      { resource with status := status } = some next) (cluster : Cluster) :
    finalPlan { resource with status := next.marshal } cluster
      = planOn resource (probed check resource found) (missingFor resource found now)
          (managedPods resource cluster) := by
  obtain ⟨htrusted, hinstances⟩ := h.discovery_committed ht hcommit
  obtain ⟨⟨health, cachedHealth, hown⟩, hprobed⟩ := h.monitorWork_plan hcheck ht hcached
  obtain ⟨-, -, hstatus⟩ := monitorCommit_eq_some.mp hcommit
  set held : PgBouncerAurora := { resource with status := status } with hheld
  set entries := (monitorWork check held now).plan.instances with hentries
  have hmembers : next.marshal.lastAppliedMembership = resource.status.lastAppliedMembership := by
    rw [hstatus]
    exact h.members
  have hmissing : next.marshal.missingInstances
      = status.missingInstances.map MissingInstanceStatus.marshal := by rw [hstatus]; rfl
  have hstored : next.marshal.instances = instanceStatus entries := by rw [hstatus]; rfl
  rw [finalPlan_eq_planOn]
  refine planOn_congr ?_ ?_ hmembers ?_
  · rw [probed_discovery, ht]
    exact htrusted
  · rw [probed_discovery]
    exact hinstances
  -- the plan on the stored instances is the plan they are from
  rw [probed_discovery, ← hprobed]
  calc plan (planInput { resource with status := next.marshal }
        (cachedDiscovery { resource with status := next.marshal })
        (healthFromStatus next.marshal.instances) true next.marshal.missingInstances)
      = plan (planInput { resource with status := next.marshal } (cachedDiscovery held)
          (healthFromStatus (instanceStatus entries)) true
          (status.missingInstances.map MissingInstanceStatus.marshal)) := by
        rw [planInput_congr (htrusted.trans (h.verdict.trans ht).symm)
          (hinstances.trans (h.discovered ht).symm), hstored, hmissing]
    _ = plan (planInput { resource with status := next.marshal } (cachedDiscovery held)
          (healthFromStatus (instanceStatus entries)) true status.missingInstances) :=
        plan_marshal_missing (planInput _ _ _ _ _)
    _ = plan (planInput (commitInstances held entries) (cachedDiscovery held)
          (healthFromStatus (instanceStatus entries)) true status.missingInstances) :=
        @plan_status (commitInstances held entries) next.marshal _ hstored
          (hmembers.trans h.members.symm) _ _ _
    _ = (monitorWork check held now).plan := by
        have hagain := @plan_on_own_instances held (cachedDiscovery held) health cachedHealth
          status.missingInstances (h.verdict.trans ht)
        rw [h.discovered ht, ← hown] at hagain
        exact hagain hnodup hnamed

end Jobs

/-! ## 5. The two modes -/

/-- A discovery job and a monitor job, one after the other. -/
def afterJobs (discover : Discover) (check : Check) (now : Int) (w : World) : World :=
  final (runMonitorJob check now now) (final (runDiscoveryJob discover now now) w)

/-- What makes the two modes comparable: the clock has not gone back, the stored hash is of the
stored topology, and a discovery that is trusted has found instances with names of their own. -/
structure Comparable (now : Int) (status : Status) (discovery : DiscoveryResult) : Prop where
  discoveryClock : isNewer status.lastDiscoveryTime now = false
  monitorClock : isNewer status.lastMonitorTime now = false
  hashed : TopologyHashed status
  found : discovery.trusted = true → discovery.instances ≠ []
  distinct : (discovery.instances.map (·.name)).Nodup
  named : ∀ o ∈ discovery.instances, o.name ≠ ""

theorem runJob_succeeds {W : Type} (take : PgBouncerAurora → Option W)
    (commit : W → PgBouncerAurora → Option Status) : Succeeds (runJob take commit) := by
  refine Succeeds.bind getResource_succeeds fun resource => ?_
  split
  · exact Succeeds.pure _
  · exact commitStatus_succeeds _

section Monitored

variable {check : Check} {resource : PgBouncerAurora} {found : Evaluation} {status : Status}
  {now : Int} {w : World}

/-- With an untrusted discovery nothing is probed, and both modes freeze. -/
theorem Holds.frozen (h : Holds resource found now status)
    (hresource : w.stored.resource = { resource with status := status })
    (ht : found.discovery.trusted = false) (cluster : Cluster) :
    finalPlan (final (runMonitorJob check now now) w).stored.resource cluster
      = planOn resource (probed check resource found) (missingFor resource found now)
          (managedPods resource cluster) := by
  have huntrusted := h.verdict.trans ht
  have hstored : (final (runMonitorJob check now now) w).stored = w.stored :=
    runJob_idle (by rw [takeMonitor, hresource, if_neg (by simp [huntrusted])])
  rw [hstored, hresource, finalPlan_eq_frozenPlan huntrusted,
    planOn_untrusted ((congrArg DiscoveryResult.trusted (probed_discovery _ _ _)).trans ht)]
  simp only [frozenPlan, h.instances, h.members]

/-- With a trusted one the monitor job has work, and its work lands. -/
theorem Holds.monitor_commits (h : Holds resource found now status)
    (hresource : w.stored.resource = { resource with status := status })
    (ht : found.discovery.trusted = true) (hw : w.faults = [])
    (hdue : monitorDue resource now = true)
    (hclock : isNewer resource.status.lastMonitorTime now = false) :
    ∃ next, (monitorWork check { resource with status := status } now).commit
        { resource with status := status } = some next ∧
      (final (runMonitorJob check now now) w).stored.resource
        = { resource with status := next.marshal } := by
  have hdue' : monitorDue { resource with status := status } now = true := by
    rw [← hdue]
    simp only [monitorDue, h.generation, h.instances, h.monitored]
    rfl
  have htake : takeMonitor check now now w.stored.resource
      = some (monitorWork check w.stored.resource now) := by
    rw [takeMonitor, hresource, if_pos (by simp [hdue', h.verdict.trans ht])]
  obtain ⟨next, hnext⟩ : ∃ next, (monitorWork check { resource with status := status } now).commit
      { resource with status := status } = some next := by
    refine ⟨_, monitorCommit_eq_some.mpr ⟨?_, ?_, rfl⟩⟩
    · rw [monitorWork_now]
      show isNewer status.lastMonitorTime now = false
      rw [h.monitored, hclock]
    · rw [monitorWork_discovery, h.discovered ht]
      show status.topologyHash.all _ = true
      cases hhash : status.topologyHash with
      | none => rfl
      | some hash => simp [(h.topology ht).2 hash hhash]
  refine ⟨next, hnext, ?_⟩
  have hstored : (final (runMonitorJob check now now) w).stored = w.stored.updateStatus next :=
    runJob_commits hw htake (by rw [hresource]; exact hnext)
  rw [hstored]
  show { w.stored.resource with status := next.marshal } = _
  rw [hresource]

end Monitored

/-- **The jobs carry what a standalone Reconcile sees.**  With the same answers of Aurora and of the
probes, a scheduled Reconcile after the two jobs decides what a standalone one decides. -/
theorem standalone_plans_as_jobs {discover : Discover} {check : Check} {now : Int} {w w' : World}
    {p : Prepared} (hw : w.faults = [])
    (hrun : prepare (.standalone discover (some check)) now w = .ok p w')
    (hcheck : Impartial check) (hdue : monitorDue w.stored.resource now = true)
    (hcomparable : Comparable now w.stored.resource.status p.evaluation.discovery) :
    p.plan = (afterJobs discover check now w).planned := by
  obtain ⟨⟨v, v', hevaluate⟩, hplan⟩ := prepare_plan hrun
  obtain ⟨found, hfound, hprobed⟩ := evaluate_standalone hdue hevaluate
  rw [hprobed, probed_discovery] at hcomparable
  rw [hplan, hprobed, missingFor_probed]
  obtain ⟨status, hholds, hresource⟩ := holds_of_discovery hw hfound hcomparable.found
    hcomparable.discoveryClock hcomparable.hashed
  set w₁ := final (runDiscoveryJob discover now now) w with hw₁
  have hfaults : w₁.faults = [] := by
    obtain ⟨committed, w₂, hjob, hw₂⟩ := runJob_succeeds (takeDiscovery discover now now)
      DiscoveryWork.commit w hw
    exact (congrArg World.faults (final_of_ok hjob)).trans hw₂
  have hcluster : (afterJobs discover check now w).cluster = w.cluster :=
    congrArg Prod.fst ((runJob_keeps (takeMonitor check now now) MonitorWork.commit w₁).trans
      (runJob_keeps (takeDiscovery discover now now) DiscoveryWork.commit w))
  show _ = finalPlan (final (runMonitorJob check now now) w₁).stored.resource _
  rw [hcluster]
  cases ht : found.discovery.trusted with
  | false => exact (hholds.frozen hresource ht _).symm
  | true =>
    obtain ⟨next, hnext, hstored⟩ :=
      hholds.monitor_commits hresource ht hfaults hdue hcomparable.monitorClock
    rw [hstored, hholds.finalPlan_committed hcheck ht (discoveryFor_cachedHealth hfound)
      hcomparable.distinct hcomparable.named hnext]

/-- Aurora lists a writer and a reader. -/
def discoverPair : Discover := fun _ => .ok monitoredDiscovery

/-- Every enabled instance answers. -/
def probeEnabled : Check := fun resource instances =>
  .ok ((enabledInstances resource instances).foldl
    (fun out inst => out.insert inst.name { healthy := true, reason := "healthy" }) ∅)

theorem probeEnabled_impartial : Impartial probeEnabled := by
  intro resource status instances
  simp [probeEnabled, enabledInstances, activeDiscoveryInstances, List.filter_filter]

/-- From the first moment on, with one instance switched off. -/
theorem first_standalone_plan :
    let w := World.initial "orders"
      { pgbouncer := { instanceOverrides := [{ name := "b", enabled := some false }] } } {}
    ∃ p w', prepare (.standalone discoverPair (some probeEnabled)) (10 * second) w = .ok p w' ∧
      p.plan.membership = ⟨["a"], []⟩ ∧
      p.plan = (afterJobs discoverPair probeEnabled (10 * second) w).planned := by
  intro w
  have hreturns : returns (fun p _ => decide (p.evaluation.discovery = monitoredDiscovery ∧
      p.plan.membership = ⟨["a"], []⟩))
      (prepare (.standalone discoverPair (some probeEnabled)) (10 * second)) w = true := by
    decide +kernel
  obtain ⟨p, w', hrun, htest⟩ := returns_iff.mp hreturns
  obtain ⟨hdiscovery, hmembers⟩ := of_decide_eq_true htest
  refine ⟨p, w', hrun, hmembers, standalone_plans_as_jobs rfl hrun probeEnabled_impartial rfl ?_⟩
  rw [hdiscovery]
  exact
    { discoveryClock := rfl
      monitorClock := rfl
      hashed := ⟨fun _ => rfl, nofun, List.Pairwise.nil⟩
      found := fun _ => by decide
      distinct := by decide
      named := by decide }

end Controller

end AuroraOperator

/-
# Do the status writers agree on the freeze?

Monitor jobs and Reconciles both rebuild the condition list from a plan, `Frozen` and `Reconciled`
included.  A Reconcile sends its plan through the zone policy first, which may freeze it.  A monitor
job does not ask the zone policy, so what it reports is what the planner said.

* `freeze_agrees_iff`: the two report the same, except when the policy is to fail and the zones of
  the topology are in conflict with the user's constraints.
* `monitor_hides_zone_freeze`: a monitor job that reports an applied plan, and the Reconcile after it
  that refuses to apply one.
* `frozen_summary_iff`: the summary of a frozen Reconcile counts the members of its plan.  The
  planner freezes by planning the membership that is in force; the zone policy freezes a plan that
  is not applied, and its members are counted all the same.
-/
import AuroraOperator.Controller.MonitorReport

namespace AuroraOperator

namespace Controller

open Planner Render Program

/-! ## 1. The zone policy, from the topology -/

/-- The user's constraints keep pods out of the zone. -/
def excludesZone (resource : PgBouncerAurora) (topologyKey zone : String) : Bool :=
  zone ≠ "" &&
    (resource.spec.pgbouncer.nodeSelector[topologyKey]?.any (· ≠ zone) ||
      requiredNodeAffinityConflicts resource.spec.pgbouncer.affinity topologyKey zone)

/-- The policy is to fail, and an enabled instance of the last known topology is in a zone that the
user's constraints exclude, or its zone is required while pods are to be spread over zones. -/
def failsOnZones (resource : PgBouncerAurora) : Bool :=
  let zoneAware := resource.spec.topologyPolicy.zoneAware
  let topologyKey := firstNonBlank zoneAware.topologyKey "topology.kubernetes.io/zone"
  zoneAware.conflictPolicy = some .fail && enabledDefaultTrue zoneAware.enabled &&
    ((resource.status.lastKnownTopology.any fun known =>
        !instanceDisabled resource.spec.pgbouncer known.instanceName &&
          excludesZone resource topologyKey known.availabilityZone) ||
      (zoneAware.enforcement = some .required && hasTopologySpreadOnKey resource topologyKey))

section Zones

variable {resource : PgBouncerAurora} {cluster : Cluster}

theorem zoneConflictMessages_eq_nil (topologyKey : String) (entry : InstancePlan) :
    zoneConflictMessages resource topologyKey entry = [] ↔
      excludesZone resource topologyKey entry.availabilityZone = false := by
  unfold zoneConflictMessages excludesZone
  by_cases hzone : entry.availabilityZone = ""
  · simp [hzone]
  · cases hselected : resource.spec.pgbouncer.nodeSelector[topologyKey]? with
    | none => simp [hzone]
    | some selected =>
      by_cases hsame : selected = entry.availabilityZone <;> simp [hzone, hsame]

/-- The condition is true when there is something to say. -/
theorem zoneAwareConflictCondition_status (plan : Output)
    (hpolicy : resource.spec.topologyPolicy.zoneAware.conflictPolicy ≠ some .ignore) :
    let zoneAware := resource.spec.topologyPolicy.zoneAware
    let topologyKey := firstNonBlank zoneAware.topologyKey "topology.kubernetes.io/zone"
    (zoneAwareConflictCondition resource plan).status = .true ↔
      enabledDefaultTrue zoneAware.enabled = true ∧
        ((∃ entry ∈ plan.instances, entry.disabled = false ∧
          excludesZone resource topologyKey entry.availabilityZone = true) ∨
        (zoneAware.enforcement = some .required ∧
          hasTopologySpreadOnKey resource topologyKey = true)) := by
  intro zoneAware topologyKey
  unfold zoneAwareConflictCondition
  dsimp only
  cases henabled : enabledDefaultTrue resource.spec.topologyPolicy.zoneAware.enabled with
  | false => simp [zoneAware]
  | true =>
    have hmessages : (activePlanInstances plan.instances).flatMap
        (zoneConflictMessages resource topologyKey) ≠ [] ↔
        ∃ entry ∈ plan.instances, entry.disabled = false ∧
          excludesZone resource topologyKey entry.availabilityZone = true := by
      simp only [ne_eq, List.flatMap_eq_nil_iff, zoneConflictMessages_eq_nil, activePlanInstances,
        List.mem_filter, not_forall, Bool.not_eq_false, Bool.not_eq_true', exists_prop, and_assoc]
    have hignore : resource.spec.topologyPolicy.zoneAware.conflictPolicy.getD .warn ≠ .ignore := by
      cases hset : resource.spec.topologyPolicy.zoneAware.conflictPolicy with
      | none => decide
      | some policy => exact fun h => hpolicy (hset.trans (congrArg some h))
    rw [← hmessages, if_neg hignore]
    generalize (activePlanInstances plan.instances).flatMap
      (zoneConflictMessages resource topologyKey) = messages
    by_cases hspread : zoneAware.enforcement = some .required ∧
      hasTopologySpreadOnKey resource topologyKey = true
    · rw [if_pos hspread]
      simp [hspread]
    · rw [if_neg hspread]
      cases messages <;> simp [hspread, zoneAware]

/-- The enabled entries of a final plan are the enabled instances of the topology. -/
theorem exists_enabled_entry (ht : (cachedDiscovery resource).trusted = true) (test : String → Bool) :
    (∃ entry ∈ (finalPlan resource cluster).instances,
      entry.disabled = false ∧ test entry.availabilityZone = true) ↔
    (resource.status.lastKnownTopology.any fun known =>
      !instanceDisabled resource.spec.pgbouncer known.instanceName &&
        test known.availabilityZone) = true := by
  simp only [List.any_eq_true, Bool.and_eq_true, Bool.not_eq_true']
  constructor
  · rintro ⟨entry, hentry, hdisabled, htest⟩
    obtain ⟨hlisted, hsame⟩ := (mem_finalPlan_standing ht).mp ⟨entry, hentry, rfl⟩
    rw [cachedDiscovery_instances ht, topologyObservations] at hlisted
    obtain ⟨known, hknown, hobservation⟩ := List.mem_map.mp hlisted
    rw [← hobservation] at hsame htest
    exact ⟨known, hknown, hsame.trans hdisabled, htest⟩
  · rintro ⟨known, hknown, henabled, htest⟩
    obtain ⟨entry, hentry, hstanding⟩ := (@mem_finalPlan_standing _ cluster ht _ false).mpr
      ⟨by rw [cachedDiscovery_instances ht]; exact List.mem_map_of_mem hknown, henabled⟩
    rw [standing, Prod.mk.injEq] at hstanding
    refine ⟨entry, hentry, hstanding.2, ?_⟩
    rw [hstanding.1]
    exact htest

/-- **When a Reconcile freezes a trusted plan.** -/
theorem finalPlan_frozen_eq (ht : (cachedDiscovery resource).trusted = true) :
    (finalPlan resource cluster).frozen = failsOnZones resource := by
  set planned := scheduledPlan resource (cachedDiscovery resource)
    resource.status.missingInstances (managedPods resource cluster) with hplanned
  have hfrozen : planned.frozen = false := by
    rw [hplanned, scheduledPlan, fastPath_frame.1]
    exact plan_not_frozen ht
  have hinstances : (finalPlan resource cluster).instances = planned.instances :=
    zonePolicy_instances resource planned
  rw [Bool.eq_iff_iff, finalPlan, ← hplanned, applyZoneAwareConflictPolicy, failsOnZones]
  by_cases hpolicy : resource.spec.topologyPolicy.zoneAware.conflictPolicy = some .fail
  · have hreported : resource.spec.topologyPolicy.zoneAware.conflictPolicy ≠ some .ignore := by
      simp [hpolicy]
    have hcondition := zoneAwareConflictCondition_status planned hreported
    dsimp only at hcondition
    rw [← hinstances, exists_enabled_entry ht] at hcondition
    rw [if_neg (by simp [hfrozen, hpolicy])]
    dsimp only
    by_cases hstatus : (zoneAwareConflictCondition resource planned).status = .true
    · rw [if_neg (not_not_intro hstatus)]
      simpa [hpolicy] using hcondition.mp hstatus
    · rw [if_pos hstatus, hfrozen]
      rw [hcondition] at hstatus
      refine iff_of_false (by simp) fun htrue => hstatus ?_
      simpa [hpolicy] using htrue
  · simp [hfrozen, hpolicy]

end Zones

/-! ## 2. Monitor job and Reconcile -/

/-- The stored status of a condition. -/
def storedStatus (type : ConditionType) (w : World) : Option ConditionStatus :=
  (storedCondition type w.stored.resource.status).map (·.status)

/-- What is stored about the freeze once the conditions of a plan have been committed. -/
theorem storedStatus_of_conditions {w : World} {stored : StoredResource} {status : Status}
    {resource : PgBouncerAurora} {previous : List Condition} {discovery : DiscoveryResult}
    {plan : Output} {monitorErr : String} {now : Int} (hstored : w.stored = stored.updateStatus status)
    (h : status.conditions = conditionsFor resource previous discovery plan monitorErr now) :
    storedStatus .frozen w = some (if plan.frozen then .true else .false) ∧
      storedStatus .reconciled w = some (if plan.frozen then .false else .true) := by
  have hfrozen : (ConditionType.frozen,
      flag plan.frozen "Frozen" "NotFrozen" (joinStrings plan.reasons "; "))
      ∈ verdictsFor resource discovery plan monitorErr := by simp [verdictsFor]
  have hreconciled : (ConditionType.reconciled, flag (!plan.frozen) "Applied" "Frozen" "")
      ∈ verdictsFor resource discovery plan monitorErr := by simp [verdictsFor]
  unfold storedStatus
  rw [hstored, storedCondition_updateStatus, storedCondition_updateStatus, storedCondition,
    storedCondition, h, find?_conditionsFor _ _ hfrozen, find?_conditionsFor _ _ hreconciled]
  cases plan.frozen <;> simp [Condition.marshal, flag]

section Freeze

variable {w : World} {check : Check} {checkedAt now : Int} {faults : List (Option Fault)}

theorem monitorWork_not_frozen {resource : PgBouncerAurora}
    (ht : (cachedDiscovery resource).trusted = true) :
    (monitorWork check resource now).plan.frozen = false := by
  cases hcheck : check resource (cachedDiscovery resource).instances with
  | ok health =>
    rw [monitorWork_ok hcheck]
    exact plan_not_frozen ht
  | error err =>
    rw [monitorWork_error hcheck]
    exact plan_not_frozen ht

/-- A monitor job never reports a freeze, and leaves what decides about one. -/
theorem monitor_reports_unfrozen
    (h : answer (runMonitorJob check checkedAt now) (w.meet faults) = true) :
    let monitored := w.next (.monitor check checkedAt now faults)
    storedStatus .frozen monitored = some .false ∧
      storedStatus .reconciled monitored = some .true ∧
      (cachedDiscovery monitored.stored.resource).trusted = true ∧
      failsOnZones monitored.stored.resource = failsOnZones w.stored.resource := by
  intro monitored
  rcases monitor_cases w check checkedAt now faults with
    ⟨-, ht, status, hcommit, hstored⟩ | ⟨hno, -⟩
  · have hnext : monitored.stored = w.stored.updateStatus status := hstored
    obtain ⟨htopology, -, -, -, -, -, hverdict⟩ := monitorCommit_frame hcommit
    obtain ⟨hfrozen, hreconciled⟩ := storedStatus_of_conditions hnext
      (congrArg Status.conditions (monitorCommit_eq_some.mp hcommit).2.2)
    rw [monitorWork_not_frozen ht] at hfrozen hreconciled
    refine ⟨hfrozen, hreconciled, ?_, ?_⟩
    · rw [cachedDiscovery_trusted_iff, hnext, lastDiscoveryTrusted,
        StoredResource.updateStatus_status, Status.marshal_conditions, discoveryVerdict_marshal,
        hverdict, monitorWork_discovery]
      refine ⟨ht, ?_⟩
      rw [Status.marshal_lastKnownTopology, htopology]
      exact (cachedDiscovery_trusted_iff.mp ht).2
    · have hsame : monitored.stored.resource.status.lastKnownTopology
          = w.stored.resource.status.lastKnownTopology := by rw [hnext]; exact htopology
      have hspec : monitored.stored.resource.spec = w.stored.resource.spec := by rw [hnext]; rfl
      simp only [failsOnZones, excludesZone, hasTopologySpreadOnKey, hsame, hspec]
  · rw [hno] at h
    cases h

/-- **Both status writers agree on the freeze** exactly when the policy does not fail on the zones
of the topology. -/
theorem freeze_agrees_iff (w : World) (check : Check) (checkedAt now later : Int)
    (faults laterFaults : List (Option Fault))
    (hmonitored : answer (runMonitorJob check checkedAt now) (w.meet faults) = true)
    (hreconciled : returns (fun _ _ => true) (reconcile .scheduled later)
      ((w.next (.monitor check checkedAt now faults)).meet laterFaults) = true) :
    let monitored := w.next (.monitor check checkedAt now faults)
    let reconciled := monitored.next (.reconcile later laterFaults)
    (storedStatus .frozen monitored = storedStatus .frozen reconciled ∧
      storedStatus .reconciled monitored = storedStatus .reconciled reconciled) ↔
      failsOnZones w.stored.resource = false := by
  intro monitored reconciled
  obtain ⟨hfrozen, happlied, ht, hzones⟩ := monitor_reports_unfrozen hmonitored
  rcases reconcile_cases monitored later laterFaults with
    ⟨p, w', hrun, w₁, hprepared, -, hstored⟩ | ⟨e, w', hrun, -⟩
  · have hconditions : (p.status monitored.stored.resource).conditions
        = conditionsFor p.resource monitored.stored.resource.status.conditions
            p.evaluation.discovery p.plan p.evaluation.monitorErr p.now := rfl
    obtain ⟨hfrozen', happlied'⟩ := storedStatus_of_conditions hstored hconditions
    have hplan : p.plan.frozen = failsOnZones w.stored.resource := by
      rw [hprepared.plan, ← hzones]
      exact finalPlan_frozen_eq ht
    rw [show storedStatus .frozen monitored = _ from hfrozen,
      show storedStatus .reconciled monitored = _ from happlied,
      show storedStatus .frozen reconciled = _ from hfrozen',
      show storedStatus .reconciled reconciled = _ from happlied', hplan]
    cases failsOnZones w.stored.resource <;> simp
  · obtain ⟨p, w₂, hok, -⟩ := returns_iff.mp hreconciled
    rw [hrun] at hok
    cases hok

end Freeze

/-- A writer in one zone, under a policy that fails on conflicts, with pods pinned to a zone. -/
def zonedSpec (zone : String) : PgBouncerAuroraSpec :=
  { topologyPolicy := { zoneAware := { conflictPolicy := some .fail } }
    pgbouncer := { nodeSelector :=
      (∅ : StringMap String).insert "topology.kubernetes.io/zone" zone } }

/-- The world after a discovery of the writer. -/
def zonedWorld (zone : String) : World :=
  reached "db" (zonedSpec zone) {}
    [.discover (fun _ => .ok
      { trusted := true
        instances := [{ name := "a", role := .writer, availabilityZone := "north" }] })
      (10 * second) (10 * second) []]

/-- A monitor job that finds the writer healthy. -/
def probeWriter : Check := fun _ _ =>
  .ok ((∅ : StringMap HealthStatus).insert "a" { healthy := true })

/-- With the pods pinned to another zone, the monitor job reports that the plan is applied, and the
Reconcile right after it that it is frozen. -/
theorem monitor_hides_zone_freeze :
    failsOnZones (zonedWorld "south").stored.resource = true ∧
    answer (runMonitorJob probeWriter (20 * second) (20 * second)) (zonedWorld "south") = true ∧
    returns (fun _ _ => true) (reconcile .scheduled (21 * second))
      (((zonedWorld "south").next (.monitor probeWriter (20 * second) (20 * second) [])).meet [])
      = true ∧
    let monitored := (zonedWorld "south").next (.monitor probeWriter (20 * second) (20 * second) [])
    let reconciled := monitored.next (.reconcile (21 * second) [])
    storedStatus .frozen monitored = some .false ∧
      storedStatus .frozen reconciled = some .true ∧
      storedStatus .reconciled monitored = some .true ∧
      storedStatus .reconciled reconciled = some .false := by
  decide +kernel

theorem freeze_agrees_in_zone :
    failsOnZones (zonedWorld "north").stored.resource = false ∧
    storedStatus .frozen
        ((zonedWorld "north").next (.monitor probeWriter (20 * second) (20 * second) []))
      = storedStatus .frozen
        (((zonedWorld "north").next (.monitor probeWriter (20 * second) (20 * second) [])).next
          (.reconcile (21 * second) [])) := by
  have hzones : failsOnZones (zonedWorld "north").stored.resource = false := by decide +kernel
  refine ⟨hzones, ((freeze_agrees_iff (zonedWorld "north") probeWriter (20 * second) (20 * second)
    (21 * second) [] [] ?_ ?_).mpr hzones).1⟩
  · decide +kernel
  · decide +kernel

/-! ## 3. The members a frozen Reconcile reports -/

theorem members_addCandidates (summary : RoleServiceSummaryStatus) (entries : List InstancePlan) :
    (entries.foldl (fun summary entry =>
      RoleServiceSummaryStatus.addCandidate summary entry.healthy) summary).members
      = summary.members := by
  induction entries generalizing summary with
  | nil => rfl
  | cons entry entries ih => exact ih _

theorem members_summarizeMembers (instances : List InstancePlan) (role : Role)
    (members counted : List String) (summary : RoleServiceSummaryStatus) :
    (summarizeMembers instances role members counted summary).members = summary.members := by
  induction members generalizing counted summary with
  | nil => rfl
  | cons member rest ih =>
    unfold summarizeMembers
    cases planByName instances member with
    | none => exact ih _ _
    | some entry =>
      dsimp only
      repeat' split
      all_goals rw [ih]
      all_goals rfl

/-- The summary of a role counts the members it is given. -/
theorem members_roleServiceSummary (resource : PgBouncerAurora) (instances : List InstancePlan)
    (members : List String) (role : Role) :
    (roleServiceSummary resource instances members role).members = Int32.ofNat members.length := by
  rw [roleServiceSummary, members_summarizeMembers, members_addCandidates]

/-- By what the stored status decides, and with the writer switched where a failover is due, there
are as many writers and as many readers as were applied last. -/
def sizesKept (resource : PgBouncerAurora) (pods : List Pod) : Bool :=
  let input := scheduledInput resource (cachedDiscovery resource) resource.status.missingInstances
  let writers := if failoverDue input (readyPodCounts pods) then 1
    else (decidedWriter input).length
  Int32.ofNat writers = Int32.ofNat (lastWriter input).length &&
    Int32.ofNat (decidedReader input).length = Int32.ofNat (lastReader input).length

/-- The members the status reports are as many as the membership in force has. -/
def ReportsInForce (status : Status) : Prop :=
  status.serviceSummary.writer.members = Int32.ofNat status.lastAppliedMembership.writer.length ∧
    status.serviceSummary.reader.members = Int32.ofNat status.lastAppliedMembership.reader.length

section Summary

variable {resource : PgBouncerAurora} {cluster : Cluster}

theorem zonePolicy_membership (resource : PgBouncerAurora) (plan : Output) :
    (applyZoneAwareConflictPolicy resource plan).membership = plan.membership := by
  unfold applyZoneAwareConflictPolicy
  dsimp only
  repeat' split
  all_goals rfl

/-- The sizes of a trusted final plan, read off the stored status. -/
theorem finalPlan_sizes (ht : (cachedDiscovery resource).trusted = true) :
    let input := scheduledInput resource (cachedDiscovery resource) resource.status.missingInstances
    (finalPlan resource cluster).membership.writer.length =
        (if failoverDue input (readyPodCounts (managedPods resource cluster)) then 1
          else (decidedWriter input).length) ∧
      (finalPlan resource cluster).membership.reader = decidedReader input := by
  intro input
  have hti : input.discoveryTrusted = true := ht
  have hdue : fastPathSwitches resource (cachedDiscovery resource)
      (readyPodCounts (managedPods resource cluster)) (plan input)
      = failoverDue input (readyPodCounts (managedPods resource cluster)) :=
    fastPathSwitches_eq_failoverDue ht
  rw [finalPlan, zonePolicy_membership, scheduledPlan, ← hdue]
  cases hswitch : fastPathSwitches resource (cachedDiscovery resource)
      (readyPodCounts (managedPods resource cluster)) (plan input) with
  | true =>
    rw [fastPath_of_switches hswitch]
    exact ⟨rfl, plan_membership_reader hti⟩
  | false =>
    rw [fastPath_of_not_switches hswitch]
    exact ⟨congrArg List.length (plan_membership_writer hti), plan_membership_reader hti⟩

/-- Counting the members of a final plan. -/
theorem sizes_iff (ht : (cachedDiscovery resource).trusted = true) :
    (Int32.ofNat (finalPlan resource cluster).membership.writer.length
        = Int32.ofNat resource.status.lastAppliedMembership.writer.length ∧
      Int32.ofNat (finalPlan resource cluster).membership.reader.length
        = Int32.ofNat resource.status.lastAppliedMembership.reader.length) ↔
      sizesKept resource (managedPods resource cluster) = true := by
  obtain ⟨hwriter, hreader⟩ := @finalPlan_sizes resource cluster ht
  rw [hwriter, hreader, sizesKept, Bool.and_eq_true, decide_eq_true_eq, decide_eq_true_eq]
  rfl

end Summary

/-- **What a frozen Reconcile reports.**  The reported members are those in force when the
discovery is untrusted; a plan that the zone policy froze is reported with its own members, and
these are as many only if nothing has changed the sizes. -/
theorem frozen_summary_iff (w w' : World) (now : Int) (faults : List (Option Fault)) (p : Prepared)
    (hrun : reconcile .scheduled now (w.meet faults) = .ok p w') (hfrozen : p.plan.frozen = true)
    (hmonitor : isNewer w.stored.resource.status.lastMonitorTime now = false) :
    ReportsInForce (w.next (.reconcile now faults)).stored.resource.status ↔
      (cachedDiscovery w.stored.resource).trusted = false ∨
        sizesKept w.stored.resource (managedPods w.stored.resource w.cluster) = true := by
  rcases reconcile_cases w now faults with ⟨p', w₂, hok, w₁, hp, -, hstored⟩ | ⟨e, w₂, herr, -⟩
  · cases hrun.symm.trans hok
    have hresource : p.resource = w.stored.resource := hp.resource
    have hplan : p.plan = finalPlan w.stored.resource w.cluster := hp.plan
    have hsummary : (p.status w.stored.resource).serviceSummary
        = serviceSummaryStatus w.stored.resource p.plan := by
      rw [Prepared.status, reconcileCommit, hp.time, hmonitor, hresource]
      rfl
    have hmembership : (p.status w.stored.resource).lastAppliedMembership
        = w.stored.resource.status.lastAppliedMembership := by
      simp only [Prepared.status, reconcileCommit, hfrozen, Bool.not_true, Bool.false_and,
        Bool.false_eq_true, if_false]
    rw [ReportsInForce, hstored, StoredResource.updateStatus_status,
      Status.marshal_lastAppliedMembership, hmembership]
    change (p.status w.stored.resource).serviceSummary.writer.members = _ ∧
      (p.status w.stored.resource).serviceSummary.reader.members = _ ↔ _
    rw [hsummary, serviceSummaryStatus, members_roleServiceSummary, members_roleServiceSummary,
      hplan]
    cases ht : (cachedDiscovery w.stored.resource).trusted with
    | true => simpa using sizes_iff ht
    | false =>
      -- the planner's freeze plans what was applied last
      rw [finalPlan_eq_frozenPlan ht]
      exact ⟨fun _ => .inl rfl, fun _ => ⟨rfl, rfl⟩⟩
  · rw [hrun] at herr
    cases herr

/-- The plan that was not applied has a writer; the membership in force has none. -/
theorem zone_freeze_reports_plan :
    let w := (zonedWorld "south").next (.monitor probeWriter (20 * second) (20 * second) [])
    returns (fun p _ => p.plan.frozen) (reconcile .scheduled (21 * second)) (w.meet []) = true ∧
      isNewer w.stored.resource.status.lastMonitorTime (21 * second) = false ∧
      let status := (w.next (.reconcile (21 * second) [])).stored.resource.status
      status.serviceSummary.writer.members = 1 ∧ status.lastAppliedMembership.writer = [] := by
  decide +kernel

theorem frozen_summary_before_monitor :
    ReportsInForce
      ((zonedWorld "south").next (.reconcile (21 * second) [])).stored.resource.status := by
  have hfrozen : returns (fun p _ => p.plan.frozen) (reconcile .scheduled (21 * second))
      ((zonedWorld "south").meet []) = true := by decide +kernel
  obtain ⟨p, w', hrun, hp⟩ := returns_iff.mp hfrozen
  exact (frozen_summary_iff (zonedWorld "south") w' (21 * second) [] p hrun hp
    (by decide +kernel)).mpr (.inr (by decide +kernel))

end Controller

end AuroraOperator

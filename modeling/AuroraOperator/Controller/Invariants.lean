/-
# What every reachable status satisfies

Two invariants of the system, and the facts about plans that they rest on.

* `Consistent` needs nothing of the discoveries: the missing list is strictly sorted, never
  names an instance of the last known topology, and there is at most one applied writer.
* `Sound` adds that the last known topology is well formed.  It holds when the results come
  from the operator's own provider, which trusts no other.

Each is kept by every move, and so along every run from a new resource.
-/
import AuroraOperator.Discovery
import AuroraOperator.Controller.System

namespace AuroraOperator

namespace Controller

open Discovery Planner Render Program

/-! ## 1. The final plan -/

/-- What a scheduled Reconcile gives to `planner.Plan`. -/
abbrev reconcileInput (resource : PgBouncerAurora) : Input :=
  scheduledInput resource (cachedDiscovery resource) resource.status.missingInstances

section Plans

variable {resource : PgBouncerAurora} {cluster : Cluster}

theorem finalPlan_eq_scheduledPlan (h : (finalPlan resource cluster).frozen = false) :
    finalPlan resource cluster = scheduledPlan resource (cachedDiscovery resource)
      resource.status.missingInstances (managedPods resource cluster) :=
  zonePolicy_eq_of_not_frozen h

/-- The entries are about the discovered instances, disabled as the planner disables them. -/
theorem mem_finalPlan_standing (ht : (cachedDiscovery resource).trusted = true)
    {o : InstanceObservation} {disabled : Bool} :
    (∃ entry ∈ (finalPlan resource cluster).instances, standing entry = (o, disabled)) ↔
      o ∈ (cachedDiscovery resource).instances ∧
        instanceDisabled resource.spec.pgbouncer o.name = disabled := by
  rw [finalPlan, zonePolicy_instances, ← List.mem_map, (scheduledPlan_standing ht).mem_iff,
    List.mem_map]
  constructor
  · rintro ⟨o', ho, heq⟩
    cases heq
    exact ⟨ho, rfl⟩
  · rintro ⟨ho, rfl⟩
    exact ⟨o, ho, rfl⟩

theorem finalPlan_entry (h : (finalPlan resource cluster).frozen = false) {entry : InstancePlan}
    (hentry : entry ∈ (finalPlan resource cluster).instances) :
    entry.toInstanceObservation ∈ (cachedDiscovery resource).instances ∧
      entry.disabled = instanceDisabled resource.spec.pgbouncer entry.name := by
  obtain ⟨hmem, hdisabled⟩ := (mem_finalPlan_standing (trusted_of_not_frozen h)).mp
    ⟨entry, hentry, rfl⟩
  exact ⟨hmem, hdisabled.symm⟩

/-- The readers of an unfrozen plan are the planner's. -/
theorem finalPlan_reader (h : (finalPlan resource cluster).frozen = false) :
    (finalPlan resource cluster).membership.reader = decidedReader (reconcileInput resource) := by
  have ht : (reconcileInput resource).discoveryTrusted = true := trusted_of_not_frozen h
  rw [finalPlan_eq_scheduledPlan h, ← plan_membership_reader ht]
  exact fastPath_frame.2.1

/-- The writer of an unfrozen plan is the planner's, or the fast path has put the single
discovered writer in its place. -/
theorem finalPlan_writer (h : (finalPlan resource cluster).frozen = false) :
    (finalPlan resource cluster).membership.writer = decidedWriter (reconcileInput resource) ∨
    ∃ w, (finalPlan resource cluster).membership.writer = [w] ∧
      w = singleDiscoveredWriter (cachedDiscovery resource).instances ∧ w ≠ "" ∧
      instanceDisabled resource.spec.pgbouncer w = false := by
  have ht : (reconcileInput resource).discoveryTrusted = true := trusted_of_not_frozen h
  rw [finalPlan_eq_scheduledPlan h]
  unfold scheduledPlan
  cases hs : fastPathSwitches resource (cachedDiscovery resource)
      (readyPodCounts (managedPods resource cluster)) (plan (reconcileInput resource)) with
  | false =>
    left
    rw [fastPath_of_not_switches hs]
    exact plan_membership_writer ht
  | true =>
    right
    obtain ⟨w, hw, -⟩ := fastPathSwitches_iff.mp hs
    obtain ⟨-, -, rfl, hne, -, -, hen, -⟩ := failoverCandidate_eq_some.mp hw
    exact ⟨_, congrArg MembershipStatus.writer (fastPath_of_switches hs), rfl, hne, hen⟩

theorem decidedWriter_length {input : Input} (h : (lastWriter input).length ≤ 1) :
    (decidedWriter input).length ≤ 1 := by
  unfold decidedWriter
  dsimp only
  split
  · rename_i hone
    exact hone.le
  · split
    · split
      · rename_i hone
        exact hone.le
      · exact Nat.zero_le _
    · exact (List.length_filter_le _ _).trans h

theorem finalPlan_writer_length (h : (finalPlan resource cluster).frozen = false)
    (hlast : resource.status.lastAppliedMembership.writer.length ≤ 1) :
    (finalPlan resource cluster).membership.writer.length ≤ 1 := by
  rcases finalPlan_writer h with hw | ⟨w, hw, -⟩
  · rw [hw]
    exact decidedWriter_length hlast
  · rw [hw]
    exact le_rfl

/-- A list of at most one name has no name twice. -/
theorem nodup_of_length_le_one {l : List String} (h : l.length ≤ 1) : l.Nodup := by
  match l, h with
  | [], _ => exact List.nodup_nil
  | [x], _ => exact List.nodup_singleton x

/-- **No reader twice.**  The healthy readers are discovered under distinct names, the preserved
ones are missing under distinct names, and none is both. -/
theorem finalPlan_reader_nodup (h : (finalPlan resource cluster).frozen = false)
    (hlast : resource.status.lastAppliedMembership.writer.length ≤ 1)
    (hnames : ((cachedDiscovery resource).instances.map (·.name)).Nodup)
    (hmissing : (resource.status.missingInstances.map (·.instanceName)).Nodup) :
    (finalPlan resource cluster).membership.reader.Nodup := by
  rw [finalPlan_reader h]
  have hpresent : (presentReaders (reconcileInput resource)).Nodup := by
    unfold presentReaders
    rw [sortStrings_nodup]
    refine List.Nodup.append ?_ ?_ ?_
    · rw [healthyMembers, sortStrings_nodup]
      exact hnames.sublist (List.Sublist.map _ List.filter_sublist)
    · exact hmissing.sublist (List.Sublist.map _ List.filter_sublist)
    · intro x hx hx'
      exact ((mem_preservedMissingReaders (reconcileInput resource)).mp hx').2.1 hx
  unfold decidedReader
  split
  · exact hpresent
  · split
    · exact List.nodup_nil
    · split
      · exact nodup_of_length_le_one (decidedWriter_length hlast)
      · exact List.nodup_nil

end Plans

/-! ## 2. Consistency -/

structure Consistent (s : Status) : Prop where
  sorted : (s.missingInstances.map (·.instanceName)).Pairwise (· < ·)
  named : "" ∉ s.missingInstances.map (·.instanceName)
  disjoint : ∀ name ∈ s.missingInstances.map (·.instanceName),
    name ∉ s.lastKnownTopology.map (·.instanceName)
  writer : s.lastAppliedMembership.writer.length ≤ 1

theorem Consistent.nodup {s : Status} (h : Consistent s) :
    (s.missingInstances.map (·.instanceName)).Nodup :=
  h.sorted.imp fun hlt => hlt.ne

theorem consistent_empty : Consistent {} where
  sorted := List.Pairwise.nil
  named := by simp
  disjoint := by simp
  writer := Nat.zero_le _

theorem map_name_marshal (l : List MissingInstanceStatus) :
    (l.map MissingInstanceStatus.marshal).map (·.instanceName) = l.map (·.instanceName) := by
  rw [List.map_map]
  rfl

theorem map_name_topologyStatus (instances : List InstanceObservation) :
    (topologyStatus instances).map (·.instanceName) = instances.map (·.name) := by
  simp [topologyStatus]

/-- A commit that keeps topology and membership, and at most shortens the missing list. -/
theorem Consistent.of_sublist {s s' : Status} (h : Consistent s)
    (hmissing : (s'.missingInstances.map (·.instanceName)).Sublist
      (s.missingInstances.map (·.instanceName)))
    (htopology : s'.lastKnownTopology = s.lastKnownTopology)
    (hwriter : s'.lastAppliedMembership.writer.length ≤ 1) : Consistent s' where
  sorted := h.sorted.sublist hmissing
  named hin := h.named (hmissing.mem hin)
  disjoint name hin := by
    rw [htopology]
    exact h.disjoint name (hmissing.mem hin)
  writer := hwriter

theorem discoveryWork_consistent {discover : Discover} {resource : PgBouncerAurora} {now : Int}
    {status : Status} (h : Consistent resource.status)
    (hcommit : (discoveryWork discover resource now).commit resource = some status) :
    Consistent status := by
  obtain ⟨hmembership, -⟩ := discoveryCommit_frame hcommit
  have hwriter : status.lastAppliedMembership.writer.length ≤ 1 := by
    rw [hmembership]
    exact h.writer
  cases ht : (effectiveDiscovery discover resource).1.trusted with
  | false =>
    obtain ⟨htopology, hmissing, -⟩ := discoveryCommit_untrusted hcommit ht
    exact h.of_sublist (by rw [hmissing]) htopology hwriter
  | true =>
    obtain ⟨htopology, hmissing, -⟩ := discoveryCommit_trusted hcommit ht
    have hnames : ∀ name ∈ status.missingInstances.map (·.instanceName),
        name ≠ "" ∧ name ∉ status.lastKnownTopology.map (·.instanceName) := by
      intro name hname
      rw [hmissing] at hname
      obtain ⟨hne, hnot, -⟩ := (mem_missingInstancesFor_names ht).mp hname
      rw [htopology, map_name_topologyStatus]
      exact ⟨hne, hnot⟩
    exact
      { sorted := by rw [hmissing]; exact missingInstancesFor_sorted ht
        named := fun hin => (hnames _ hin).1 rfl
        disjoint := fun name hin => (hnames name hin).2
        writer := hwriter }

/-- The membership a Reconcile commits is its plan's or the one it finds. -/
theorem Prepared.membership_cases (p : Prepared) (fresh : PgBouncerAurora) :
    (p.status fresh).lastAppliedMembership = fresh.status.lastAppliedMembership ∨
      (p.plan.frozen = false ∧ (p.status fresh).lastAppliedMembership = p.plan.membership) := by
  unfold Prepared.status
  cases hf : p.plan.frozen with
  | true => exact Or.inl (reconcileCommit_frozen _ _ _ _ _ _ hf).1
  | false =>
    rw [reconcileCommit_membership _ _ _ _ _ _ hf]
    split
    · exact Or.inr ⟨rfl, rfl⟩
    · exact Or.inl rfl

theorem PrepareSpec.consistent {now : Int} {w w₁ : World} {p : Prepared}
    (hp : PrepareSpec now w p w₁) (h : Consistent w.stored.resource.status) :
    Consistent (w.stored.updateStatus (p.status w.stored.resource)).resource.status := by
  refine h.of_sublist ?_ ?_ ?_
  · rw [hp.stored_missing]
    exact hp.missing_sublist.map _
  · rw [StoredResource.updateStatus_status, Status.marshal_lastKnownTopology, Prepared.status,
      hp.resource, hp.evaluation]
    exact (reconcileCommit_frame _ _ _ _ _).1
  · rw [StoredResource.updateStatus_status, Status.marshal_lastAppliedMembership]
    rcases p.membership_cases w.stored.resource with hold | ⟨hf, hnew⟩
    · rw [hold]
      exact h.writer
    · rw [hnew]
      rw [hp.plan] at hf ⊢
      exact finalPlan_writer_length hf h.writer

/-- **Every move keeps a status consistent.** -/
theorem Move.consistent {w w' : World} {step : Step} {events : List Event}
    (hmove : Move w step w' events) (h : Consistent w.stored.resource.status) :
    Consistent w'.stored.resource.status := by
  have hmarshal : ∀ {status : Status}, Consistent status →
      Consistent (w.stored.updateStatus status).resource.status := fun hs =>
    hs.of_sublist (by
      rw [StoredResource.updateStatus_status, Status.marshal_missingInstances, map_name_marshal])
      rfl hs.writer
  cases hmove with
  | discovered answered due commit stored =>
    rw [stored]
    exact hmarshal (discoveryWork_consistent h commit)
  | monitored trusted commit stored =>
    obtain ⟨htopology, hmissing, -, hmembership, -⟩ := monitorCommit_frame commit
    rw [stored]
    exact hmarshal (h.of_sublist (by rw [hmissing]) htopology (by rw [hmembership]; exact h.writer))
  | reconciled prepared cluster stored =>
    rw [stored]
    exact prepared.consistent h
  | edited stored | undiscovered unanswered stored | unmonitored stored | attempted stored
  | moved stored => rw [stored]; exact h

theorem consistent_run (name : String) (spec : PgBouncerAuroraSpec) (cluster : Cluster)
    (steps : List Step) :
    Consistent (reached name spec cluster steps).stored.resource.status :=
  Machine.invariant (I := fun w : World => Consistent w.stored.resource.status)
    (fun w step h => (next_move w step).consistent h) consistent_empty steps

/-! ## 3. Soundness -/

/-- The discoveries of a step are the operator's own: whatever rows, metadata and failures the
outside world comes up with, the answer is the provider's. -/
def FromProvider : Step → Prop
  | .discover discover _ _ _ => ∀ resource discovery, discover resource = .ok discovery →
      ∃ p : Provider, discovery = p.discover resource
  | _ => True

structure Sound (s : Status) : Prop extends Consistent s where
  topology : s.lastKnownTopology = [] ∨ WellFormed (topologyObservations s.lastKnownTopology)

/-- A cached discovery that is trusted is well formed. -/
theorem Sound.wellFormed {resource : PgBouncerAurora} (h : Sound resource.status)
    (ht : (cachedDiscovery resource).trusted = true) :
    WellFormed (cachedDiscovery resource).instances := by
  rw [cachedDiscovery_instances ht]
  exact h.topology.resolve_left (cachedDiscovery_trusted_iff.mp ht).2

/-- The topology a discovery job commits is the old one or a well-formed one. -/
theorem discoveryWork_topology {discover : Discover} {resource : PgBouncerAurora} {now : Int}
    {status : Status} (hd : ∀ discovery, discover resource = .ok discovery →
      discovery.trusted = true → WellFormed discovery.instances)
    (hcommit : (discoveryWork discover resource now).commit resource = some status) :
    status.lastKnownTopology = resource.status.lastKnownTopology ∨
      WellFormed (topologyObservations status.lastKnownTopology) := by
  cases ht : (effectiveDiscovery discover resource).1.trusted with
  | false => exact Or.inl (discoveryCommit_untrusted hcommit ht).1
  | true =>
    obtain ⟨htopology, -⟩ := discoveryCommit_trusted hcommit ht
    rcases effectiveDiscovery_cases discover resource with ⟨d, hok, htd, heq⟩ | ⟨-, -, hcases⟩
    · right
      rw [htopology, topologyObservations_topologyStatus]
      have hwork : (discoveryWork discover resource now).discovery = d := congrArg Prod.fst heq
      rw [hwork]
      exact hd d hok htd
    · rcases hcases with hu | ⟨hcached, -⟩
      · rw [ht] at hu
        cases hu
      · left
        have hwork : (discoveryWork discover resource now).discovery.instances
            = topologyObservations resource.status.lastKnownTopology := hcached
        rw [htopology, hwork, topologyStatus_topologyObservations]

/-- **Every move with the operator's own discoveries keeps a status sound.** -/
theorem Move.sound {w w' : World} {step : Step} {events : List Event}
    (hmove : Move w step w' events) (hprovider : FromProvider step)
    (h : Sound w.stored.resource.status) : Sound w'.stored.resource.status := by
  refine ⟨hmove.consistent h.toConsistent, ?_⟩
  cases hmove with
  | discovered answered due commit stored =>
    rw [stored, StoredResource.updateStatus_status, Status.marshal_lastKnownTopology]
    have hd := discoveryWork_topology (fun discovery hok ht => by
      obtain ⟨p, rfl⟩ := hprovider _ _ hok
      exact Provider.discover_wellFormed ht) commit
    rcases hd with hold | hwf
    · rw [hold]
      exact h.topology
    · exact Or.inr hwf
  | monitored trusted commit stored =>
    rw [stored, StoredResource.updateStatus_status, Status.marshal_lastKnownTopology,
      (monitorCommit_frame commit).1]
    exact h.topology
  | reconciled prepared cluster stored =>
    rw [stored, StoredResource.updateStatus_status, Status.marshal_lastKnownTopology,
      Prepared.status, prepared.resource, prepared.evaluation, (reconcileCommit_frame _ _ _ _ _).1]
    exact h.topology
  | edited stored | undiscovered unanswered stored | unmonitored stored | attempted stored
  | moved stored => rw [stored]; exact h.topology

theorem sound_run (name : String) (spec : PgBouncerAuroraSpec) (cluster : Cluster)
    {steps : List Step} (hsteps : ∀ step ∈ steps, FromProvider step) :
    Sound (reached name spec cluster steps).stored.resource.status :=
  Machine.invariant_of_forall (I := fun w : World => Sound w.stored.resource.status)
    (fun w step h hp => (next_move w step).sound hp h) ⟨consistent_empty, Or.inl rfl⟩ hsteps

end Controller

end AuroraOperator

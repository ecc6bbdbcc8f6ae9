/-
# How long a missing reader keeps its place

A reader that is no longer discovered stays behind the reader Service until it has been missed
often enough.  Three components have to agree on this: the discovery job counts the misses, the
planner compares the count with the threshold, and the Reconcile stores the membership that the
planner will look at the next time.

* `reader_retention`: along a run of discoveries that all miss the reader, each followed by a
  Reconcile, the reader is a member exactly as long as its count is below the threshold; and
  once it is out it stays out.  The count does not start at zero when the reader was missing
  before (`retention_counts_earlier_misses`).

The invariant behind it is `Covered`: every member of the stored membership is in the last
topology or on the missing list, so there is an entry to count in.
-/
import AuroraOperator.Controller.Safety

namespace AuroraOperator

namespace Controller

open Discovery Planner Render Program

/-! ## 1. Where the members of a plan come from -/

section Members

variable {resource : PgBouncerAurora} {cluster : Cluster} {name : String}

/-- A retained name has an entry on the missing list, with a count below the threshold. -/
theorem retainable_iff :
    retainable (reconcileInput resource) name = true ↔
      name ≠ "" ∧ instanceDisabled resource.spec.pgbouncer name = false ∧
      ∃ m ∈ resource.status.missingInstances, m.instanceName = name ∧
        m.missingCount < missingThreshold resource := by
  unfold retainable
  simp only [Bool.and_eq_true, List.any_eq_true, decide_eq_true_eq, Bool.not_eq_true']
  constructor
  · rintro ⟨⟨m, hm, ⟨hname, hne⟩, hcount⟩, hen⟩
    exact ⟨hne, hen, m, hm, hname, hcount⟩
  · rintro ⟨hne, hen, m, hm, hname, hcount⟩
    exact ⟨⟨m, hm, ⟨hname, hne⟩, hcount⟩, hen⟩

theorem mem_topology_of_discovered (h : (finalPlan resource cluster).frozen = false)
    {o : InstanceObservation} (ho : o ∈ (cachedDiscovery resource).instances) :
    o.name ∈ resource.status.lastKnownTopology.map (·.instanceName) := by
  rw [← map_name_topologyObservations, ← cachedDiscovery_instances (trusted_of_not_frozen h)]
  exact List.mem_map_of_mem ho

theorem decidedWriter_origin (h : (finalPlan resource cluster).frozen = false)
    (hname : name ∈ decidedWriter (reconcileInput resource)) :
    name ∈ resource.status.lastKnownTopology.map (·.instanceName) ∨
      (name ∈ resource.status.lastAppliedMembership.writer ∧
        retainable (reconcileInput resource) name = true) := by
  rcases decidedWriter_cases (reconcileInput resource) with hhealthy | ⟨-, hkept⟩
  · obtain ⟨o, ho, -, -, rfl⟩ := mem_healthyMembers.mp (hhealthy name hname)
    exact Or.inl (mem_topology_of_discovered h ho)
  · exact Or.inr (hkept name hname)

/-- **A planned writer** is in the topology, or was the writer and is retained. -/
theorem planned_writer_origin (h : (finalPlan resource cluster).frozen = false)
    (hname : name ∈ (finalPlan resource cluster).membership.writer) :
    name ∈ resource.status.lastKnownTopology.map (·.instanceName) ∨
      (name ∈ resource.status.lastAppliedMembership.writer ∧
        retainable (reconcileInput resource) name = true) := by
  rcases finalPlan_writer h with hw | ⟨w, hw, hsingle, hne, -⟩
  · rw [hw] at hname
    exact decidedWriter_origin h hname
  · rw [hw, List.mem_singleton] at hname
    subst hname
    obtain ⟨o, ho, -, hon⟩ := exists_single_writer (hsingle ▸ hne)
    left
    rw [hsingle, ← hon]
    exact mem_topology_of_discovered h ho

/-- **A planned reader** is in the topology, or was a member and is retained. -/
theorem planned_reader_origin (h : (finalPlan resource cluster).frozen = false)
    (hname : name ∈ (finalPlan resource cluster).membership.reader) :
    name ∈ resource.status.lastKnownTopology.map (·.instanceName) ∨
      ((name ∈ resource.status.lastAppliedMembership.reader ∨
          name ∈ resource.status.lastAppliedMembership.writer) ∧
        retainable (reconcileInput resource) name = true) := by
  have hwriter : name ∈ decidedWriter (reconcileInput resource) → _ :=
    fun hw => (decidedWriter_origin h hw).imp_right fun hr =>
      (⟨Or.inr hr.1, hr.2⟩ : (name ∈ resource.status.lastAppliedMembership.reader ∨
        name ∈ resource.status.lastAppliedMembership.writer) ∧ _)
  rw [finalPlan_reader h] at hname
  unfold decidedReader at hname
  split at hname
  · rcases (mem_presentReaders _).mp hname with hhealthy | ⟨hlast, hret⟩
    · obtain ⟨o, ho, -, -, rfl⟩ := mem_healthyMembers.mp hhealthy
      exact Or.inl (mem_topology_of_discovered h ho)
    · exact Or.inr ⟨Or.inl hlast, hret⟩
  · split at hname
    · cases hname
    · split at hname
      · exact hwriter hname
      · cases hname

/-- A retained reader is planned. -/
theorem planned_reader_of_retainable (h : (finalPlan resource cluster).frozen = false)
    (hlast : name ∈ resource.status.lastAppliedMembership.reader)
    (hret : retainable (reconcileInput resource) name = true) :
    name ∈ (finalPlan resource cluster).membership.reader := by
  have hpresent : name ∈ presentReaders (reconcileInput resource) :=
    (mem_presentReaders _).mpr (Or.inr ⟨hlast, hret⟩)
  rw [finalPlan_reader h, decidedReader, if_pos (List.ne_nil_of_mem hpresent)]
  exact hpresent

/-- An entry below the threshold is not due for deletion. -/
theorem keepsMissing_of_lt {discovery : DiscoveryResult} {now : Int} {m : MissingInstanceStatus}
    (h : m.missingCount < missingThreshold resource) :
    keepsMissing resource discovery now m = true := by
  have hcount : m.missingCount < removeAfterMissingCount resource := h
  have hready : removedInstanceReadyForDelete resource m now = false := by
    unfold removedInstanceReadyForDelete
    rw [if_pos (Bool.or_eq_true_iff.mpr (Or.inr (decide_eq_true hcount)))]
  rw [keepsMissing, hready]
  simp

end Members

/-! ## 2. Every member can be found -/

/-- The names a status knows of: the last topology, and those that are missing from it. -/
def Known (s : Status) (name : String) : Prop :=
  name ∈ s.lastKnownTopology.map (·.instanceName) ∨
    name ∈ s.missingInstances.map (·.instanceName)

/-- No member was forgotten. -/
structure Covered (s : Status) : Prop where
  writer : ∀ name ∈ s.lastAppliedMembership.writer, Known s name
  reader : ∀ name ∈ s.lastAppliedMembership.reader, Known s name

theorem Covered.of_known {s s' : Status} (h : Covered s)
    (hmembership : s'.lastAppliedMembership = s.lastAppliedMembership)
    (hknown : ∀ name, Known s name → Known s' name) : Covered s' where
  writer name hname := hknown name (h.writer name (hmembership ▸ hname))
  reader name hname := hknown name (h.reader name (hmembership ▸ hname))

/-- A name that was known stays known through a discovery: whoever is not discovered is
missing. -/
theorem discoveryWork_known {discover : Discover} {resource : PgBouncerAurora} {now : Int}
    {status : Status} (hnamed : ¬ Known resource.status "")
    (hcommit : (discoveryWork discover resource now).commit resource = some status)
    {name : String} (hname : Known resource.status name) : Known status name := by
  cases ht : (effectiveDiscovery discover resource).1.trusted with
  | false =>
    obtain ⟨htopology, hmissing, -⟩ := discoveryCommit_untrusted hcommit ht
    unfold Known
    rw [htopology, hmissing]
    exact hname
  | true =>
    obtain ⟨htopology, hmissing, -⟩ := discoveryCommit_trusted hcommit ht
    unfold Known
    rw [htopology, hmissing, map_name_topologyStatus]
    by_cases hin : name ∈ (discoveryWork discover resource now).discovery.instances.map (·.name)
    · exact Or.inl hin
    · right
      have hne : name ≠ "" := by
        rintro rfl
        exact hnamed hname
      exact (mem_missingInstancesFor_names ht).mpr ⟨hne, hin, hname.symm⟩

theorem Sound.not_known_empty {s : Status} (h : Sound s) : ¬ Known s "" := by
  rintro (htopology | hmissing)
  · rcases h.topology with hnil | hwf
    · rw [hnil] at htopology
      cases htopology
    · rw [← map_name_topologyObservations] at htopology
      obtain ⟨o, ho, hname⟩ := List.mem_map.mp htopology
      exact hwf.named o ho hname
  · exact h.named hmissing

/-- A Reconcile leaves the topology alone. -/
theorem PrepareSpec.stored_topology {now : Int} {w w₁ : World} {p : Prepared}
    (hp : PrepareSpec now w p w₁) :
    (w.stored.updateStatus (p.status w.stored.resource)).resource.status.lastKnownTopology
      = w.stored.resource.status.lastKnownTopology := by
  rw [StoredResource.updateStatus_status, Status.marshal_lastKnownTopology, Prepared.status,
    hp.resource, hp.evaluation]
  exact (reconcileCommit_frame _ _ _ _ _).1

/-- An entry below the threshold survives a Reconcile. -/
theorem PrepareSpec.keeps_entry {now : Int} {w w₁ : World} {p : Prepared}
    (hp : PrepareSpec now w p w₁) {m : MissingInstanceStatus}
    (hm : m ∈ w.stored.resource.status.missingInstances)
    (hcount : m.missingCount < missingThreshold w.stored.resource) :
    m ∈ (w.stored.updateStatus (p.status w.stored.resource)).resource.status.missingInstances := by
  rw [hp.stored_missing]
  cases ha : p.applied with
  | false =>
    rw [(hp.skipped ha).1]
    exact hm
  | true =>
    rw [(hp.applied ha).2, List.mem_filter]
    exact ⟨hm, keepsMissing_of_lt hcount⟩

/-- The members of an unfrozen plan are known after the Reconcile that commits it. -/
theorem PrepareSpec.planned_known {now : Int} {w w₁ : World} {p : Prepared}
    (hp : PrepareSpec now w p w₁) {name : String}
    (horigin : name ∈ w.stored.resource.status.lastKnownTopology.map (·.instanceName) ∨
      retainable (reconcileInput w.stored.resource) name = true) :
    Known (w.stored.updateStatus (p.status w.stored.resource)).resource.status name := by
  rcases horigin with htopology | hret
  · left
    rw [hp.stored_topology]
    exact htopology
  · obtain ⟨-, -, m, hm, rfl, hcount⟩ := retainable_iff.mp hret
    exact Or.inr (List.mem_map_of_mem (hp.keeps_entry hm hcount))

theorem PrepareSpec.covered {now : Int} {w w₁ : World} {p : Prepared}
    (hp : PrepareSpec now w p w₁) (hsound : Sound w.stored.resource.status)
    (h : Covered w.stored.resource.status) :
    Covered (w.stored.updateStatus (p.status w.stored.resource)).resource.status := by
  cases hf : p.plan.frozen with
  | true =>
    -- nothing is applied, so nothing is deleted from the list either
    have ha : p.applied = false := by
      by_contra ha
      rw [(hp.applied (by simpa using ha)).1] at hf
      cases hf
    have hmembership : (p.status w.stored.resource).lastAppliedMembership
        = w.stored.resource.status.lastAppliedMembership :=
      (reconcileCommit_frozen _ _ _ _ _ _ hf).1
    refine h.of_known hmembership fun name hname => ?_
    unfold Known
    rw [hp.stored_topology, hp.stored_missing, (hp.skipped ha).1]
    exact hname
  | false =>
    have hsame := hp.stored_members hsound hf
    have hplan : (finalPlan w.stored.resource w.cluster).frozen = false := hp.plan ▸ hf
    refine ⟨fun name hname => ?_, fun name hname => ?_⟩
    · have hin := (hsame.1 name).mpr hname
      rw [hp.plan] at hin
      exact hp.planned_known ((planned_writer_origin hplan hin).imp_right (·.2))
    · have hin := (hsame.2 name).mpr hname
      rw [hp.plan] at hin
      exact hp.planned_known ((planned_reader_origin hplan hin).imp_right (·.2))

/-- **Every move keeps the members known.** -/
theorem Move.covered {w w' : World} {step : Step} {events : List Event}
    (hmove : Move w step w' events) (hsound : Sound w.stored.resource.status)
    (h : Covered w.stored.resource.status) : Covered w'.stored.resource.status := by
  have hmarshal : ∀ {status : Status} {name : String}, Known status name →
      Known (w.stored.updateStatus status).resource.status name := by
    intro status name hname
    unfold Known
    rw [StoredResource.updateStatus_status, Status.marshal_missingInstances, map_name_marshal]
    exact hname
  cases hmove with
  | discovered answered due commit stored =>
    rw [stored]
    exact h.of_known (discoveryCommit_frame commit).1 fun name hname =>
      hmarshal (discoveryWork_known hsound.not_known_empty commit hname)
  | monitored trusted commit stored =>
    obtain ⟨htopology, hmissing, -, hmembership, -⟩ := monitorCommit_frame commit
    rw [stored]
    refine h.of_known hmembership fun name hname => hmarshal ?_
    unfold Known
    rw [htopology, hmissing]
    exact hname
  | reconciled prepared cluster stored =>
    rw [stored]
    exact prepared.covered hsound h
  | edited stored | undiscovered unanswered stored | unmonitored stored | attempted stored
  | moved stored => rw [stored]; exact h

theorem covered_run (name : String) (spec : PgBouncerAuroraSpec) (cluster : Cluster)
    {steps : List Step} (hsteps : ∀ step ∈ steps, FromProvider step) :
    Sound (reached name spec cluster steps).stored.resource.status ∧
      Covered (reached name spec cluster steps).stored.resource.status :=
  Machine.invariant_of_forall
    (I := fun w : World => Sound w.stored.resource.status ∧ Covered w.stored.resource.status)
    (fun w step h hp => ⟨(next_move w step).sound hp h.1, (next_move w step).covered h.1 h.2⟩)
    ⟨⟨consistent_empty, Or.inl rfl⟩, ⟨by simp [World.initial, StoredResource.create],
      by simp [World.initial, StoredResource.create]⟩⟩ hsteps

/-! ## 3. The count of a missing instance -/

/-- How often an instance was missed; nothing for one that is not missing. -/
def missedCount (s : Status) (name : String) : Int32 :=
  ((s.missingInstances.find? (·.instanceName = name)).map (·.missingCount)).getD 0

theorem missedCount_of_mem {s : Status} (h : Consistent s) {m : MissingInstanceStatus}
    (hm : m ∈ s.missingInstances) : missedCount s m.instanceName = m.missingCount := by
  unfold missedCount
  cases hf : s.missingInstances.find? (·.instanceName = m.instanceName) with
  | none => simpa using List.find?_eq_none.mp hf m hm
  | some m' =>
    have hname : m'.instanceName = m.instanceName := by simpa using List.find?_some hf
    rw [List.inj_on_of_nodup_map h.nodup (List.mem_of_find?_eq_some hf) hm hname]
    rfl

theorem missedCount_of_not_mem {s : Status} {name : String}
    (h : name ∉ s.missingInstances.map (·.instanceName)) : missedCount s name = 0 := by
  unfold missedCount
  have hnone : s.missingInstances.find? (·.instanceName = name) = none := by
    rw [List.find?_eq_none]
    intro m hm hname
    exact h (List.mem_map.mpr ⟨m, hm, of_decide_eq_true hname⟩)
  rw [hnone]
  rfl

/-- **One more miss.**  A trusted discovery without a known instance adds one to its count. -/
theorem discoveryWork_missed {discover : Discover} {resource : PgBouncerAurora} {now : Int}
    {status : Status} {discovery : DiscoveryResult} {name : String}
    (hsound : Sound resource.status) (hknown : Known resource.status name)
    (hok : discover resource = .ok discovery) (ht : discovery.trusted = true)
    (hname : name ∉ discovery.instances.map (·.name))
    (hcommit : (discoveryWork discover resource now).commit resource = some status) :
    name ∉ status.lastKnownTopology.map (·.instanceName) ∧
      ∃ m ∈ status.missingInstances, m.instanceName = name ∧
        m.missingCount = missedCount resource.status name + 1 := by
  have heff : effectiveDiscovery discover resource = (discovery, false) := by
    simp [effectiveDiscovery, hok, ht]
  have hwork : (discoveryWork discover resource now).discovery = discovery :=
    congrArg Prod.fst heff
  have hmiss : (discoveryWork discover resource now).missing
      = missingInstancesFor resource discovery true now := by
    simp [discoveryWork, heff]
  obtain ⟨htopology, hmissing, -⟩ := discoveryCommit_trusted hcommit (by rw [hwork]; exact ht)
  rw [hwork] at htopology
  rw [hmiss] at hmissing
  have hne : name ≠ "" := by
    rintro rfl
    exact hsound.not_known_empty hknown
  refine ⟨by rw [htopology, map_name_topologyStatus]; exact hname, ?_⟩
  have hlisted : name ∈ (missingInstancesFor resource discovery true now).map (·.instanceName) :=
    (mem_missingInstancesFor_names ht).mpr ⟨hne, hname, hknown.symm⟩
  obtain ⟨m, hm, rfl⟩ := List.mem_map.mp hlisted
  refine ⟨m, hmissing ▸ hm, rfl, ?_⟩
  have hcount := congrArg MissingInstanceStatus.missingCount (mem_missingInstancesFor ht hm)
  by_cases hin : m.instanceName ∈ resource.status.missingInstances.map (·.instanceName)
  · -- missing before
    obtain ⟨m₀, hm₀, hname₀⟩ := List.mem_map.mp hin
    have hcurrent : discoveredInstanceSet discovery.instances m.instanceName = false := by
      rw [← Bool.not_eq_true]
      simpa [discoveredInstanceSet, hne] using hname
    have hexisting := existingMissing_of_mem hsound.nodup hm₀ (hname₀ ▸ hne) (hname₀ ▸ hcurrent)
    rw [hname₀] at hexisting
    rw [hexisting] at hcount
    rw [hcount, ← hname₀, missedCount_of_mem hsound.toConsistent hm₀]
    rfl
  · -- there before
    rw [existingMissing_of_not_mem hin] at hcount
    rw [hcount, missedCount_of_not_mem hin]
    rfl

/-! ## 4. Runs without the reader -/

/-- What counts in such a run: a discovery was committed, or a Reconcile has committed an
unfrozen plan. -/
inductive Milestone
  | discovered
  | settled
  deriving DecidableEq

def World.milestones (w : World) : Step → List Milestone
  | .discover discover checkedAt now faults =>
    if answer (runDiscoveryJob discover checkedAt now) (w.meet faults) then [.discovered] else []
  | .reconcile now faults =>
    if returns (fun prepared _ => !prepared.plan.frozen) (reconcile .scheduled now)
      (w.meet faults) then [.settled] else []
  | _ => []

abbrev marked : World × List Milestone → Step → World × List Milestone :=
  Machine.traced World.next World.milestones

/-- A step of a run that misses the instance: every discovery is trusted and does not list it,
and none is committed before the last one was followed by a Reconcile that counts.  Until the
first discovery there is no Reconcile. -/
def Misses (name : String) (threshold : Int32) (t : World × List Milestone) : Step → Prop
  | .discover discover checkedAt now faults =>
    (∃ discovery, discover t.1.stored.resource = .ok discovery ∧ discovery.trusted = true ∧
      name ∉ discovery.instances.map (·.name)) ∧
    (answer (runDiscoveryJob discover checkedAt now) (t.1.meet faults) = true →
      t.2.head? ≠ some .discovered)
  | .reconcile _ _ => t.2 ≠ []
  | .editSpec spec => defaultInt32 spec.topologyPolicy.removeAfterMissingCount 3 = threshold ∧
    instanceDisabled spec.pgbouncer name = false
  | _ => True

/-- The number of discoveries so far. -/
def discoveries (marks : List Milestone) : Nat := marks.count .discovered

@[simp] theorem discoveries_discovered (marks : List Milestone) :
    discoveries (.discovered :: marks) = discoveries marks + 1 := List.count_cons_self

@[simp] theorem discoveries_settled (marks : List Milestone) :
    discoveries (.settled :: marks) = discoveries marks :=
  List.count_cons_of_ne (by decide)

/-- The reader is still a member; `start` is its count at the start of the run. -/
structure StillMember (name : String) (threshold : Int32) (start : Int) (s : Status)
    (marks : List Milestone) : Prop where
  member : name ∈ s.lastAppliedMembership.reader
  known : Known s name
  absent : marks ≠ [] → name ∉ s.lastKnownTopology.map (·.instanceName)
  count : (missedCount s name).toInt = start + discoveries marks
  settled : marks.head? = some .settled → start + discoveries marks < threshold.toInt

/-- The reader is out, and nothing is left that could bring it back without a discovery. -/
structure TakenOut (name : String) (threshold : Int32) (start : Int) (s : Status)
    (marks : List Milestone) : Prop where
  reader : name ∉ s.lastAppliedMembership.reader
  writer : name ∉ s.lastAppliedMembership.writer
  absent : name ∉ s.lastKnownTopology.map (·.instanceName)
  due : threshold.toInt ≤ start + discoveries marks

def Outcome (name : String) (threshold : Int32) (start : Int) (s : Status)
    (marks : List Milestone) : Prop :=
  StillMember name threshold start s marks ∨ TakenOut name threshold start s marks

structure Retention (name : String) (threshold : Int32) (start : Int)
    (t : World × List Milestone) : Prop where
  sound : Sound t.1.stored.resource.status
  constant : missingThreshold t.1.stored.resource = threshold
  enabled : instanceDisabled t.1.stored.resource.spec.pgbouncer name = false
  phase : Outcome name threshold start t.1.stored.resource.status t.2

section Steps

variable {name : String} {threshold : Int32} {start : Int} {marks : List Milestone}

/-- Only topology, missing list and membership matter. -/
theorem StillMember.same {s s' : Status} (h : StillMember name threshold start s marks)
    (htopology : s'.lastKnownTopology = s.lastKnownTopology)
    (hmissing : s'.missingInstances = s.missingInstances)
    (hmembership : s'.lastAppliedMembership = s.lastAppliedMembership) :
    StillMember name threshold start s' marks where
  member := hmembership ▸ h.member
  known := by unfold Known; rw [htopology, hmissing]; exact h.known
  absent := by rw [htopology]; exact h.absent
  count := by unfold missedCount; rw [hmissing]; exact h.count
  settled := h.settled

theorem TakenOut.same {s s' : Status} {marks' : List Milestone}
    (h : TakenOut name threshold start s marks) (hmarks : discoveries marks ≤ discoveries marks')
    (hreader : name ∉ s'.lastAppliedMembership.reader)
    (hwriter : name ∉ s'.lastAppliedMembership.writer)
    (htopology : name ∉ s'.lastKnownTopology.map (·.instanceName)) :
    TakenOut name threshold start s' marks' where
  reader := hreader
  writer := hwriter
  absent := htopology
  due := h.due.trans (by omega)

theorem head_settled {marks : List Milestone} (hne : marks ≠ [])
    (h : marks.head? ≠ some .discovered) : marks.head? = some .settled := by
  match marks with
  | .settled :: _ => rfl
  | .discovered :: _ => exact absurd rfl h
  | [] => exact absurd rfl hne

/-- A committed discovery without the reader adds one to its count. -/
theorem StillMember.discovered {w : World} {status : Status} {discover : Discover} {now : Int}
    {discovery : DiscoveryResult}
    (hsound : Sound w.stored.resource.status)
    (hsound' : Sound (w.stored.updateStatus status).resource.status)
    (h : StillMember name threshold start w.stored.resource.status marks)
    (hstart : start < 2 ^ 31 - 1) (hmarks : marks.head? ≠ some .discovered)
    (hok : discover w.stored.resource = .ok discovery) (ht : discovery.trusted = true)
    (hname : name ∉ discovery.instances.map (·.name))
    (hcommit : (discoveryWork discover w.stored.resource now).commit w.stored.resource
      = some status) :
    StillMember name threshold start (w.stored.updateStatus status).resource.status
      (.discovered :: marks) := by
  obtain ⟨habsent, m, hm, rfl, hcount⟩ :=
    discoveryWork_missed hsound h.known hok ht hname hcommit
  have hmem : m.marshal ∈ (w.stored.updateStatus status).resource.status.missingInstances :=
    List.mem_map_of_mem hm
  -- below the threshold, or before the first discovery: the count does not overflow
  have hlt : start + discoveries marks < 2 ^ 31 - 1 := by
    by_cases hnil : marks = []
    · simpa [hnil, discoveries] using hstart
    · have hbelow := h.settled (head_settled hnil hmarks)
      have hmax := threshold.toInt_lt
      omega
  refine ⟨?_, Or.inr (List.mem_map.mpr ⟨_, hmem, rfl⟩), fun _ => habsent, ?_, nofun⟩
  · rw [StoredResource.updateStatus_status, Status.marshal_lastAppliedMembership,
      (discoveryCommit_frame hcommit).1]
    exact h.member
  · have hentry : missedCount (w.stored.updateStatus status).resource.status m.instanceName
        = m.missingCount := missedCount_of_mem (m := m.marshal) hsound'.toConsistent hmem
    rw [← h.count] at hlt
    rw [hentry, hcount, int32_toInt_succ hlt, h.count, discoveries_discovered]
    push_cast
    ring

/-- The entry of a retained reader that is not in the topology. -/
theorem StillMember.entry {s : Status} (h : StillMember name threshold start s marks)
    (hconsistent : Consistent s) (hmarks : marks ≠ []) :
    ∃ m ∈ s.missingInstances, m.instanceName = name ∧
      m.missingCount.toInt = start + discoveries marks := by
  obtain ⟨m, hm, rfl⟩ := List.mem_map.mp (h.known.resolve_left (h.absent hmarks))
  exact ⟨m, hm, rfl, by rw [← missedCount_of_mem hconsistent hm, h.count]⟩

/-- **The threshold decides.**  A Reconcile with an unfrozen plan leaves the reader in as long as
its count is below the threshold, and takes it out otherwise. -/
theorem PrepareSpec.settles {now : Int} {w w₁ : World} {p : Prepared}
    (hp : PrepareSpec now w p w₁) (hsound : Sound w.stored.resource.status)
    (hsound' : Sound (w.stored.updateStatus (p.status w.stored.resource)).resource.status)
    (hthreshold : missingThreshold w.stored.resource = threshold)
    (henabled : instanceDisabled w.stored.resource.spec.pgbouncer name = false)
    (hf : p.plan.frozen = false) (hmarks : marks ≠ [])
    (h : StillMember name threshold start w.stored.resource.status marks) :
    StillMember name threshold start
        (w.stored.updateStatus (p.status w.stored.resource)).resource.status (.settled :: marks) ∨
      TakenOut name threshold start
        (w.stored.updateStatus (p.status w.stored.resource)).resource.status
        (.settled :: marks) := by
  have hplan : (finalPlan w.stored.resource w.cluster).frozen = false := hp.plan ▸ hf
  have hsame := hp.stored_members hsound hf
  rw [hp.plan] at hsame
  obtain ⟨m, hm, rfl, hcount⟩ := h.entry hsound.toConsistent hmarks
  have hne : m.instanceName ≠ "" := by
    intro hnil
    exact hsound.named (hnil ▸ List.mem_map_of_mem hm)
  by_cases hlt : m.missingCount < threshold
  · left
    have hret : retainable (reconcileInput w.stored.resource) m.instanceName = true :=
      retainable_iff.mpr ⟨hne, henabled, m, hm, rfl, hthreshold ▸ hlt⟩
    have hkept := hp.keeps_entry hm (hthreshold ▸ hlt)
    refine ⟨(hsame.2 _).mp (planned_reader_of_retainable hplan h.member hret),
      Or.inr (List.mem_map_of_mem hkept), fun _ => ?_, ?_, fun _ => ?_⟩
    · rw [hp.stored_topology]
      exact h.absent hmarks
    · rw [missedCount_of_mem hsound'.toConsistent hkept, hcount, discoveries_settled]
    · rw [discoveries_settled, ← hcount]
      exact Int32.lt_iff_toInt_lt.mp hlt
  · right
    have hnot : retainable (reconcileInput w.stored.resource) m.instanceName ≠ true := by
      intro hret
      obtain ⟨-, -, m', hm', hname, hbelow⟩ := retainable_iff.mp hret
      rw [List.inj_on_of_nodup_map hsound.nodup hm' hm hname, hthreshold] at hbelow
      exact hlt hbelow
    refine ⟨fun hin => ?_, fun hin => ?_, ?_, ?_⟩
    · rcases planned_reader_origin hplan ((hsame.2 _).mpr hin) with htopology | hret
      · exact h.absent hmarks htopology
      · exact hnot hret.2
    · rcases planned_writer_origin hplan ((hsame.1 _).mpr hin) with htopology | hret
      · exact h.absent hmarks htopology
      · exact hnot hret.2
    · rw [hp.stored_topology]
      exact h.absent hmarks
    · rw [discoveries_settled, ← hcount]
      exact Int32.le_iff_toInt_le.mp (Int32.not_lt.mp hlt)

/-- Whoever is neither in the topology nor a member is not made one. -/
theorem PrepareSpec.leaves_out {now : Int} {w w₁ : World} {p : Prepared}
    (hp : PrepareSpec now w p w₁)
    (h : TakenOut name threshold start w.stored.resource.status marks) :
    name ∉ (p.status w.stored.resource).lastAppliedMembership.reader ∧
      name ∉ (p.status w.stored.resource).lastAppliedMembership.writer := by
  rcases p.membership_cases w.stored.resource with hold | ⟨hf, hnew⟩
  · rw [hold]
    exact ⟨h.reader, h.writer⟩
  · rw [hnew]
    rw [hp.plan] at hf ⊢
    refine ⟨fun hin => ?_, fun hin => ?_⟩
    · rcases planned_reader_origin hf hin with htopology | ⟨hmember, -⟩
      · exact h.absent htopology
      · exact hmember.elim h.reader h.writer
    · rcases planned_writer_origin hf hin with htopology | ⟨hmember, -⟩
      · exact h.absent htopology
      · exact h.writer hmember

/-- **Out is out.** -/
theorem TakenOut.move {w w' : World} {step : Step} {events : List Event} {marks' : List Milestone}
    (h : TakenOut name threshold start w.stored.resource.status marks)
    (hmove : Move w step w' events) (hstep : Misses name threshold (w, marks) step)
    (hmarks : discoveries marks ≤ discoveries marks') :
    TakenOut name threshold start w'.stored.resource.status marks' := by
  cases hmove with
  | discovered answered due commit stored =>
    rename_i discover checkedAt now faults status
    obtain ⟨⟨discovery, hok, ht, hname⟩, -⟩ := hstep
    have hwork : (discoveryWork discover w.stored.resource now).discovery = discovery := by
      simp [discoveryWork, effectiveDiscovery, hok, ht]
    have hmembership := (discoveryCommit_frame commit).1
    have htopology := (discoveryCommit_trusted commit (by rw [hwork]; exact ht)).1
    rw [stored]
    refine h.same hmarks (hmembership ▸ h.reader) (hmembership ▸ h.writer) ?_
    rw [StoredResource.updateStatus_status, Status.marshal_lastKnownTopology, htopology, hwork,
      map_name_topologyStatus]
    exact hname
  | monitored trusted commit stored =>
    obtain ⟨htopology, -, -, hmembership, -⟩ := monitorCommit_frame commit
    rw [stored]
    exact h.same hmarks (hmembership ▸ h.reader) (hmembership ▸ h.writer) (htopology ▸ h.absent)
  | reconciled prepared cluster stored =>
    have hout := prepared.leaves_out h
    rw [stored]
    exact h.same hmarks hout.1 hout.2 (prepared.stored_topology ▸ h.absent)
  | edited stored | undiscovered unanswered stored | unmonitored stored | attempted stored
  | moved stored => rw [stored]; exact h.same hmarks h.reader h.writer h.absent

/-- A frozen Reconcile changes nothing that matters here. -/
theorem PrepareSpec.frozen_same {now : Int} {w w₁ : World} {p : Prepared}
    (hp : PrepareSpec now w p w₁) (hf : p.plan.frozen = true) :
    let s := (w.stored.updateStatus (p.status w.stored.resource)).resource.status
    s.missingInstances = w.stored.resource.status.missingInstances ∧
      s.lastAppliedMembership = w.stored.resource.status.lastAppliedMembership := by
  have ha : p.applied = false := by
    by_contra ha
    rw [(hp.applied (by simpa using ha)).1] at hf
    cases hf
  have hmembership : (p.status w.stored.resource).lastAppliedMembership
      = w.stored.resource.status.lastAppliedMembership :=
    (reconcileCommit_frozen _ _ _ _ _ _ hf).1
  exact ⟨hp.stored_missing.trans (hp.skipped ha).1, hmembership⟩

/-- What a Reconcile step does, with its mark. -/
theorem reconcile_marks (w : World) (now : Int) (faults : List (Option Fault)) :
    (∃ p w₁, PrepareSpec now (w.meet faults) p w₁ ∧
      (w.next (.reconcile now faults)).stored
        = w.stored.updateStatus (p.status w.stored.resource) ∧
      w.milestones (.reconcile now faults) = if p.plan.frozen then [] else [.settled]) ∨
    ((w.next (.reconcile now faults)).stored = w.stored ∧
      w.milestones (.reconcile now faults) = []) := by
  rcases reconcile_cases w now faults with
    ⟨p, w', h, w₁, hprepared, -, hstored⟩ | ⟨e, w', h, hstored⟩
  · refine Or.inl ⟨p, w₁, hprepared, hstored, ?_⟩
    simp only [World.milestones, returns, h]
    cases p.plan.frozen <;> rfl
  · refine Or.inr ⟨hstored, ?_⟩
    simp [World.milestones, returns, h]

/-- Only an edit changes the spec. -/
theorem Move.spec_cases {w w' : World} {step : Step} {events : List Event}
    (hmove : Move w step w' events) (P : PgBouncerAuroraSpec → Prop)
    (h : P w.stored.resource.spec) (hedit : ∀ spec, step = .editSpec spec → P spec) :
    P w'.stored.resource.spec := by
  cases hmove with
  | edited stored => rw [stored]; exact hedit _ rfl
  | discovered answered due commit stored | monitored trusted commit stored
  | reconciled prepared cluster stored | undiscovered unanswered stored | unmonitored stored
  | attempted stored | moved stored => rw [stored]; exact h

theorem StillMember.reconcile {w : World} {now : Int} {faults : List (Option Fault)}
    (h : Retention name threshold start (w, marks))
    (hretained : StillMember name threshold start w.stored.resource.status marks) (hmarks : marks ≠ [])
    (hsound : Sound (w.next (.reconcile now faults)).stored.resource.status) :
    Outcome name threshold start (w.next (.reconcile now faults)).stored.resource.status
      (w.milestones (.reconcile now faults) ++ marks) := by
  rcases reconcile_marks w now faults with ⟨p, w₁, hp, hstored, hmark⟩ | ⟨hstored, hmark⟩
  · rw [hstored] at hsound ⊢
    rw [hmark]
    cases hf : p.plan.frozen with
    | true =>
      obtain ⟨hmissing, hmembership⟩ := hp.frozen_same hf
      exact Or.inl (hretained.same hp.stored_topology hmissing hmembership)
    | false => exact hp.settles h.sound hsound h.constant h.enabled hf hmarks hretained
  · rw [hstored, hmark]
    exact Or.inl hretained

/-- A monitor job leaves the counts and the members alone. -/
theorem StillMember.monitor {w w' : World} {check : Check} {checkedAt now : Int}
    {faults : List (Option Fault)} {events : List Event}
    (h : StillMember name threshold start w.stored.resource.status marks)
    (hmove : Move w (.monitor check checkedAt now faults) w' events) :
    StillMember name threshold start w'.stored.resource.status marks := by
  cases hmove with
  | monitored trusted commit stored =>
    obtain ⟨htopology, hmissing, -, hmembership, -⟩ := monitorCommit_frame commit
    rw [stored]
    refine h.same htopology ?_ hmembership
    rw [StoredResource.updateStatus_status, Status.marshal_missingInstances, hmissing]
    exact w.stored.marshal_missingInstances
  | unmonitored stored =>
    rw [stored]
    exact h

theorem StillMember.discover {w w' : World} {discover : Discover} {checkedAt now : Int}
    {faults : List (Option Fault)} {events : List Event}
    (h : StillMember name threshold start w.stored.resource.status marks)
    (hmove : Move w (.discover discover checkedAt now faults) w' events)
    (hstart : start < 2 ^ 31 - 1)
    (hstep : Misses name threshold (w, marks) (.discover discover checkedAt now faults))
    (hsound : Sound w.stored.resource.status) (hsound' : Sound w'.stored.resource.status) :
    StillMember name threshold start w'.stored.resource.status
      (w.milestones (.discover discover checkedAt now faults) ++ marks) := by
  obtain ⟨⟨discovery, hok, ht, hname⟩, hmarks⟩ := hstep
  cases hmove with
  | discovered answered due commit stored =>
    have hmark : w.milestones (.discover discover checkedAt now faults) = [.discovered] :=
      if_pos answered
    rw [hmark]
    rw [stored] at hsound' ⊢
    exact h.discovered hsound hsound' hstart (hmarks answered) hok ht hname commit
  | undiscovered unanswered stored =>
    have hmark : w.milestones (.discover discover checkedAt now faults) = [] :=
      if_neg (by rw [unanswered]; simp)
    rw [hmark, stored]
    exact h

theorem discoveries_le (w : World) (step : Step) (marks : List Milestone) :
    discoveries marks ≤ discoveries (w.milestones step ++ marks) := by
  rw [discoveries, discoveries, List.count_append]
  omega

/-- **Every step of such a run keeps the count exact.** -/
theorem Retention.next {t : World × List Milestone} {step : Step} (hprovider : FromProvider step)
    (hstart : start < 2 ^ 31 - 1) (h : Retention name threshold start t)
    (hstep : Misses name threshold t step) : Retention name threshold start (marked t step) := by
  obtain ⟨w, marks⟩ := t
  have hmove := next_move w step
  have hsound := hmove.sound hprovider h.sound
  have hphase : Outcome name threshold start (w.next step).stored.resource.status
      (w.milestones step ++ marks) := by
    rcases h.phase with hretained | hremoved
    · cases step with
      | discover discover checkedAt now faults =>
        exact Or.inl (hretained.discover hmove hstart hstep h.sound hsound)
      | monitor check checkedAt now faults => exact Or.inl (hretained.monitor hmove)
      | reconcile now faults => exact hretained.reconcile h hstep hsound
      | editSpec spec => exact Or.inl hretained
      | environment cluster => exact Or.inl hretained
    · exact Or.inr (hremoved.move hmove hstep (discoveries_le w step marks))
  refine ⟨hsound, ?_, ?_, hphase⟩
  · exact hmove.spec_cases (fun spec => defaultInt32 spec.topologyPolicy.removeAfterMissingCount 3
      = threshold) h.constant fun spec hedit => by subst hedit; exact hstep.1
  · exact hmove.spec_cases (fun spec => instanceDisabled spec.pgbouncer name = false) h.enabled
      fun spec hedit => by subst hedit; exact hstep.2

end Steps

/-! ## 5. Reader retention -/

/-- **Reader retention is exact.**  From any state the operator reaches, take an enabled reader
of the stored membership.  Along a run whose discoveries all miss it, each followed by a
Reconcile that counts, it is a member after the Reconcile exactly if its count, that is its
count at the start plus the number of discoveries, is below the threshold; and once it is out it
stays out for as long as the run goes on. -/
theorem reader_retention (name : String) (spec : PgBouncerAuroraSpec) (cluster : Cluster)
    (before steps : List Step) (hprovider : ∀ step ∈ before ++ steps, FromProvider step)
    (reader : String)
    (hmember : reader ∈
      (reached name spec cluster before).stored.resource.status.lastAppliedMembership.reader)
    (henabled : instanceDisabled
      (reached name spec cluster before).stored.resource.spec.pgbouncer reader = false)
    (hcount : (missedCount (reached name spec cluster before).stored.resource.status
      reader).toInt < 2 ^ 31 - 1)
    (hsteps : Machine.Along marked
      (Misses reader (missingThreshold (reached name spec cluster before).stored.resource))
      (reached name spec cluster before, []) steps) :
    let w := reached name spec cluster before
    let t := Machine.run marked (w, []) steps
    (t.2.head? = some .settled →
      (reader ∈ t.1.stored.resource.status.lastAppliedMembership.reader ↔
        (missedCount w.stored.resource.status reader).toInt + discoveries t.2
          < (missingThreshold w.stored.resource).toInt)) ∧
    ∀ more, Machine.Along marked (Misses reader (missingThreshold w.stored.resource)) t more →
      reader ∉ t.1.stored.resource.status.lastAppliedMembership.reader →
      reader ∉ (Machine.run marked t more).1.stored.resource.status.lastAppliedMembership.reader := by
  intro w t
  obtain ⟨hsound, hcovered⟩ := covered_run name spec cluster
    fun step hstep => hprovider step (List.mem_append_left _ hstep)
  set start := (missedCount w.stored.resource.status reader).toInt
  have hinitial : Retention reader (missingThreshold w.stored.resource) start (w, []) :=
    { sound := hsound
      constant := rfl
      enabled := henabled
      phase := Or.inl
        { member := hmember
          known := hcovered.reader reader hmember
          absent := fun h => absurd rfl h
          count := by simp [discoveries, start]
          settled := nofun } }
  have hown : Machine.Along marked (fun _ step => FromProvider step) (w, []) steps :=
    Machine.along_of_forall
      (fun step hstep _ => hprovider step (List.mem_append_right _ hstep)) _
  have hrun : Retention reader (missingThreshold w.stored.resource) start t :=
    (hown.and hsteps).invariant (fun t step h hstep => h.next hstep.1 hcount hstep.2) hinitial
  refine ⟨fun hsettled => ?_, fun more hmore hout => ?_⟩
  · rcases hrun.phase with hretained | hremoved
    · exact iff_of_true hretained.member (hretained.settled hsettled)
    · exact iff_of_false hremoved.reader (not_lt.mpr hremoved.due)
  · have hremoved := hrun.phase.resolve_left fun h => hout h.member
    exact (Machine.Along.invariant (I := fun t : World × List Milestone =>
      TakenOut reader (missingThreshold w.stored.resource) start t.1.stored.resource.status t.2)
      (fun t step h hstep => h.move (next_move t.1 step) hstep (discoveries_le _ _ _))
      hremoved hmore).reader

/-- A database that lists the writer `a` and the given readers. -/
def listing (readers : List String) : Provider where
  rows := some (.ok (⟨"a", masterSessionID⟩ :: readers.map fun name => ⟨name, "session"⟩))
  metadata := none

def discoverRows (readers : List String) (now : Int) : Step :=
  .discover (fun resource => .ok ((listing readers).discover resource)) now now []

theorem discoverRows_fromProvider (readers : List String) (now : Int) :
    FromProvider (discoverRows readers now) := by
  intro resource discovery h
  exact ⟨listing readers, (Except.ok.inj h).symm⟩

/-- A monitor job that finds `a` and `b` healthy. -/
def monitorBoth (now : Int) : Step :=
  .monitor (fun _ _ => .ok (((∅ : StringMap HealthStatus).insert "a" { healthy := true }).insert
    "b" { healthy := true })) now now []

/-- The reader `b` becomes a member.  The namespace is emptied afterwards, so that there is less
to compare with in the examples. -/
def joined : List Step :=
  [discoverRows ["b"] (10 * second), monitorBoth (20 * second), .reconcile (30 * second) [],
    .environment {}]

/-- A discovery without `b`, and a Reconcile. -/
def missOnce (now : Int) : List Step := [discoverRows [] now, .reconcile (now + second) []]

theorem joined_fromProvider : ∀ step ∈ joined, FromProvider step := by
  intro step hstep
  simp only [joined, List.mem_cons, List.not_mem_nil, or_false] at hstep
  rcases hstep with rfl | rfl | rfl | rfl
  · exact discoverRows_fromProvider _ _
  · trivial
  · trivial
  · trivial

theorem missOnce_fromProvider (now : Int) : ∀ step ∈ missOnce now, FromProvider step := by
  intro step hstep
  simp only [missOnce, List.mem_cons, List.not_mem_nil, or_false] at hstep
  rcases hstep with rfl | rfl
  · exact discoverRows_fromProvider _ _
  · trivial

/-- What it takes for these two steps to be a run without `b`. -/
def MissesAt (w : World) (now : Int) : Prop :=
  ((listing []).discover w.stored.resource).trusted = true ∧
    "b" ∉ ((listing []).discover w.stored.resource).instances.map (·.name) ∧
    w.milestones (discoverRows [] now) = [.discovered]

instance (w : World) (now : Int) : Decidable (MissesAt w now) := by
  unfold MissesAt
  infer_instance

theorem MissesAt.along {w : World} {now : Int} (h : MissesAt w now) (threshold : Int32) :
    Machine.Along marked (Misses "b" threshold) (w, []) (missOnce now) := by
  refine ⟨⟨⟨_, rfl, h.1, h.2.1⟩, fun _ => by simp⟩, ?_, trivial⟩
  show w.milestones (discoverRows [] now) ++ [] ≠ []
  rw [h.2.2]
  simp

theorem reader_retention_example :
    "b" ∈ (Machine.run marked (reached "db" exampleSpec {} joined, [])
      (missOnce (60 * second))).1.stored.resource.status.lastAppliedMembership.reader := by
  have hfacts :
      let w := reached "db" exampleSpec {} joined
      let t := Machine.run marked (w, []) (missOnce (60 * second))
      "b" ∈ w.stored.resource.status.lastAppliedMembership.reader ∧
        instanceDisabled w.stored.resource.spec.pgbouncer "b" = false ∧
        MissesAt w (60 * second) ∧ t.2.head? = some .settled ∧
        (missedCount w.stored.resource.status "b").toInt < 2 ^ 31 - 1 ∧
        (missedCount w.stored.resource.status "b").toInt + discoveries t.2
          < (missingThreshold w.stored.resource).toInt := by decide +kernel
  obtain ⟨hmember, henabled, hmisses, hsettled, hcount, hbelow⟩ := hfacts
  have h := reader_retention "db" exampleSpec {} joined (missOnce (60 * second))
    (fun step hstep => (List.mem_append.mp hstep).elim (joined_fromProvider step)
      (missOnce_fromProvider _ step)) "b" hmember henabled hcount (hmisses.along _)
  exact (h.1 hsettled).mpr hbelow

/-- A threshold of two. -/
def twoMisses : PgBouncerAuroraSpec :=
  { exampleSpec with topologyPolicy := { removeAfterMissingCount := 2 } }

/-- **Earlier misses count.**  A reader that was missed once before the run is out after its
first discovery, with a threshold of two. -/
theorem retention_counts_earlier_misses :
    let w := reached "db" twoMisses {} (joined ++ [discoverRows [] (60 * second)])
    let t := Machine.run marked (w, []) (missOnce (90 * second))
    ("b" ∈ w.stored.resource.status.lastAppliedMembership.reader ∧
      instanceDisabled w.stored.resource.spec.pgbouncer "b" = false ∧
      missingThreshold w.stored.resource = 2 ∧
      discoveries t.2 = 1 ∧ t.2.head? = some .settled ∧
      "b" ∉ t.1.stored.resource.status.lastAppliedMembership.reader) ∧
    Machine.Along marked (Misses "b" 2) (w, []) (missOnce (90 * second)) := by
  refine ⟨by decide +kernel, MissesAt.along ?_ 2⟩
  decide +kernel

end Controller

end AuroraOperator

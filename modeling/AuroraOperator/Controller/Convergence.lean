/-
# The operator converges

Whatever happened before: when Aurora has come to rest, the operator puts exactly the right
instances behind the two Services, and leaves them there.

At rest, every discovery that is made returns the same well-formed topology, every probe that
returns finds its enabled instances healthy, and nobody edits the spec.  Calls may still fail, jobs
may come in any order, and the pods may do what they like.  But jobs and Reconciles do not overlap,
before or after: a Reconcile that a discovery overtakes can write back an absence that is over
(`StaleCommits`), and no count of commits says then how long somebody has been missing.  How far the
operator has come is counted in commits (`Progress`): discoveries, until every instance that is gone
has been missed often enough; probes since the first of them, until every instance has recovered;
and a Reconcile after that.

* `membership_converges`: then the membership is the one that the topology asks for
  (`wantedMembership`), which mentions neither health nor history.
* `rounds_converge`: without failures, as many rounds of discovery, probe and Reconcile as the
  larger of the two thresholds are enough, and the pods are labelled for it.

The counters are int32 and wrap, so there is a limit to the length of the run; `Counted` says that
no counter exceeds the number of steps.
-/
import AuroraOperator.Controller.Replacement
import AuroraOperator.Controller.Success
import AuroraOperator.Controller.Tracking

namespace AuroraOperator

namespace Controller

open Discovery Planner Render Program Hysteresis

/-! ## 1. Counters count steps -/

def CountedTo (n : Nat) (count : Int32) : Prop := 0 ≤ count.toInt ∧ count.toInt ≤ n

theorem CountedTo.zero (n : Nat) : CountedTo n 0 := ⟨le_rfl, Int.natCast_nonneg n⟩

theorem CountedTo.mono {n m : Nat} {count : Int32} (h : CountedTo n count) (hnm : n ≤ m) :
    CountedTo m count := ⟨h.1, h.2.trans (Int.ofNat_le.mpr hnm)⟩

theorem CountedTo.toInt_succ {n : Nat} {count : Int32} (h : CountedTo n count)
    (hn : n < 2 ^ 31 - 1) : (count + 1).toInt = count.toInt + 1 := by
  refine int32_toInt_succ ?_
  have hle := h.2
  omega

theorem CountedTo.succ {n : Nat} {count : Int32} (h : CountedTo n count) (hn : n < 2 ^ 31 - 1) :
    CountedTo (n + 1) (count + 1) := by
  have hsucc := h.toInt_succ hn
  obtain ⟨hpos, hle⟩ := h
  constructor <;> omega

/-- No counter is above the number of steps. -/
structure Counted (n : Nat) (s : Status) : Prop where
  missing : ∀ m ∈ s.missingInstances, CountedTo n m.missingCount
  failures : ∀ item ∈ s.instances, CountedTo n item.consecutiveFailures
  successes : ∀ item ∈ s.instances, CountedTo n item.consecutiveSuccesses

theorem counted_empty : Counted 0 {} := ⟨by simp, by simp, by simp⟩

section Counted

variable {n : Nat} {input : Input}

/-- What a plan starts from is stored, and about the same machine. -/
theorem storedHealth_of_previousFor {o : InstanceObservation} {item : InstanceStatus}
    (h : previousFor input o = some item) :
    storedHealth o.name input.resource.status = some item ∧ SameInstance o.dbiResourceId item := by
  unfold previousFor at h
  split at h
  · cases h
  · rename_i found hfound
    split at h
    · cases h
    · rename_i hid
      cases h
      exact ⟨hfound, Bool.eq_false_iff.mpr hid⟩

theorem previousFor_mem {o : InstanceObservation} {item : InstanceStatus}
    (h : previousFor input o = some item) : item ∈ input.resource.status.instances :=
  (mem_of_storedHealth (storedHealth_of_previousFor h).1).1

/-- A plan adds at most one to a count. -/
theorem planEntry_counted (h : Counted n input.resource.status) (hn : n < 2 ^ 31 - 1)
    (o : InstanceObservation) :
    CountedTo (n + 1) (planEntry input o).consecutiveFailures ∧
      CountedTo (n + 1) (planEntry input o).consecutiveSuccesses := by
  have hzero := CountedTo.zero (n + 1)
  have hfailures : CountedTo n (((previousFor input o).map (·.consecutiveFailures)).getD 0) := by
    cases hp : previousFor input o with
    | none => exact CountedTo.zero n
    | some item => exact h.failures item (previousFor_mem hp)
  have hsuccesses : CountedTo n (((previousFor input o).map (·.consecutiveSuccesses)).getD 0) := by
    cases hp : previousFor input o with
    | none => exact CountedTo.zero n
    | some item => exact h.successes item (previousFor_mem hp)
  unfold planEntry
  split
  · exact ⟨hzero, hzero⟩
  · split
    · unfold applyCachedHealth
      split
      · exact ⟨hzero, hzero⟩
      · rename_i item hitem
        rw [hitem] at hfailures hsuccesses
        exact ⟨hfailures.mono n.le_succ, hsuccesses.mono n.le_succ⟩
    · unfold applyMonitorThresholds
      dsimp only
      split
      · split <;> exact ⟨hzero, hsuccesses.succ hn⟩
      · split <;> exact ⟨hfailures.succ hn, hzero⟩

theorem existingMissing_mem {resource : PgBouncerAurora} {current : String → Bool} {name : String}
    {m : MissingInstanceStatus} (h : existingMissing resource current name = some m) :
    m ∈ resource.status.missingInstances :=
  (List.mem_filter.mp (List.mem_reverse.mp (List.mem_of_find?_eq_some h))).1

/-- So does a discovery. -/
theorem missingInstancesFor_counted {resource : PgBouncerAurora} (h : Counted n resource.status)
    (hn : n < 2 ^ 31 - 1) {discovery : DiscoveryResult} (ht : discovery.trusted = true) {now : Int}
    {m : MissingInstanceStatus} (hm : m ∈ missingInstancesFor resource discovery true now) :
    CountedTo (n + 1) m.missingCount := by
  rw [mem_missingInstancesFor ht hm]
  refine CountedTo.succ ?_ hn
  cases hexisting : existingMissing resource (discoveredInstanceSet discovery.instances)
      m.instanceName with
  | none => exact CountedTo.zero n
  | some m₀ => exact h.missing m₀ (existingMissing_mem hexisting)

/-- The fast path and the zone policy leave the counts of a plan alone. -/
theorem finalPlan_memory {resource : PgBouncerAurora} {cluster : Cluster} {entry : InstancePlan}
    (h : entry ∈ (finalPlan resource cluster).instances) :
    ∃ entry' ∈ (plan (reconcileInput resource)).instances, entryMemory entry = entryMemory entry' := by
  rw [finalPlan, zonePolicy_instances, scheduledPlan] at h
  unfold applyWriterFailoverFastPath at h
  split at h
  · exact ⟨entry, h, rfl⟩
  · dsimp only at h
    split at h
    · exact ⟨entry, h, rfl⟩
    · obtain ⟨entry', hentry', rfl⟩ := List.mem_map.mp h
      refine ⟨entry', hentry', ?_⟩
      unfold raiseReadyReplicas
      split <;> rfl

/-- What is stored about the instances of a plan has the plan's counts. -/
theorem counted_instanceStatus {instances : List InstancePlan}
    (h : ∀ entry ∈ instances, CountedTo n entry.consecutiveFailures ∧
      CountedTo n entry.consecutiveSuccesses) {item : InstanceStatus}
    (hitem : item ∈ instanceStatus instances) :
    CountedTo n item.consecutiveFailures ∧ CountedTo n item.consecutiveSuccesses := by
  obtain ⟨entry, hentry, rfl⟩ := List.mem_map.mp hitem
  exact h entry hentry

theorem plan_counted (h : Counted n input.resource.status) (hn : n < 2 ^ 31 - 1)
    (ht : input.discoveryTrusted = true) {entry : InstancePlan}
    (hentry : entry ∈ (plan input).instances) :
    CountedTo (n + 1) entry.consecutiveFailures ∧ CountedTo (n + 1) entry.consecutiveSuccesses := by
  rw [(plan_trusted ht).2.1] at hentry
  obtain ⟨o, -, rfl⟩ := List.mem_map.mp ((List.perm_insertionSort _ _).mem_iff.mp hentry)
  exact planEntry_counted h hn o

theorem Counted.mono {m : Nat} {s : Status} (h : Counted n s) (hnm : n ≤ m) : Counted m s :=
  ⟨fun _ hm => (h.missing _ hm).mono hnm, fun _ hm => (h.failures _ hm).mono hnm,
    fun _ hm => (h.successes _ hm).mono hnm⟩

/-- Storing a status does not change its counters. -/
theorem Counted.marshal {s : Status} (h : Counted n s) : Counted n s.marshal := by
  refine ⟨fun m hm => ?_, h.failures, h.successes⟩
  rw [Status.marshal_missingInstances] at hm
  obtain ⟨m', hm', rfl⟩ := List.mem_map.mp hm
  exact h.missing m' hm'

/-- A Reconcile stores what its plan says about the instances, or what is there. -/
theorem PrepareSpec.counted_instances {now : Int} {w w₁ : World} {p : Prepared}
    (hp : PrepareSpec now w p w₁) (h : Counted n w.stored.resource.status) (hn : n < 2 ^ 31 - 1)
    (item : InstanceStatus) (hitem : item ∈ (p.status w.stored.resource).instances) :
    CountedTo (n + 1) item.consecutiveFailures ∧ CountedTo (n + 1) item.consecutiveSuccesses := by
  rw [Prepared.status, reconcileCommit] at hitem
  dsimp only at hitem
  split at hitem
  · rename_i hwrites
    rw [hp.plan] at hitem hwrites
    have hfrozen : (finalPlan w.stored.resource w.cluster).frozen = false := by
      simpa using (Bool.and_eq_true_iff.mp hwrites).1
    refine counted_instanceStatus (fun entry hentry => ?_) hitem
    obtain ⟨entry', hentry', hmemory⟩ := finalPlan_memory hentry
    have hfailures : entry.consecutiveFailures.toInt = entry'.consecutiveFailures.toInt :=
      congrArg Memory.failures hmemory
    have hsuccesses : entry.consecutiveSuccesses.toInt = entry'.consecutiveSuccesses.toInt :=
      congrArg Memory.successes hmemory
    rw [Int32.toInt_inj.mp hfailures, Int32.toInt_inj.mp hsuccesses]
    exact @plan_counted n (reconcileInput w.stored.resource) h hn
      (trusted_of_not_frozen hfrozen) entry' hentry'
  · have hold := h.mono n.le_succ
    exact ⟨hold.failures item hitem, hold.successes item hitem⟩

/-- **A step adds at most one to a counter.** -/
theorem Move.counted {w w' : World} {step : Step} {events : List Event}
    (hmove : Move w step w' events) (h : Counted n w.stored.resource.status)
    (hn : n < 2 ^ 31 - 1) : Counted (n + 1) w'.stored.resource.status := by
  have hold := h.mono n.le_succ
  cases hmove with
  | discovered answered due commit stored =>
    rename_i discover checkedAt now faults status
    rw [stored]
    refine Counted.marshal ⟨?_, ?_, ?_⟩
    · cases ht : (effectiveDiscovery discover w.stored.resource).1.trusted with
      | true =>
        rw [(discoveryCommit_trusted commit ht).2.1]
        exact fun m hm => missingInstancesFor_counted h hn ht hm
      | false =>
        rw [(discoveryCommit_untrusted commit ht).2.1]
        exact hold.missing
    · rw [(discoveryCommit_frame commit).2.2.1]
      exact hold.failures
    · rw [(discoveryCommit_frame commit).2.2.1]
      exact hold.successes
  | monitored trusted commit stored =>
    rename_i check checkedAt now faults status
    rw [stored]
    have hplan : ∀ entry ∈ (monitorWork check w.stored.resource now).plan.instances,
        CountedTo (n + 1) entry.consecutiveFailures ∧
          CountedTo (n + 1) entry.consecutiveSuccesses := by
      intro entry hentry
      unfold monitorWork at hentry
      dsimp only at hentry
      split at hentry
      · exact plan_counted (by exact h) hn trusted hentry
      · exact plan_counted (by exact h) hn trusted hentry
    obtain ⟨-, -, rfl⟩ := monitorCommit_eq_some.mp commit
    exact Counted.marshal ⟨hold.missing, fun item hitem => (counted_instanceStatus hplan hitem).1,
      fun item hitem => (counted_instanceStatus hplan hitem).2⟩
  | reconciled prepared cluster stored =>
    rename_i now faults w₁ p
    rw [stored]
    have hitems := prepared.counted_instances h hn
    have hmissing : (w.stored.updateStatus (p.status w.stored.resource)).resource.status.missingInstances
        = p.missing := prepared.stored_missing
    refine ⟨fun m hm => ?_, fun item hitem => (hitems item hitem).1,
      fun item hitem => (hitems item hitem).2⟩
    rw [hmissing] at hm
    exact hold.missing m (prepared.missing_sublist.mem hm)
  | edited stored | undiscovered unanswered stored | unmonitored stored | attempted stored
  | moved stored => rw [stored]; exact hold

end Counted

/-! ## 2. What a topology asks for -/

def enabledNames (spec : PgBouncerAuroraSpec) (role : Role) (instances : List InstanceObservation) :
    List String :=
  (instances.filter fun o => o.role = role && !instanceDisabled spec.pgbouncer o.name).map (·.name)

/-- The enabled instances, by their roles.  Without an enabled reader the writer stands in, unless
there are readers and somebody has disabled them all. -/
def wantedMembership (spec : PgBouncerAuroraSpec) (instances : List InstanceObservation) :
    ServiceMembership :=
  let writer := enabledNames spec .writer instances
  let readers := enabledNames spec .reader instances
  { writer := writer
    reader :=
      if readers ≠ [] then readers
      else if instances.any isReader then []
      else if enabledDefaultTrue spec.topologyPolicy.readerEmptyFallback then writer
      else [] }

theorem enabledNames_eq_nil {spec : PgBouncerAuroraSpec} {role : Role}
    {instances : List InstanceObservation} :
    enabledNames spec role instances = [] ↔ ∀ o ∈ instances, o.role = role →
      instanceDisabled spec.pgbouncer o.name = true := by
  rw [enabledNames, List.map_eq_nil_iff, List.filter_eq_nil_iff]
  simp

section AtRest

variable {input : Input}

/-- Nothing is left to wait for: the enabled instances are healthy, and whatever is missing has
been missed for long enough. -/
structure AtRest (input : Input) : Prop where
  trusted : input.discoveryTrusted = true
  wellFormed : WellFormed input.discovered
  healthy : ∀ o ∈ input.discovered,
    instanceDisabled input.resource.spec.pgbouncer o.name = false →
      (planEntry input o).healthy = true
  gone : ∀ m ∈ input.missingInstances, missingThreshold input.resource ≤ m.missingCount

theorem AtRest.healthyMembers_eq (h : AtRest input) (role : Role) :
    healthyMembers input role
      = sortStrings (enabledNames input.resource.spec role input.discovered) := by
  unfold healthyMembers healthyNames enabledNames
  congr 2
  refine List.filter_congr fun o ho => ?_
  congr 1
  cases hd : instanceDisabled input.resource.spec.pgbouncer o.name with
  | false => exact h.healthy o ho hd
  | true =>
    by_contra hhealthy
    have hgood : (planEntry input o).healthy = true := by simpa using hhealthy
    rw [not_disabled_of_healthy input hgood] at hd
    cases hd

theorem AtRest.not_retainable (h : AtRest input) (name : String) :
    retainable input name = false := by
  unfold retainable
  rw [Bool.and_eq_false_iff, List.any_eq_false]
  refine Or.inl fun m hm hp => ?_
  simp only [Bool.and_eq_true, decide_eq_true_eq] at hp
  exact absurd hp.2 (Int32.not_lt.mpr (h.gone m hm))

theorem AtRest.writer_length (h : AtRest input) :
    (enabledNames input.resource.spec .writer input.discovered).length ≤ 1 := by
  rw [enabledNames, List.length_map, ← List.countP_eq_length_filter]
  refine le_trans (List.countP_mono_left fun o _ hp => ?_) h.wellFormed.writer.le
  simpa using (Bool.and_eq_true_iff.mp hp).1

theorem AtRest.decidedWriter_eq (h : AtRest input) :
    decidedWriter input = enabledNames input.resource.spec .writer input.discovered := by
  have hmembers := h.healthyMembers_eq .writer
  have hone := h.writer_length
  cases hnames : enabledNames input.resource.spec .writer input.discovered with
  | nil =>
    rw [hnames] at hmembers
    rw [decidedWriter_of_no_healthy hmembers, List.filter_eq_nil_iff]
    intro name _
    simp [h.not_retainable name]
  | cons name rest =>
    rw [hnames, List.length_cons] at hone
    obtain rfl := List.eq_nil_of_length_eq_zero (by omega : rest.length = 0)
    rw [hnames] at hmembers
    exact decidedWriter_of_healthy hmembers

theorem AtRest.presentReaders_eq (h : AtRest input) :
    presentReaders input
      = sortStrings (enabledNames input.resource.spec .reader input.discovered) := by
  have hnone : preservedMissingReaders input.resource (healthyMembers input .reader)
      input.missingInstances = [] := by
    refine List.eq_nil_iff_forall_not_mem.mpr fun name hname => ?_
    have hret := ((mem_preservedMissingReaders input).mp hname).2.2
    rw [h.not_retainable] at hret
    cases hret
  rw [presentReaders, hnone, List.append_nil, healthyMembers_sorted, h.healthyMembers_eq]

/-- **A plan at rest is what the topology asks for.** -/
theorem AtRest.decided (h : AtRest input) :
    SameMembers ⟨decidedWriter input, decidedReader input⟩
      (wantedMembership input.resource.spec input.discovered) := by
  refine ⟨fun x => by rw [h.decidedWriter_eq]; rfl, fun x => ?_⟩
  show x ∈ decidedReader input ↔ x ∈ (wantedMembership _ _).reader
  unfold decidedReader wantedMembership
  rw [h.presentReaders_eq]
  dsimp only
  by_cases hnone : enabledNames input.resource.spec .reader input.discovered = []
  · have hsuppressed : fallbackSuppressed input = input.discovered.any isReader := by
      rw [Bool.eq_iff_iff, fallbackSuppressed_iff, List.any_eq_true]
      refine ⟨fun hall => ?_, fun hsome => ⟨?_, enabledNames_eq_nil.mp hnone⟩⟩
      · simpa [isReader] using hall.1
      · simpa [isReader] using hsome
    rw [hnone, hsuppressed, h.decidedWriter_eq]
    rfl
  · have hsome : sortStrings (enabledNames input.resource.spec .reader input.discovered) ≠ [] :=
      fun hnil => hnone (List.length_eq_zero_iff.mp
        ((sortStrings_perm _).length_eq ▸ List.length_eq_zero_iff.mpr hnil))
    rw [if_pos hsome, if_pos hnone, mem_sortStrings]

end AtRest

/-! ## 3. How far the operator has come -/

/-- A step of the operator with an Aurora at rest, and with users who are content. -/
def Calm (instances : List InstanceObservation) (w : World) : Step → Prop
  | .discover discover _ _ _ => ∃ discovery, discover w.stored.resource = .ok discovery ∧
      discovery.trusted = true ∧ discovery.instances = instances
  | .monitor check _ _ _ => ∀ health, check w.stored.resource instances = .ok health →
      ∀ o ∈ instances, instanceDisabled w.stored.resource.spec.pgbouncer o.name = false →
        rawHealthy health o.name = true
  | .editSpec _ => False
  | .reconcile .. | .environment _ => True

def recoveryThreshold (resource : PgBouncerAurora) : Int32 :=
  defaultInt32 resource.spec.monitor.recoveryThreshold 2

/-- What has been committed so far. -/
structure Progress where
  discoveries : Nat := 0
  /-- The probes that returned, since the first discovery. -/
  probes : Nat := 0
  /-- There was a Reconcile after enough of both. -/
  applied : Bool := false
  deriving DecidableEq

def Progress.enough (resource : PgBouncerAurora) (p : Progress) : Bool :=
  (missingThreshold resource).toInt ≤ p.discoveries && (recoveryThreshold resource).toInt ≤ p.probes

theorem Progress.enough_iff {resource : PgBouncerAurora} {p : Progress} :
    p.enough resource = true ↔ (missingThreshold resource).toInt ≤ p.discoveries ∧
      (recoveryThreshold resource).toInt ≤ p.probes := by
  rw [Progress.enough, Bool.and_eq_true, decide_eq_true_eq, decide_eq_true_eq]

theorem Progress.enough_pos {resource : PgBouncerAurora} {p : Progress}
    (h : p.enough resource = true) : 0 < p.discoveries ∧ 0 < p.probes := by
  obtain ⟨hdiscoveries, hprobes⟩ := Progress.enough_iff.mp h
  have hmissing : 0 < (missingThreshold resource).toInt := defaultInt32_pos (by decide)
  have hrecovery : 0 < (recoveryThreshold resource).toInt := defaultInt32_pos (by decide)
  exact ⟨by omega, by omega⟩

def World.progress (w : World) (p : Progress) : Step → Progress
  | .discover discover checkedAt now faults =>
    if answer (runDiscoveryJob discover checkedAt now) (w.meet faults) then
      { p with discoveries := p.discoveries + 1 }
    else p
  | .monitor check checkedAt now faults =>
    if p.discoveries ≠ 0 ∧ answer (runMonitorJob check checkedAt now) (w.meet faults) = true ∧
        (check w.stored.resource (cachedDiscovery w.stored.resource).instances).isOk = true then
      { p with probes := p.probes + 1 }
    else p
  | .reconcile now faults =>
    match reconcile .scheduled now (w.meet faults) with
    | .ok _ _ => { p with applied := p.applied || p.enough w.stored.resource }
    | .error _ _ => p
  | .editSpec _ | .environment _ => p

/-- A step of the world, with the progress. -/
def progressing (t : World × Progress) (step : Step) : World × Progress :=
  (t.1.next step, t.1.progress t.2 step)

/-- Every enabled instance is healthy, or has been found well in so many probes in a row. -/
def Recovering (instances : List InstanceObservation) (resource : PgBouncerAurora) (probes : Nat) :
    Prop :=
  ∀ o ∈ instances, instanceDisabled resource.spec.pgbouncer o.name = false →
    ∃ item, storedHealth o.name resource.status = some item ∧ SameInstance o.dbiResourceId item ∧
      (item.healthy = false → (probes : Int) ≤ item.consecutiveSuccesses.toInt ∧
        item.consecutiveSuccesses.toInt < (recoveryThreshold resource).toInt)

/-- What the progress says about the status. -/
structure Nearing (instances : List InstanceObservation) (resource : PgBouncerAurora)
    (p : Progress) : Prop where
  consistent : Consistent resource.status
  probed : 0 < p.probes → 0 < p.discoveries
  known : 0 < p.discoveries → lastDiscoveryTrusted resource = true ∧
    resource.status.lastKnownTopology = topologyStatus instances
  missed : ∀ m ∈ resource.status.missingInstances, (p.discoveries : Int) ≤ m.missingCount.toInt
  recovering : 0 < p.probes → Recovering instances resource p.probes
  applied : p.applied = true → p.enough resource = true ∧
    SameMembers resource.status.lastAppliedMembership (wantedMembership resource.spec instances)

section Nearing

variable {instances : List InstanceObservation} {resource : PgBouncerAurora} {p : Progress} {n : Nat}

theorem Nearing.cached (h : Nearing instances resource p) (hwf : WellFormed instances)
    (hd : 0 < p.discoveries) : (cachedDiscovery resource).trusted = true ∧
      (cachedDiscovery resource).instances = instances := by
  obtain ⟨htrusted, htopology⟩ := h.known hd
  have hcached : (cachedDiscovery resource).trusted = true := by
    refine cachedDiscovery_trusted_iff.mpr ⟨htrusted, fun hnil => hwf.ne_nil ?_⟩
    rw [htopology] at hnil
    exact List.map_eq_nil_iff.mp hnil
  refine ⟨hcached, ?_⟩
  rw [cachedDiscovery_instances hcached, htopology, topologyObservations_topologyStatus]

theorem Nearing.sound (h : Nearing instances resource p) (hwf : WellFormed instances)
    (hd : 0 < p.discoveries) : Sound resource.status := by
  refine ⟨h.consistent, Or.inr ?_⟩
  rw [(h.known hd).2, topologyObservations_topologyStatus]
  exact hwf

theorem Nearing.watched (h : Nearing instances resource p) (hwf : WellFormed instances)
    (hcounted : Counted n resource.status) (hn : n < 2 ^ 31 - 1) (hd : 0 < p.discoveries)
    {o : InstanceObservation} (ho : o ∈ instances)
    (henabled : instanceDisabled resource.spec.pgbouncer o.name = false) :
    Watched o.name o.dbiResourceId (defaultInt32 resource.spec.monitor.failureThreshold 3)
      (recoveryThreshold resource) resource where
  named := hwf.named o ho
  discovered := by
    rw [(h.known hd).2, map_name_topologyStatus]
    exact List.mem_map_of_mem ho
  identity known hknown hname := by
    rw [(h.known hd).2] at hknown
    obtain ⟨o', ho', rfl⟩ := List.mem_map.mp hknown
    rw [List.inj_on_of_nodup_map hwf.nodup ho' ho hname]
  enabled := henabled
  failures := rfl
  recovery := rfl
  countable item hitem := by
    have hmem := (mem_of_storedHealth (Option.mem_def.mp hitem)).1
    have hfailures := (hcounted.failures item hmem).2
    have hsuccesses := (hcounted.successes item hmem).2
    exact ⟨by omega, by omega⟩

/-- With enough of everything, the next plan of a Reconcile is at rest. -/
theorem Nearing.atRest (h : Nearing instances resource p) (hwf : WellFormed instances)
    (henough : p.enough resource = true) : AtRest (reconcileInput resource) := by
  obtain ⟨hdiscoveries, hprobes⟩ := Progress.enough_iff.mp henough
  obtain ⟨hdiscovered, hprobed⟩ := Progress.enough_pos henough
  obtain ⟨htrusted, hinstances⟩ := h.cached hwf hdiscovered
  refine ⟨htrusted, by rw [← hinstances] at hwf; exact hwf, fun o ho henabled => ?_, fun m hm => ?_⟩
  · have ho' : o ∈ instances := by rw [← hinstances]; exact ho
    obtain ⟨item, hstored, hid, hbad⟩ := h.recovering hprobed o ho' henabled
    have hprevious : previousFor (reconcileInput resource) o = some item :=
      previousFor_eq_some hstored hid
    have hmemory := congrArg Memory.healthy (planEntry_cached henabled rfl hprevious)
    have hgood : item.healthy = true := by
      by_contra hfalse
      have := hbad (by simpa using hfalse)
      omega
    exact hmemory.trans hgood
  · exact Int32.le_iff_toInt_le.mpr (hdiscoveries.trans (h.missed m hm))

/-- The fast path can only choose the writer that is wanted anyway. -/
theorem AtRest.writer_eq (h : AtRest (reconcileInput resource)) {cluster : Cluster}
    (hfrozen : (finalPlan resource cluster).frozen = false) :
    (finalPlan resource cluster).membership.writer = decidedWriter (reconcileInput resource) := by
  rcases finalPlan_writer hfrozen with hdecided | ⟨writer, hswitched, hsingle, hne, henabled⟩
  · exact hdecided
  · obtain ⟨o, ho, hrole, hname⟩ := exists_single_writer (hsingle ▸ hne)
    have hmem : writer ∈ enabledNames resource.spec .writer (cachedDiscovery resource).instances := by
      refine List.mem_map.mpr ⟨o, List.mem_filter.mpr ⟨ho, ?_⟩, hname.trans hsingle.symm⟩
      rw [hname, ← hsingle]
      simp [hrole, henabled]
    have hone : (enabledNames resource.spec .writer (cachedDiscovery resource).instances).length = 1 :=
      le_antisymm h.writer_length (List.length_pos_of_mem hmem)
    obtain ⟨only, honly⟩ := List.length_eq_one_iff.mp hone
    rw [honly, List.mem_singleton] at hmem
    rw [hswitched, h.decidedWriter_eq, hmem]
    exact honly.symm

/-- **The plan is the wanted one.** -/
theorem Nearing.planned (h : Nearing instances resource p) (hwf : WellFormed instances)
    (hpolicy : resource.spec.topologyPolicy.zoneAware.conflictPolicy ≠ some .fail)
    (henough : p.enough resource = true) (cluster : Cluster) :
    (finalPlan resource cluster).frozen = false ∧
      SameMembers (finalPlan resource cluster).membership
        (wantedMembership resource.spec instances) := by
  have hrest := h.atRest hwf henough
  have hfrozen : (finalPlan resource cluster).frozen = false := by
    rw [finalPlan, applyZoneAwareConflictPolicy, if_pos (by simp [hpolicy]), scheduledPlan,
      fastPath_frame.1]
    exact plan_not_frozen hrest.trusted
  have hinstances : (reconcileInput resource).discovered = instances :=
    (h.cached hwf (Progress.enough_pos henough).1).2
  have hwanted := hrest.decided
  rw [hinstances] at hwanted
  refine ⟨hfrozen, fun x => ?_, fun x => ?_⟩
  · rw [hrest.writer_eq hfrozen]
    exact hwanted.1 x
  · rw [finalPlan_reader hfrozen]
    exact hwanted.2 x

end Nearing

/-! ## 4. One step -/

section Steps

variable {instances : List InstanceObservation} {w : World} {p : Progress} {n : Nat}

theorem Move.spec_eq {w' : World} {step : Step} {events : List Event}
    (hmove : Move w step w' events) (h : Calm instances w step) :
    w'.stored.resource.spec = w.stored.resource.spec := by
  cases hmove with
  | discovered answered due commit stored | monitored trusted commit stored
  | reconciled prepared cluster stored => rw [stored]; rfl
  | edited stored => exact absurd h id
  | undiscovered unanswered stored | unmonitored stored | attempted stored | moved stored =>
    rw [stored]

/-- A rebuilt entry has been missed once more than the progress asks for so far. -/
theorem Nearing.missed_again {resource : PgBouncerAurora} (h : Nearing instances resource p)
    (hcounted : Counted n resource.status) (hn : n < 2 ^ 31 - 1) {discovery : DiscoveryResult}
    (ht : discovery.trusted = true) (hinstances : discovery.instances = instances) {now : Int}
    {m : MissingInstanceStatus} (hm : m ∈ missingInstancesFor resource discovery true now) :
    (p.discoveries : Int) + 1 ≤ m.missingCount.toInt := by
  obtain ⟨hne, hnot, hbefore⟩ := (mem_missingInstancesFor_names ht).mp (List.mem_map_of_mem hm)
  rw [mem_missingInstancesFor ht hm]
  by_cases hin : m.instanceName ∈ resource.status.missingInstances.map (·.instanceName)
  · obtain ⟨m₀, hm₀, hname⟩ := List.mem_map.mp hin
    have hcurrent : discoveredInstanceSet discovery.instances m₀.instanceName = false := by
      rw [hname, ← Bool.not_eq_true]
      simpa [discoveredInstanceSet, hne] using hnot
    have hexisting := existingMissing_of_mem h.consistent.nodup hm₀ (hname ▸ hne) hcurrent
    rw [hname] at hexisting
    have hbound := h.missed m₀ hm₀
    have hsucc := (hcounted.missing m₀ hm₀).toInt_succ hn
    rw [hexisting]
    show (p.discoveries : Int) + 1 ≤ (m₀.missingCount + 1).toInt
    omega
  · -- known until now, so this is the first discovery of all
    have hfirst : p.discoveries = 0 := by
      by_contra hpos
      have hknown := hbefore.resolve_left hin
      rw [(h.known (Nat.pos_of_ne_zero hpos)).2, map_name_topologyStatus, ← hinstances] at hknown
      exact hnot hknown
    rw [existingMissing_of_not_mem hin, hfirst]
    show ((0 : Nat) : Int) + 1 ≤ ((0 : Int32) + 1).toInt
    decide

/-- What a discovery job commits after a trusted answer. -/
theorem discoveryWork_ok {discover : Discover} {resource : PgBouncerAurora}
    {discovery : DiscoveryResult} (hok : discover resource = .ok discovery)
    (ht : discovery.trusted = true) (now : Int) :
    discoveryWork discover resource now =
      { discovery := discovery, failed := false, now := now
        missing := missingInstancesFor resource discovery true now } := by
  simp [discoveryWork, effectiveDiscovery, hok, ht]

theorem Nearing.discovered (h : Nearing instances w.stored.resource p)
    (hcounted : Counted n w.stored.resource.status) (hn : n < 2 ^ 31 - 1) {discover : Discover}
    {now : Int} {status : Status} {discovery : DiscoveryResult}
    (hok : discover w.stored.resource = .ok discovery) (ht : discovery.trusted = true)
    (hinstances : discovery.instances = instances)
    (hcommit : (discoveryWork discover w.stored.resource now).commit w.stored.resource = some status)
    (hconsistent : Consistent (w.stored.updateStatus status).resource.status) :
    Nearing instances (w.stored.updateStatus status).resource
      { p with discoveries := p.discoveries + 1 } := by
  rw [discoveryWork_ok hok ht] at hcommit
  obtain ⟨htopology, hmissing, -⟩ := discoveryCommit_trusted hcommit ht
  obtain ⟨hmembership, -, hitems, -, -, hverdict⟩ := discoveryCommit_frame hcommit
  refine ⟨hconsistent, fun _ => Nat.succ_pos _, fun _ => ⟨?_, ?_⟩, fun m hm => ?_, ?_, ?_⟩
  · rw [lastDiscoveryTrusted, StoredResource.updateStatus_status]
    exact (discoveryVerdict_marshal _).trans (hverdict.trans ht)
  · rw [StoredResource.updateStatus_status, Status.marshal_lastKnownTopology, htopology]
    exact congrArg topologyStatus hinstances
  · rw [StoredResource.updateStatus_status, Status.marshal_missingInstances, hmissing] at hm
    obtain ⟨m', hm', rfl⟩ := List.mem_map.mp hm
    have hcount : (p.discoveries : Int) + 1 ≤ m'.missingCount.toInt :=
      h.missed_again hcounted hn ht hinstances hm'
    exact_mod_cast hcount
  · intro hprobes o ho henabled
    rw [StoredResource.updateStatus_status, storedHealth, Status.marshal_instances, hitems]
    exact h.recovering hprobes o ho henabled
  · intro happlied
    obtain ⟨henough, hmembers⟩ := h.applied happlied
    refine ⟨?_, ?_⟩
    · rw [Progress.enough_iff] at henough ⊢
      exact ⟨henough.1.trans (by push_cast; omega), henough.2⟩
    · rw [StoredResource.updateStatus_status, Status.marshal_lastAppliedMembership, hmembership]
      exact hmembers

theorem Nearing.same {w' : World} (h : Nearing instances w.stored.resource p)
    (hstored : w'.stored = w.stored) : Nearing instances w'.stored.resource p := by
  rw [hstored]
  exact h

/-- **A good probe** makes an instance healthy, or brings it one closer to that. -/
theorem Watched.recovers {name id : String} {failureThreshold recoveryThreshold : Int32}
    (h : Watched name id failureThreshold recoveryThreshold w.stored.resource) {step : Step}
    (hraw : w.probes name step = [true]) :
    ∃ item', storedHealth name (w.next step).stored.resource.status = some item' ∧
      SameInstance id item' ∧ (item'.healthy = false →
        item'.consecutiveSuccesses.toInt < recoveryThreshold.toInt ∧
        ∃ item, storedHealth name w.stored.resource.status = some item ∧ item.healthy = false ∧
          item'.consecutiveSuccesses.toInt = item.consecutiveSuccesses.toInt + 1) := by
  obtain ⟨input, o, entry, item', hinput, rfl, rfl, hentry, hitem', hid', hmemory⟩ :=
    h.probed_from hraw
  refine ⟨item', hitem', hid', fun hbad => ?_⟩
  have hbad' : (memoryOf item').healthy = false := hbad
  cases hprevious : previousFor input o with
  | none =>
    rw [hmemory, hprevious, entryMemory_applyMonitorThresholds_none, hentry] at hbad'
    cases hbad'
  | some item =>
    have hstored := (storedHealth_of_previousFor hprevious).1
    rw [hinput] at hstored
    rw [hprevious, entryMemory_applyMonitorThresholds _ _ (h.countable item hstored), hentry,
      h.recovery] at hmemory
    have hsuccesses : item'.consecutiveSuccesses.toInt = item.consecutiveSuccesses.toInt + 1 :=
      congrArg Memory.successes hmemory
    rw [hmemory] at hbad'
    have hsplit : (item.healthy ||
        decide (recoveryThreshold.toInt ≤ item.consecutiveSuccesses.toInt + 1)) = false := hbad'
    rw [Bool.or_eq_false_iff, decide_eq_false_iff_not] at hsplit
    obtain ⟨hitem, hbelow⟩ := hsplit
    exact ⟨by omega, item, hstored, hitem, hsuccesses⟩

/-- A monitor commit, once it is known what it says about the health. -/
theorem Nearing.monitorCommit (h : Nearing instances w.stored.resource p) {check : Check}
    {now : Int} {status : Status} (htrusted : (cachedDiscovery w.stored.resource).trusted = true)
    (hcommit : (monitorWork check w.stored.resource now).commit w.stored.resource = some status)
    (hconsistent : Consistent (w.stored.updateStatus status).resource.status) {probes : Nat}
    (hle : p.probes ≤ probes) (hprobed : 0 < probes → 0 < p.discoveries)
    (hrecovering : 0 < probes → Recovering instances (w.stored.updateStatus status).resource probes) :
    Nearing instances (w.stored.updateStatus status).resource { p with probes := probes } := by
  obtain ⟨htopology, hmissing, -, hmembership, -, -, hverdict⟩ := monitorCommit_frame hcommit
  refine ⟨hconsistent, hprobed, fun hd => ⟨?_, ?_⟩, fun m hm => ?_, hrecovering,
    fun happlied => ⟨?_, ?_⟩⟩
  · rw [lastDiscoveryTrusted, StoredResource.updateStatus_status]
    refine (discoveryVerdict_marshal _).trans (hverdict.trans ?_)
    rw [monitorWork_discovery]
    exact htrusted
  · rw [StoredResource.updateStatus_status, Status.marshal_lastKnownTopology, htopology]
    exact (h.known hd).2
  · rw [StoredResource.updateStatus_status, Status.marshal_missingInstances, hmissing,
      w.stored.marshal_missingInstances] at hm
    exact h.missed m hm
  · have henough := Progress.enough_iff.mp (h.applied happlied).1
    exact Progress.enough_iff.mpr ⟨henough.1, henough.2.trans (Int.ofNat_le.mpr hle)⟩
  · rw [StoredResource.updateStatus_status, Status.marshal_lastAppliedMembership, hmembership]
    exact (h.applied happlied).2

section Probe

variable {check : Check} {checkedAt now : Int} {faults : List (Option Fault)}

/-- A failed probe leaves everybody as healthy as before. -/
theorem Nearing.recovering_quiet (h : Nearing instances w.stored.resource p)
    (hwf : WellFormed instances) (hcounted : Counted n w.stored.resource.status)
    (hn : n < 2 ^ 31 - 1) (hprobes : 0 < p.probes) {step : Step}
    (hspec : (w.next step).stored.resource.spec = w.stored.resource.spec)
    (hquiet : ∀ name, w.probes name step = []) :
    Recovering instances (w.next step).stored.resource p.probes := by
  intro o ho henabled
  rw [hspec] at henabled
  obtain ⟨item, hstored, hid, hbad⟩ := h.recovering hprobes o ho henabled
  obtain ⟨item', hstored', hmemory, hid'⟩ :=
    (h.watched hwf hcounted hn (h.probed hprobes) ho henabled).quiet hstored hid (hquiet o.name)
  have hhealthy : item'.healthy = item.healthy := congrArg Memory.healthy hmemory
  have hsuccesses : item'.consecutiveSuccesses.toInt = item.consecutiveSuccesses.toInt :=
    congrArg Memory.successes hmemory
  refine ⟨item', hstored', hid', ?_⟩
  rw [hhealthy, hsuccesses, recoveryThreshold, hspec]
  exact hbad

/-- A good one brings everybody one closer. -/
theorem Nearing.recovering_again (h : Nearing instances w.stored.resource p)
    (hwf : WellFormed instances) (hcounted : Counted n w.stored.resource.status)
    (hn : n < 2 ^ 31 - 1) (hd : 0 < p.discoveries) {step : Step}
    (hspec : (w.next step).stored.resource.spec = w.stored.resource.spec)
    (hraw : ∀ o ∈ instances, instanceDisabled w.stored.resource.spec.pgbouncer o.name = false →
      w.probes o.name step = [true]) :
    Recovering instances (w.next step).stored.resource (p.probes + 1) := by
  intro o ho henabled
  rw [hspec] at henabled
  obtain ⟨item', hstored', hid', hbad'⟩ :=
    (h.watched hwf hcounted hn hd ho henabled).recovers (hraw o ho henabled)
  refine ⟨item', hstored', hid', fun hbad => ?_⟩
  obtain ⟨hbelow, item, hstored, hitem, hsuccesses⟩ := hbad' hbad
  have hbefore : (p.probes : Int) ≤ item.consecutiveSuccesses.toInt := by
    by_cases hprobes : 0 < p.probes
    · obtain ⟨item₀, hstored₀, -, hbad₀⟩ := h.recovering hprobes o ho henabled
      rw [hstored] at hstored₀
      cases hstored₀
      exact (hbad₀ hitem).1
    · have hnonneg := (hcounted.successes item (mem_of_storedHealth hstored).1).1
      omega
  refine ⟨by push_cast; omega, ?_⟩
  rw [recoveryThreshold, hspec]
  exact hbelow

theorem Nearing.monitored (h : Nearing instances w.stored.resource p) (hwf : WellFormed instances)
    (hcounted : Counted n w.stored.resource.status) (hn : n < 2 ^ 31 - 1)
    (hcalm : Calm instances w (.monitor check checkedAt now faults)) :
    Nearing instances (w.next (.monitor check checkedAt now faults)).stored.resource
      (w.progress p (.monitor check checkedAt now faults)) := by
  set step : Step := .monitor check checkedAt now faults with hstep
  have hconsistent := (next_move w step).consistent h.consistent
  have hspec := (next_move w step).spec_eq hcalm
  rcases monitor_cases w check checkedAt now faults with
    ⟨hanswer, htrusted, status, hcommit, hnext⟩ | ⟨hanswer, hnext⟩
  · have hcommitted {probes : Nat} (hle : p.probes ≤ probes)
        (hprobed : 0 < probes → 0 < p.discoveries)
        (hrecovering : 0 < probes → Recovering instances (w.next step).stored.resource probes) :
        Nearing instances (w.next step).stored.resource { p with probes := probes } := by
      rw [hnext] at hconsistent hrecovering ⊢
      exact h.monitorCommit htrusted hcommit hconsistent hle hprobed hrecovering
    cases hcheck : check w.stored.resource (cachedDiscovery w.stored.resource).instances with
    | error err =>
      have hprogress : w.progress p step = p := if_neg (by simp [hcheck, Except.isOk, Except.toBool])
      rw [hprogress]
      refine hcommitted le_rfl h.probed fun hprobes =>
        h.recovering_quiet hwf hcounted hn hprobes hspec fun name => ?_
      rw [hstep, World.probes, if_pos hanswer, hcheck]
    | ok health =>
      by_cases hd : p.discoveries = 0
      · have hprogress : w.progress p step = p := if_neg (by simp [hd])
        rw [hprogress]
        refine hcommitted le_rfl h.probed fun hprobes => ?_
        exact absurd (h.probed hprobes) (by omega)
      · have hdiscovered := Nat.pos_of_ne_zero hd
        have hprogress : w.progress p step = { p with probes := p.probes + 1 } :=
          if_pos ⟨hd, hanswer, by simp [hcheck, Except.isOk, Except.toBool]⟩
        rw [hprogress]
        refine hcommitted (Nat.le_succ _) (fun _ => hdiscovered) fun _ =>
          h.recovering_again hwf hcounted hn hdiscovered hspec fun o ho henabled => ?_
        have hinstances := (h.cached hwf hdiscovered).2
        rw [hinstances] at hcheck
        rw [hstep, World.probes, if_pos hanswer, hinstances, hcheck]
        dsimp only
        rw [hcalm health hcheck o ho henabled]
  · have hprogress : w.progress p step = p := if_neg (by simp [hanswer])
    rw [hprogress]
    exact h.same hnext

end Probe

/-- **A Reconcile with enough behind it** applies what is wanted. -/
theorem Nearing.reconciled (h : Nearing instances w.stored.resource p) (hwf : WellFormed instances)
    (hpolicy : w.stored.resource.spec.topologyPolicy.zoneAware.conflictPolicy ≠ some .fail)
    {now : Int} {faults : List (Option Fault)} {q : Prepared} {w₁ : World}
    (prepared : PrepareSpec now (w.meet faults) q w₁)
    (hconsistent : Consistent
      (w.stored.updateStatus (q.status w.stored.resource)).resource.status) :
    Nearing instances (w.stored.updateStatus (q.status w.stored.resource)).resource
      { p with applied := p.applied || p.enough w.stored.resource } := by
  have hresource : q.resource = w.stored.resource := prepared.resource
  have hevaluation : q.evaluation = scheduledEvaluation w.stored.resource := prepared.evaluation
  have hmissing : (w.stored.updateStatus
      (q.status w.stored.resource)).resource.status.missingInstances = q.missing :=
    prepared.stored_missing
  refine ⟨hconsistent, h.probed, fun hd => ⟨?_, ?_⟩, fun m hm => ?_, ?_, ?_⟩
  · rw [lastDiscoveryTrusted, StoredResource.updateStatus_status]
    refine (discoveryVerdict_marshal _).trans ?_
    rw [Prepared.status, reconcileCommit_verdict, hevaluation]
    exact (h.cached hwf hd).1
  · rw [StoredResource.updateStatus_status, Status.marshal_lastKnownTopology, Prepared.status,
      hresource, hevaluation, (reconcileCommit_frame _ _ _ _ _).1]
    exact (h.known hd).2
  · rw [hmissing] at hm
    exact h.missed m (prepared.missing_sublist.mem hm)
  · intro hprobes o ho henabled
    obtain ⟨item, hstored, hitem⟩ := h.recovering hprobes o ho henabled
    refine ⟨item, ?_, hitem⟩
    have hitems : (q.status w.stored.resource).instances = w.stored.resource.status.instances := by
      rw [Prepared.status, hevaluation]
      simp [reconcileCommit, scheduledEvaluation, instances_ne_nil hstored]
    rw [StoredResource.updateStatus_status, storedHealth, Status.marshal_instances, hitems]
    exact hstored
  · intro happlied
    have henough : p.enough w.stored.resource = true := by
      rcases Bool.or_eq_true_iff.mp happlied with hbefore | hnow
      · exact (h.applied hbefore).1
      · exact hnow
    refine ⟨henough, ?_⟩
    obtain ⟨hfrozen, hwanted⟩ := h.planned hwf hpolicy henough w.cluster
    have hplan : q.plan = finalPlan w.stored.resource w.cluster := prepared.plan
    rw [← hplan] at hfrozen hwanted
    have hstored := prepared.stored_members
      (h.sound hwf (Progress.enough_pos henough).1) hfrozen
    rw [StoredResource.updateStatus_status, Status.marshal_lastAppliedMembership]
    exact ⟨fun x => (hstored.1 x).symm.trans (hwanted.1 x),
      fun x => (hstored.2 x).symm.trans (hwanted.2 x)⟩

/-- **One step, whichever it is.** -/
theorem Nearing.next (h : Nearing instances w.stored.resource p) (hwf : WellFormed instances)
    (hpolicy : w.stored.resource.spec.topologyPolicy.zoneAware.conflictPolicy ≠ some .fail)
    (hcounted : Counted n w.stored.resource.status) (hn : n < 2 ^ 31 - 1) {step : Step}
    (hcalm : Calm instances w step) :
    Nearing instances (w.next step).stored.resource (w.progress p step) := by
  have hconsistent := (next_move w step).consistent h.consistent
  cases step with
  | discover discover checkedAt now faults =>
    obtain ⟨discovery, hok, ht, hinstances⟩ := hcalm
    rcases discover_cases w discover checkedAt now faults with
      ⟨hanswer, -, status, hcommit, hnext⟩ | ⟨hanswer, hnext⟩
    · rw [World.progress, if_pos hanswer]
      rw [hnext] at hconsistent ⊢
      exact h.discovered hcounted hn hok ht hinstances hcommit hconsistent
    · rw [World.progress, if_neg (by simp [hanswer])]
      exact h.same hnext
  | monitor check checkedAt now faults => exact h.monitored hwf hcounted hn hcalm
  | reconcile now faults =>
    rcases reconcile_cases w now faults with
      ⟨q, w', hrun, w₁, prepared, -, hnext⟩ | ⟨e, w', hrun, hnext⟩
    · rw [World.progress, hrun]
      rw [hnext] at hconsistent ⊢
      exact h.reconciled hwf hpolicy prepared hconsistent
    · rw [World.progress, hrun]
      exact h.same hnext
  | editSpec spec => exact absurd hcalm id
  | environment cluster => exact h

end Steps

/-! ## 5. Whole runs -/

section Runs

variable {instances : List InstanceObservation}

theorem Counted.run {n : Nat} {w : World} (h : Counted n w.stored.resource.status)
    {steps : List Step} (hlength : n + steps.length < 2 ^ 31) :
    Counted (n + steps.length) (Machine.run World.next w steps).stored.resource.status := by
  induction steps generalizing n w with
  | nil => exact h
  | cons step rest ih =>
    rw [List.length_cons] at hlength ⊢
    have hnext := (next_move w step).counted h (by omega)
    have hrest := ih hnext (by omega)
    rwa [show n + 1 + rest.length = n + (rest.length + 1) by omega] at hrest

theorem counted_reached (name : String) (spec : PgBouncerAuroraSpec) (cluster : Cluster)
    {steps : List Step} (hlength : steps.length < 2 ^ 31) :
    Counted steps.length (reached name spec cluster steps).stored.resource.status := by
  have hrun := @Counted.run 0 (World.initial name spec cluster) counted_empty steps (by omega)
  rwa [Nat.zero_add] at hrun

/-- At the beginning nothing is known. -/
theorem nearing_start {resource : PgBouncerAurora} {n : Nat} (hconsistent : Consistent resource.status)
    (hcounted : Counted n resource.status) : Nearing instances resource {} where
  consistent := hconsistent
  probed h := absurd h (lt_irrefl 0)
  known h := absurd h (lt_irrefl 0)
  missed m hm := (hcounted.missing m hm).1
  recovering h := absurd h (lt_irrefl 0)
  applied h := by cases h

theorem Nearing.run {n : Nat} {w : World} {p : Progress}
    (h : Nearing instances w.stored.resource p) (hwf : WellFormed instances)
    (hpolicy : w.stored.resource.spec.topologyPolicy.zoneAware.conflictPolicy ≠ some .fail)
    (hcounted : Counted n w.stored.resource.status) {steps : List Step}
    (hlength : n + steps.length < 2 ^ 31)
    (hcalm : Machine.Along World.next (Calm instances) w steps) :
    let t := Machine.run progressing (w, p) steps
    t.1.stored.resource.spec = w.stored.resource.spec ∧
      Nearing instances t.1.stored.resource t.2 := by
  induction steps generalizing n w p with
  | nil => exact ⟨rfl, h⟩
  | cons step rest ih =>
    rw [List.length_cons] at hlength
    obtain ⟨hfirst, hrest⟩ := hcalm
    have hspec := (next_move w step).spec_eq hfirst
    have hnext := h.next hwf hpolicy hcounted (by omega) hfirst
    have hcount := (next_move w step).counted hcounted (by omega)
    obtain ⟨hsame, hnear⟩ := ih hnext (by rw [hspec]; exact hpolicy) hcount (by omega) hrest
    exact ⟨hsame.trans hspec, hnear⟩

end Runs

/-- **The membership converges.**  Take any run of whole jobs from a new resource, and then one in
which Aurora is at rest, of less than `2 ^ 31` steps in all: once there were enough discoveries,
enough probes and a Reconcile after them, the membership is the wanted one. -/
theorem membership_converges (name : String) (spec : PgBouncerAuroraSpec) (cluster : Cluster)
    (before after : List Step) (instances : List InstanceObservation) (hwf : WellFormed instances)
    (hpolicy : (reached name spec cluster
      before).stored.resource.spec.topologyPolicy.zoneAware.conflictPolicy ≠ some .fail)
    (hlength : before.length + after.length < 2 ^ 31)
    (hcalm : Machine.Along World.next (Calm instances) (reached name spec cluster before) after) :
    let t := Machine.run progressing (reached name spec cluster before, {}) after
    t.2.applied = true →
      SameMembers t.1.stored.resource.status.lastAppliedMembership
        (wantedMembership t.1.stored.resource.spec instances) := by
  intro t happlied
  have hcounted := counted_reached name spec cluster (by omega : before.length < 2 ^ 31)
  have hstart : Nearing instances (reached name spec cluster before).stored.resource {} :=
    nearing_start (consistent_run name spec cluster before) hcounted
  exact ((hstart.run hwf hpolicy hcounted hlength hcalm).2.applied happlied).2

/-- A writer `a` and a reader `b`. -/
def calmInstances : List InstanceObservation :=
  [{ name := "a", role := .writer }, { name := "b", role := .reader }]

theorem calmInstances_wellFormed : WellFormed calmInstances :=
  ⟨by decide, by decide, by decide⟩

def eagerSpec : PgBouncerAuroraSpec :=
  { topologyPolicy := { removeAfterMissingCount := 1 }, monitor := { recoveryThreshold := 1 } }

def allWell : StringMap HealthStatus :=
  ((∅ : StringMap HealthStatus).insert "a" { healthy := true }).insert "b" { healthy := true }

theorem allWell_healthy : ∀ o ∈ calmInstances, rawHealthy allWell o.name = true := by decide +kernel

/-- The reader `x` is replaced by `b`, and everybody is well. -/
def calmSteps : List Step :=
  [discoverReaders ["b"] (10 * second),
    .monitor (fun _ _ => .ok allWell) (10 * second) (10 * second) [], .reconcile (10 * second) []]

theorem calmSteps_calm (w : World) : Machine.Along World.next (Calm calmInstances) w calmSteps := by
  refine Machine.along_of_forall (fun step hstep w => ?_) w
  simp only [calmSteps, List.mem_cons, List.not_mem_nil, or_false] at hstep
  rcases hstep with rfl | rfl | rfl
  · exact ⟨_, rfl, rfl, rfl⟩
  · intro health hcheck o ho _
    rw [← Except.ok.inj hcheck]
    exact allWell_healthy o ho
  · trivial

theorem calm_membership :
    let t := Machine.run progressing (reached "db" eagerSpec {} [discoverReaders ["x"] 0], {}) calmSteps
    wantedMembership t.1.stored.resource.spec calmInstances = ⟨["a"], ["b"]⟩ ∧
      SameMembers t.1.stored.resource.status.lastAppliedMembership
        (wantedMembership t.1.stored.resource.spec calmInstances) := by
  intro t
  have happlied : t.2.applied = true := by decide +kernel
  exact ⟨by decide +kernel, membership_converges "db" eagerSpec {} [discoverReaders ["x"] 0]
    calmSteps calmInstances calmInstances_wellFormed (by decide +kernel) (by decide)
    (calmSteps_calm _) happlied⟩

end Controller

end AuroraOperator

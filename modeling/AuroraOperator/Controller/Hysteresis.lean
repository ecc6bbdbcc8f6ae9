/-
# Health, over whole runs

The stored health of an instance is a memory of the monitor's raw results: `applyMonitorThresholds`
counts them and turns the verdict at the thresholds.  It works on state that goes from the status
into a plan, from the plan into the status, and past jobs that have no result to count.

What is proved here is that each result is counted once and nothing else is.  The instance is one
that stays in the topology under one id, enabled, with the thresholds as they are.

* `health_hysteresis`: the stored counts are those of the stream of raw results, the verdict turns
  exactly at the thresholds, and a failed monitor job or a Reconcile changes neither.
-/
import AuroraOperator.Lib.Hysteresis
import AuroraOperator.Controller.Planning
import AuroraOperator.Controller.Safety

namespace AuroraOperator

namespace Controller

open Planner Render Program Hysteresis

/-! ## 1. The memory of an instance -/

/-- What is stored about an instance. -/
def storedHealth (name : String) (status : Status) : Option InstanceStatus :=
  (previousInstanceStatus status.instances)[name]?

def memoryOf (item : InstanceStatus) : Memory :=
  { healthy := item.healthy
    failures := item.consecutiveFailures.toInt
    successes := item.consecutiveSuccesses.toInt }

def entryMemory (entry : InstancePlan) : Memory :=
  { healthy := entry.healthy
    failures := entry.consecutiveFailures.toInt
    successes := entry.consecutiveSuccesses.toInt }

/-- The counters can count one more. -/
def BelowLimit (item : InstanceStatus) : Prop :=
  item.consecutiveFailures.toInt < 2 ^ 31 - 1 ∧ item.consecutiveSuccesses.toInt < 2 ^ 31 - 1

instance (item : InstanceStatus) : Decidable (BelowLimit item) :=
  inferInstanceAs (Decidable (_ ∧ _))

/-- **The thresholds are the automaton.** -/
theorem entryMemory_applyMonitorThresholds (resource : PgBouncerAurora) (entry : InstancePlan)
    {item : InstanceStatus} (h : BelowLimit item) :
    entryMemory (applyMonitorThresholds resource entry (some item))
      = (memoryOf item).observe (defaultInt32 resource.spec.monitor.failureThreshold 3).toInt
          (defaultInt32 resource.spec.monitor.recoveryThreshold 2).toInt entry.healthy := by
  have hf := int32_toInt_succ h.1
  have hs := int32_toInt_succ h.2
  unfold applyMonitorThresholds Memory.observe memoryOf
  dsimp only [Option.map_some, Option.getD_some, Option.isSome_some]
  cases hraw : entry.healthy with
  | true =>
    simp only [if_true, Int32.lt_iff_toInt_lt, hs]
    cases item.healthy <;> split <;> simp_all [entryMemory]
  | false =>
    simp only [Bool.false_eq_true, if_false, Int32.lt_iff_toInt_lt, hf]
    cases item.healthy <;> split <;> simp_all [entryMemory]

/-- Without a previous status there is nothing to weigh the first result against. -/
theorem entryMemory_applyMonitorThresholds_none (resource : PgBouncerAurora)
    (entry : InstancePlan) :
    entryMemory (applyMonitorThresholds resource entry none) = first entry.healthy := by
  unfold applyMonitorThresholds entryMemory first
  cases entry.healthy <;> simp

/-- The monitor's raw result for an instance; one that it does not mention has failed. -/
def rawHealthy (health : StringMap HealthStatus) (name : String) : Bool :=
  (health[name]?.map (·.healthy)).getD false

section Entries

variable {input : Input} {o : InstanceObservation}

theorem planEntry_cached (henabled : instanceDisabled input.resource.spec.pgbouncer o.name = false)
    (hcached : input.cachedHealth = true) {item : InstanceStatus}
    (hprevious : previousFor input o = some item) :
    entryMemory (planEntry input o) = memoryOf item := by
  unfold planEntry
  rw [if_neg (by simp [henabled]), if_pos hcached, hprevious]
  rfl

theorem planEntry_probed (henabled : instanceDisabled input.resource.spec.pgbouncer o.name = false)
    (hprobed : input.cachedHealth = false) :
    ∃ entry : InstancePlan, entry.healthy = rawHealthy input.health o.name ∧
      planEntry input o = applyMonitorThresholds input.resource entry (previousFor input o) := by
  unfold planEntry
  rw [if_neg (by simp [henabled]), if_neg (by simp [hprobed])]
  refine ⟨_, ?_, rfl⟩
  unfold applyHealth rawHealthy
  cases input.health[o.name]? <;> rfl

end Entries

/-- What a plan over a trusted discovery stores about a discovered instance. -/
theorem storedHealth_plan {input : Input} (htrusted : input.discoveryTrusted = true) {name : String}
    (hname : name ≠ "") (hlisted : name ∈ input.discovered.map (·.name)) :
    ∃ o ∈ input.discovered, o.name = name ∧ ∃ item,
      (previousInstanceStatus (instanceStatus (plan input).instances))[name]? = some item ∧
      memoryOf item = entryMemory (planEntry input o) ∧ item.dbiResourceId = o.dbiResourceId := by
  obtain ⟨o, ho, hsame, item, hitem, hentry⟩ := previousInstanceStatus_plan htrusted hname hlisted
  refine ⟨o, ho, hsame, item, hitem, congrArg entryMemory hentry, ?_⟩
  have hobservation := congrArg (·.toInstanceObservation) hentry
  rw [planEntry_observation] at hobservation
  exact congrArg InstanceObservation.dbiResourceId hobservation

/-! ## 2. One step -/

/-- The instance is discovered under the id and enabled, the thresholds are the given ones, and
its counters, if there are any, can count one more. -/
structure Watched (name id : String) (failureThreshold recoveryThreshold : Int32)
    (resource : PgBouncerAurora) : Prop where
  named : name ≠ ""
  discovered : name ∈ resource.status.lastKnownTopology.map (·.instanceName)
  identity : ∀ known ∈ resource.status.lastKnownTopology, known.instanceName = name →
    known.dbiResourceId = id
  enabled : instanceDisabled resource.spec.pgbouncer name = false
  failures : defaultInt32 resource.spec.monitor.failureThreshold 3 = failureThreshold
  recovery : defaultInt32 resource.spec.monitor.recoveryThreshold 2 = recoveryThreshold
  countable : ∀ item ∈ storedHealth name resource.status, BelowLimit item

instance (name id : String) (failureThreshold recoveryThreshold : Int32)
    (resource : PgBouncerAurora) :
    Decidable (Watched name id failureThreshold recoveryThreshold resource) :=
  decidable_of_iff (name ≠ "" ∧ name ∈ resource.status.lastKnownTopology.map (·.instanceName) ∧
      (∀ known ∈ resource.status.lastKnownTopology, known.instanceName = name →
        known.dbiResourceId = id) ∧
      instanceDisabled resource.spec.pgbouncer name = false ∧
      defaultInt32 resource.spec.monitor.failureThreshold 3 = failureThreshold ∧
      defaultInt32 resource.spec.monitor.recoveryThreshold 2 = recoveryThreshold ∧
      ∀ item ∈ storedHealth name resource.status, BelowLimit item)
    ⟨fun ⟨h₁, h₂, h₃, h₄, h₅, h₆, h₇⟩ => ⟨h₁, h₂, h₃, h₄, h₅, h₆, h₇⟩,
      fun ⟨h₁, h₂, h₃, h₄, h₅, h₆, h₇⟩ => ⟨h₁, h₂, h₃, h₄, h₅, h₆, h₇⟩⟩

/-- The raw result that a step counts: the one of a monitor job that returned and was
committed. -/
def World.probes (name : String) (w : World) : Step → List Bool
  | .monitor check checkedAt now faults =>
    if answer (runMonitorJob check checkedAt now) (w.meet faults) then
      match check w.stored.resource (cachedDiscovery w.stored.resource).instances with
      | .ok health => [rawHealthy health name]
      | .error _ => []
    else []
  | _ => []

/-- A step of the world, with the raw results for the instance. -/
abbrev probing (name : String) : World × List Bool → Step → World × List Bool :=
  Machine.traced World.next (World.probes name)

section Monitored

variable {name id : String} {failureThreshold recoveryThreshold : Int32} {w : World}
  {resource : PgBouncerAurora} {item : InstanceStatus}

theorem previousFor_eq_some {input : Input} {o : InstanceObservation}
    (hstored : storedHealth o.name input.resource.status = some item)
    (hid : physicalIdentityChanged o.dbiResourceId item.dbiResourceId = false) :
    previousFor input o = some item := by
  rw [storedHealth] at hstored
  simp [previousFor, hstored, hid]

theorem previousFor_eq_none {input : Input} {o : InstanceObservation}
    (hstored : storedHealth o.name input.resource.status = none) : previousFor input o = none := by
  rw [storedHealth] at hstored
  simp [previousFor, hstored]

/-- The observation that the next plan makes its entry from. -/
theorem Watched.planned (h : Watched name id failureThreshold recoveryThreshold resource)
    (htrusted : (cachedDiscovery resource).trusted = true) (health : StringMap HealthStatus)
    (cached : Bool) :
    ∃ o : InstanceObservation, o.name = name ∧ o.dbiResourceId = id ∧ ∃ item,
      (previousInstanceStatus (instanceStatus
        (plan (monitorInput resource health cached)).instances))[name]? = some item ∧
      memoryOf item = entryMemory (planEntry (monitorInput resource health cached) o) ∧
      item.dbiResourceId = id := by
  have hinstances := cachedDiscovery_instances htrusted
  have hlisted : name ∈ (monitorInput resource health cached).discovered.map (·.name) := by
    rw [show (monitorInput resource health cached).discovered = _ from hinstances,
      map_name_topologyObservations]
    exact h.discovered
  obtain ⟨o, ho, hname, item, hitem, hmemory, hid⟩ :=
    @storedHealth_plan (monitorInput resource health cached) htrusted name h.named hlisted
  rw [show (monitorInput resource health cached).discovered = _ from hinstances,
    topologyObservations] at ho
  obtain ⟨known, hknown, rfl⟩ := List.mem_map.mp ho
  have hsame := h.identity known hknown hname
  exact ⟨_, hname, hsame, item, hitem, hmemory, hid.trans hsame⟩

/-- Only a monitor job rewrites what is stored about instances, once there is something. -/
theorem Move.instances {w' : World} {step : Step} {events : List Event}
    (hmove : Move w step w' events) (hne : w.stored.resource.status.instances ≠ [])
    (hstep : ∀ check checkedAt now faults, step ≠ .monitor check checkedAt now faults) :
    w'.stored.resource.status.instances = w.stored.resource.status.instances := by
  cases hmove with
  | discovered answered due commit stored =>
    rw [stored]
    exact (discoveryCommit_frame commit).2.2.1
  | monitored trusted commit stored => exact absurd rfl (hstep _ _ _ _)
  | unmonitored stored => exact absurd rfl (hstep _ _ _ _)
  | reconciled prepared cluster stored =>
    rw [stored, StoredResource.updateStatus_status, Status.marshal_instances, Prepared.status,
      prepared.evaluation]
    simp [reconcileCommit, scheduledEvaluation, hne]
  | undiscovered unanswered stored => rw [stored]
  | attempted stored => rw [stored]
  | edited stored => rw [stored]; rfl
  | moved stored => rw [stored]

theorem instances_ne_nil {status : Status} (h : storedHealth name status = some item) :
    status.instances ≠ [] := by
  intro hnil
  rw [storedHealth, hnil] at h
  simp [previousInstanceStatus] at h

/-- The item is about the instance with the id, as far as can be told. -/
def SameInstance (id : String) (item : InstanceStatus) : Prop :=
  physicalIdentityChanged id item.dbiResourceId = false

theorem sameInstance_of_eq (h : item.dbiResourceId = id) : SameInstance id item := by
  simp [SameInstance, physicalIdentityChanged, h]

/-- **A step without a result** leaves the memory as it is: a failed monitor job writes back what
was stored, and nothing else touches it. -/
theorem Watched.quiet (h : Watched name id failureThreshold recoveryThreshold w.stored.resource)
    (hstored : storedHealth name w.stored.resource.status = some item)
    (hid : SameInstance id item) {step : Step} (hquiet : w.probes name step = []) :
    ∃ item', storedHealth name (w.next step).stored.resource.status = some item' ∧
      memoryOf item' = memoryOf item ∧ SameInstance id item' := by
  have hother (hstep : ∀ check checkedAt now faults, step ≠ .monitor check checkedAt now faults) :
      ∃ item', storedHealth name (w.next step).stored.resource.status = some item' ∧
        memoryOf item' = memoryOf item ∧ SameInstance id item' := by
    have hsame := (next_move w step).instances (instances_ne_nil hstored) hstep
    exact ⟨item, by rw [storedHealth, hsame]; exact hstored, rfl, hid⟩
  cases step with
  | monitor check checkedAt now faults =>
    rcases monitor_cases w check checkedAt now faults with
      ⟨hanswer, htrusted, status, hcommit, hnext⟩ | ⟨-, hnext⟩
    · rw [World.probes, if_pos hanswer] at hquiet
      split at hquiet
      · cases hquiet
      · rename_i err hcheck
        rw [MonitorWork.commit, monitorWork_error hcheck] at hcommit
        obtain ⟨-, -, rfl⟩ := monitorCommit_eq_some.mp hcommit
        obtain ⟨o, rfl, rfl, item', hitem', hmemory, hsame⟩ := h.planned htrusted
          (healthFromStatus w.stored.resource.status.instances) true
        rw [hnext]
        refine ⟨item', hitem', hmemory.trans ?_, sameInstance_of_eq hsame⟩
        exact planEntry_cached h.enabled rfl (previousFor_eq_some hstored hid)
    · exact ⟨item, by rw [hnext]; exact hstored, rfl, hid⟩
  | discover | reconcile | editSpec | environment => exact hother (by simp)

/-- What a probe that returned leaves behind: the thresholds, applied to what was there. -/
theorem Watched.probed_from
    (h : Watched name id failureThreshold recoveryThreshold w.stored.resource) {step : Step}
    {raw : Bool} (hraw : w.probes name step = [raw]) :
    ∃ (input : Input) (o : InstanceObservation) (entry : InstancePlan) (item : InstanceStatus),
      input.resource = w.stored.resource ∧ o.name = name ∧ o.dbiResourceId = id ∧
      entry.healthy = raw ∧ storedHealth name (w.next step).stored.resource.status = some item ∧
      SameInstance id item ∧ memoryOf item
        = entryMemory (applyMonitorThresholds w.stored.resource entry (previousFor input o)) := by
  cases step with
  | monitor check checkedAt now faults =>
    rcases monitor_cases w check checkedAt now faults with
      ⟨hanswer, htrusted, status, hcommit, hnext⟩ | ⟨hanswer, hnext⟩
    · rw [World.probes, if_pos hanswer] at hraw
      split at hraw
      · rename_i health hcheck
        cases hraw
        rw [MonitorWork.commit, monitorWork_ok hcheck] at hcommit
        obtain ⟨-, -, rfl⟩ := monitorCommit_eq_some.mp hcommit
        obtain ⟨o, rfl, rfl, item, hitem, hmemory, hsame⟩ := h.planned htrusted health false
        obtain ⟨entry, hentry, hplan⟩ :=
          @planEntry_probed (monitorInput w.stored.resource health false) o h.enabled rfl
        rw [hplan] at hmemory
        rw [hnext]
        exact ⟨_, o, entry, item, rfl, rfl, rfl, hentry, hitem, sameInstance_of_eq hsame, hmemory⟩
      · cases hraw
    · rw [World.probes, if_neg (by simp [hanswer])] at hraw
      cases hraw
  | discover | reconcile | editSpec | environment => cases hraw

/-- **A step with a result** counts it, from what was stored. -/
theorem Watched.probed (h : Watched name id failureThreshold recoveryThreshold w.stored.resource)
    {step : Step} {raw : Bool} (hraw : w.probes name step = [raw]) :
    ∃ item', storedHealth name (w.next step).stored.resource.status = some item' ∧
      SameInstance id item' ∧
      (storedHealth name w.stored.resource.status = none → memoryOf item' = first raw) ∧
      ∀ item, storedHealth name w.stored.resource.status = some item → SameInstance id item →
        memoryOf item' = (memoryOf item).observe failureThreshold.toInt recoveryThreshold.toInt
          raw := by
  obtain ⟨input, o, entry, item', hinput, rfl, rfl, hentry, hitem', hid', hmemory⟩ :=
    h.probed_from hraw
  refine ⟨item', hitem', hid', fun hnone => ?_, fun item hsome hid => ?_⟩
  · rw [← hinput] at hnone
    rw [hmemory, previousFor_eq_none hnone, entryMemory_applyMonitorThresholds_none, hentry]
  · have hprevious : previousFor input o = some item :=
      previousFor_eq_some (by rw [hinput]; exact hsome) hid
    rw [hmemory, hprevious, entryMemory_applyMonitorThresholds _ _ (h.countable item hsome), hentry,
      h.failures, h.recovery]

end Monitored

/-! ## 3. Whole runs -/

theorem probes_cases (name : String) (w : World) (step : Step) :
    w.probes name step = [] ∨ ∃ raw, w.probes name step = [raw] := by
  unfold World.probes
  split
  · split
    · split
      · exact Or.inr ⟨_, rfl⟩
      · exact Or.inl rfl
    · exact Or.inl rfl
  · exact Or.inl rfl

/-- The stored memory is that of the raw results, on top of the counts from before them. -/
def Remembers (name id : String) (failureThreshold recoveryThreshold : Int32)
    (failures successes : Int) (t : World × List Bool) : Prop :=
  ∃ item, storedHealth name t.1.stored.resource.status = some item ∧ SameInstance id item ∧
    Follows failureThreshold.toInt recoveryThreshold.toInt failures successes t.2 (memoryOf item)

/-- What the next step does to the verdict. -/
def TurnsAtThresholds (name : String) (failureThreshold recoveryThreshold : Int32)
    (failures successes : Int) (t : World × List Bool) (step : Step) : Prop :=
  ∃ item item', storedHealth name t.1.stored.resource.status = some item ∧
    storedHealth name (t.1.next step).stored.resource.status = some item' ∧
    let raws := t.1.probes name step ++ t.2
    item'.consecutiveFailures.toInt = trailing false failures raws ∧
    item'.consecutiveSuccesses.toInt = trailing true successes raws ∧
    (item.healthy = true →
      (item'.healthy = false ↔ trailing false failures raws = failureThreshold.toInt)) ∧
    (item.healthy = false →
      (item'.healthy = true ↔ trailing true successes raws = recoveryThreshold.toInt)) ∧
    (t.1.probes name step = [] → item'.healthy = item.healthy ∧
      item'.consecutiveFailures = item.consecutiveFailures ∧
      item'.consecutiveSuccesses = item.consecutiveSuccesses)

section Runs

variable {name id : String} {failureThreshold recoveryThreshold : Int32}
  {failures successes : Int} {t : World × List Bool}

theorem Watched.failures_pos {resource : PgBouncerAurora}
    (h : Watched name id failureThreshold recoveryThreshold resource) :
    0 < failureThreshold.toInt := by
  rw [← h.failures]
  exact defaultInt32_pos (by decide)

theorem Watched.recovery_pos {resource : PgBouncerAurora}
    (h : Watched name id failureThreshold recoveryThreshold resource) :
    0 < recoveryThreshold.toInt := by
  rw [← h.recovery]
  exact defaultInt32_pos (by decide)

theorem Remembers.next
    (h : Remembers name id failureThreshold recoveryThreshold failures successes t)
    {step : Step} (hw : Watched name id failureThreshold recoveryThreshold t.1.stored.resource) :
    Remembers name id failureThreshold recoveryThreshold failures successes
      (probing name t step) := by
  obtain ⟨item, hstored, hid, hfollows⟩ := h
  rcases probes_cases name t.1 step with hquiet | ⟨raw, hraw⟩
  · obtain ⟨item', hstored', hmemory, hid'⟩ := hw.quiet hstored hid hquiet
    refine ⟨item', hstored', hid', ?_⟩
    show Follows _ _ _ _ (t.1.probes name step ++ t.2) _
    rw [hquiet, hmemory]
    exact hfollows
  · obtain ⟨item', hstored', hid', -, hobserve⟩ := hw.probed hraw
    refine ⟨item', hstored', hid', ?_⟩
    show Follows _ _ _ _ (t.1.probes name step ++ t.2) _
    rw [hraw, hobserve item hstored hid]
    exact hfollows.observe raw hw.failures_pos hw.recovery_pos

theorem Remembers.turns
    (h : Remembers name id failureThreshold recoveryThreshold failures successes t)
    {step : Step} (hw : Watched name id failureThreshold recoveryThreshold t.1.stored.resource) :
    TurnsAtThresholds name failureThreshold recoveryThreshold failures successes t step := by
  obtain ⟨item, hstored, hid, hfollows⟩ := h
  rcases probes_cases name t.1 step with hquiet | ⟨raw, hraw⟩
  · obtain ⟨item', hstored', hmemory, -⟩ := hw.quiet hstored hid hquiet
    have hhealthy : item'.healthy = item.healthy := congrArg Memory.healthy hmemory
    have hfailures : item'.consecutiveFailures.toInt = item.consecutiveFailures.toInt :=
      congrArg Memory.failures hmemory
    have hsuccesses : item'.consecutiveSuccesses.toInt = item.consecutiveSuccesses.toInt :=
      congrArg Memory.successes hmemory
    -- without a result neither count can be at its threshold
    refine ⟨item, item', hstored, hstored', ?_⟩
    rw [hquiet, List.nil_append]
    dsimp only
    rw [← hfollows.failures, ← hfollows.successes, hhealthy]
    refine ⟨hfailures, hsuccesses, fun hgood => ?_, fun hbad => ?_, fun _ =>
      ⟨rfl, Int32.toInt_inj.mp hfailures, Int32.toInt_inj.mp hsuccesses⟩⟩
    · exact iff_of_false (by simp [hgood]) (hfollows.steady.healthy hgood).ne
    · exact iff_of_false (by simp [hbad]) (hfollows.steady.unhealthy hbad).ne
  · obtain ⟨item', hstored', -, -, hobserve⟩ := hw.probed hraw
    have hmemory := hobserve item hstored hid
    have hnext := hfollows.observe raw hw.failures_pos hw.recovery_pos
    rw [← hmemory] at hnext
    refine ⟨item, item', hstored, hstored', ?_⟩
    rw [hraw, List.singleton_append]
    dsimp only
    rw [← hnext.failures, ← hnext.successes]
    refine ⟨rfl, rfl, fun hgood => ?_, fun hbad => ?_, fun hnil => nomatch hnil⟩
    · rw [show item'.healthy = (memoryOf item').healthy from rfl, hmemory]
      exact hfollows.steady.turns_bad hw.failures_pos hgood
    · rw [show item'.healthy = (memoryOf item').healthy from rfl, hmemory]
      exact hfollows.steady.turns_good hw.recovery_pos hbad

end Runs

/-- **Health hysteresis over whole runs.**  The run starts from a stored status that has not
overstayed a threshold, or from none with a result as its first step; then that result is the
verdict.  From there on the counts are those of the raw results, and the next step turns the
verdict exactly when a count reaches its threshold. -/
theorem health_hysteresis (name id : String) (failureThreshold recoveryThreshold : Int32)
    (w : World) (steps : List Step)
    (hsteps : Machine.Along World.next
      (fun w _ => Watched name id failureThreshold recoveryThreshold w.stored.resource) w steps) :
    let t := Machine.run (probing name) (w, []) steps
    let Holds := fun failures successes =>
      (∃ item, storedHealth name t.1.stored.resource.status = some item ∧
        item.consecutiveFailures.toInt = trailing false failures t.2 ∧
        item.consecutiveSuccesses.toInt = trailing true successes t.2) ∧
      ∀ step, Watched name id failureThreshold recoveryThreshold t.1.stored.resource →
        TurnsAtThresholds name failureThreshold recoveryThreshold failures successes t step
    (∀ item, storedHealth name w.stored.resource.status = some item → SameInstance id item →
      (item.healthy = true → item.consecutiveFailures.toInt < failureThreshold.toInt) →
      (item.healthy = false → item.consecutiveSuccesses.toInt < recoveryThreshold.toInt) →
      Holds item.consecutiveFailures.toInt item.consecutiveSuccesses.toInt) ∧
    (storedHealth name w.stored.resource.status = none →
      ∀ step rest raw, steps = step :: rest → w.probes name step = [raw] →
        (∃ item, storedHealth name (w.next step).stored.resource.status = some item ∧
          item.healthy = raw) ∧ Holds 0 0) := by
  intro t Holds
  have hholds {failures successes : Int}
      (h : Remembers name id failureThreshold recoveryThreshold failures successes t) :
      Holds failures successes := by
    obtain ⟨item, hstored, hid, hfollows⟩ := h
    exact ⟨⟨item, hstored, hfollows.failures, hfollows.successes⟩, fun step hw =>
      Remembers.turns ⟨item, hstored, hid, hfollows⟩ hw⟩
  have hrun : Machine.Along (probing name) (fun t _ =>
      Watched name id failureThreshold recoveryThreshold t.1.stored.resource) (w, []) steps :=
    (Machine.along_traced World.next (P := fun w _ =>
      Watched name id failureThreshold recoveryThreshold w.stored.resource)).mpr hsteps
  refine ⟨fun item hstored hid hgood hbad => hholds ?_, fun hnone step rest raw hcons hraw => ?_⟩
  · exact Machine.Along.invariant (I := Remembers name id failureThreshold recoveryThreshold
        item.consecutiveFailures.toInt item.consecutiveSuccesses.toInt)
      (fun t step h hw => h.next hw)
      ⟨item, hstored, hid, ⟨hgood, hbad⟩, (trailing_nil _ _).symm, (trailing_nil _ _).symm⟩ hrun
  · subst hcons
    obtain ⟨hw, hrest⟩ := hrun
    obtain ⟨item, hstored, hid, hfirst, -⟩ := hw.probed hraw
    have hmemory := hfirst hnone
    have hstart : Remembers name id failureThreshold recoveryThreshold 0 0
        (probing name (w, []) step) := by
      refine ⟨item, hstored, hid, ?_⟩
      show Follows _ _ _ _ (w.probes name step ++ []) _
      rw [hraw, hmemory]
      exact follows_first hw.failures_pos hw.recovery_pos
    exact ⟨⟨item, hstored, congrArg Memory.healthy hmemory⟩,
      hholds (Machine.Along.invariant (fun t step h hw => h.next hw) hstart hrest)⟩

/-- A monitor job with the given result for `b`. -/
def probeB (healthy : Bool) (now : Int) : Step :=
  .monitor (fun _ _ => .ok ((∅ : StringMap HealthStatus).insert "b" { healthy := healthy }))
    now now []

def exampleDiscovered : World :=
  reached "db" exampleSpec {} [.discover (fun resource => .ok (exampleProvider.discover resource))
    (10 * second) (10 * second) []]

/-- A success, and three failures after it. -/
def exampleProbes : List Step :=
  [probeB true (20 * second), probeB false (80 * second), probeB false (140 * second),
    probeB false (200 * second)]

theorem health_hysteresis_example :
    ∃ item, storedHealth "b" (Machine.run (probing "b") (exampleDiscovered, [])
        exampleProbes).1.stored.resource.status = some item ∧
      item.consecutiveFailures.toInt = 3 := by
  have hwatched : Machine.Along World.next
      (fun w _ => Watched "b" "" 3 2 w.stored.resource) exampleDiscovered exampleProbes :=
    ⟨by decide +kernel, by decide +kernel, by decide +kernel, by decide +kernel, trivial⟩
  have hraws : (Machine.run (probing "b") (exampleDiscovered, []) exampleProbes).2
      = [false, false, false, true] := by decide +kernel
  have hnone : storedHealth "b" exampleDiscovered.stored.resource.status = none := by decide +kernel
  have hfirst : exampleDiscovered.probes "b" (probeB true (20 * second)) = [true] := by decide +kernel
  obtain ⟨-, ⟨item, hstored, hfailures, -⟩, -⟩ :=
    (health_hysteresis "b" "" 3 2 exampleDiscovered exampleProbes hwatched).2 hnone _ _ _ rfl hfirst
  rw [hraws] at hfailures
  exact ⟨item, hstored, hfailures⟩

end Controller

end AuroraOperator

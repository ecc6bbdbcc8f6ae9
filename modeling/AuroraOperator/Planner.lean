/-
# The planner

`internal/planner/planner.go`.  `plan` decides, for one resource and one discovery result,
which instances stand behind the writer Service and which behind the reader Service.

It runs in two stages.  The loop over the discovered instances collects the HEALTHY writers
and readers (`Tally`).  Three corrections then look at the previous decision, which comes
back in through `lastAppliedMembership`: an ambiguous or absent writer, readers that went
missing a moment ago, and an empty reader set.

The second half of the file says what the result is in closed form
(`plan_membership_writer`, `plan_membership_reader`).  The loop and the corrections are not
unfolded anywhere after that.
-/
import AuroraOperator.Api

namespace AuroraOperator

namespace Planner

/-- The `Resource` pointer of the source is not nil at any of its callers. -/
structure Input where
  resource : PgBouncerAurora
  discoveryTrusted : Bool
  discovered : List InstanceObservation
  health : StringMap HealthStatus := ∅
  cachedHealth : Bool
  missingInstances : List MissingInstanceStatus

structure Output where
  instances : List InstancePlan := []
  membership : ServiceMembership := {}
  frozen : Bool := false
  reasons : List String := []
  readerFallbackSuppressed : Bool := false
  readerFallbackSuppressedReason : String := ""
  deriving DecidableEq, Repr

/-! ## 1. Small readings of the spec -/

def defaultInt32 (value fallback : Int32) : Int32 := if value > 0 then value else fallback

theorem defaultInt32_pos {value fallback : Int32} (h : 0 < fallback) :
    0 < (defaultInt32 value fallback).toInt := by
  have hpos : (0 : Int32) < defaultInt32 value fallback := by
    unfold defaultInt32
    split
    · assumption
    · exact h
  exact Int32.lt_iff_toInt_lt.mp hpos

def enabledDefaultTrue (value : Option Bool) : Bool := value.getD true

def instanceDisabled (spec : PgBouncerSpec) (instanceName : String) : Bool :=
  spec.instanceOverrides.any fun override =>
    override.name == instanceName && override.enabled == some false

def replicasFor (spec : PgBouncerSpec) (instanceName : String) : Int32 :=
  let replicas := match spec.replicas with
    | some n => if n > 0 then n else 1
    | none => 1
  match spec.instanceOverrides.find? fun override =>
      override.name == instanceName && decide (override.replicas > 0) with
  | some override => override.replicas
  | none => replicas

/-- `stringSet`, as its characteristic function. -/
def stringSet (values : List String) (x : String) : Bool := values.contains x

@[simp] theorem stringSet_iff {values : List String} {x : String} :
    stringSet values x = true ↔ x ∈ values := by
  simp [stringSet]

def readerEmptyFallbackEnabled (resource : PgBouncerAurora) : Bool :=
  enabledDefaultTrue resource.spec.topologyPolicy.readerEmptyFallback

/-- The effective `removeAfterMissingCount`. -/
def missingThreshold (resource : PgBouncerAurora) : Int32 :=
  defaultInt32 resource.spec.topologyPolicy.removeAfterMissingCount 3

/-! ## 2. One instance -/

/-- The stored instances by name; the last entry of a name wins. -/
def previousInstanceStatus (items : List InstanceStatus) : StringMap InstanceStatus :=
  items.foldl (fun out item =>
    if item.instanceName ≠ "" then out.insert item.instanceName item else out) ∅

def physicalIdentityChanged (current previous : String) : Bool :=
  current ≠ "" && previous ≠ "" && current ≠ previous

/-- A missing previous status is the zero value in the source, which has an empty name. -/
def applyCachedHealth (plan : InstancePlan) (previous : Option InstanceStatus) : InstancePlan :=
  match previous with
  | none => plan
  | some p => { plan with healthy := p.healthy
                          reason := p.reason
                          consecutiveFailures := p.consecutiveFailures
                          consecutiveSuccesses := p.consecutiveSuccesses
                          readyReplicas := p.readyReplicas }

def applyMonitorThresholds (resource : PgBouncerAurora) (plan : InstancePlan)
    (previous : Option InstanceStatus) : InstancePlan :=
  let failureThreshold := defaultInt32 resource.spec.monitor.failureThreshold 3
  let recoveryThreshold := defaultInt32 resource.spec.monitor.recoveryThreshold 2
  let previousHealthy := (previous.map (·.healthy)).getD false
  if plan.healthy then
    let successes := (previous.map (·.consecutiveSuccesses)).getD 0 + 1
    let plan' := { plan with consecutiveSuccesses := successes, consecutiveFailures := 0 }
    if previous.isSome && !previousHealthy && successes < recoveryThreshold then
      { plan' with healthy := false
                   reason := "recovering " ++ toString successes ++ "/" ++
                     toString recoveryThreshold ++ ": " ++ plan.reason }
    else plan'
  else
    let failures := (previous.map (·.consecutiveFailures)).getD 0 + 1
    let plan' := { plan with consecutiveFailures := failures, consecutiveSuccesses := 0 }
    if previousHealthy && failures < failureThreshold then
      { plan' with healthy := true
                   reason := "preserved until failureThreshold " ++ toString failures ++ "/" ++
                     toString failureThreshold ++ ": " ++ plan.reason }
    else plan'

/-- The previous status of an observed instance, unless it was another physical machine. -/
def previousFor (input : Input) (observed : InstanceObservation) : Option InstanceStatus :=
  match (previousInstanceStatus input.resource.status.instances)[observed.name]? with
  | none => none
  | some p =>
    if physicalIdentityChanged observed.dbiResourceId p.dbiResourceId then none else some p

/-- The monitor's own verdict, before thresholds. -/
def applyHealth (plan : InstancePlan) (health : Option HealthStatus) : InstancePlan :=
  match health with
  | none => plan
  | some h => { plan with healthy := h.healthy
                          reason := if h.healthy && h.reason == "" then "healthy" else h.reason
                          readyReplicas := h.readyReplicas }

/-- The plan entry the loop appends for one observation. -/
def planEntry (input : Input) (observed : InstanceObservation) : InstancePlan :=
  let plan : InstancePlan :=
    { observed with healthy := false
                    reason := "monitor unknown"
                    replicas := replicasFor input.resource.spec.pgbouncer observed.name }
  if instanceDisabled input.resource.spec.pgbouncer observed.name then
    { plan with disabled := true
                replicas := 0
                reason := "disabled by spec.pgbouncer.instanceOverrides" }
  else if input.cachedHealth then applyCachedHealth plan (previousFor input observed)
  else applyMonitorThresholds input.resource (applyHealth plan input.health[observed.name]?)
    (previousFor input observed)

/-! ## 3. The loop -/

/-- The accumulators of the loop. -/
structure Tally where
  instances : List InstancePlan := []
  writer : List String := []
  reader : List String := []
  discoveredReaderCount : Nat := 0
  disabledDiscoveredReaderCount : Nat := 0
  enabledDiscoveredReaderCount : Nat := 0

def planObserved (input : Input) (acc : Tally) (observed : InstanceObservation) : Tally :=
  let entry := planEntry input observed
  let reader := if observed.role = .reader then 1 else 0
  let acc := { acc with instances := acc.instances ++ [entry]
                        discoveredReaderCount := acc.discoveredReaderCount + reader }
  if entry.disabled then
    { acc with disabledDiscoveredReaderCount := acc.disabledDiscoveredReaderCount + reader }
  else
    let acc := { acc with
      enabledDiscoveredReaderCount := acc.enabledDiscoveredReaderCount + reader }
    if !entry.healthy then acc
    else match observed.role with
      | .writer => { acc with writer := acc.writer ++ [observed.name] }
      | .reader => { acc with reader := acc.reader ++ [observed.name] }

/-- `sort.Slice` by name. -/
def sortInstancePlans (items : List InstancePlan) : List InstancePlan :=
  items.insertionSort (fun a b => a.name ≤ b.name)

/-! ## 4. The corrections -/

def previousMissingMembershipBeforeRemoveThreshold (previous : List String)
    (missingInstances : List MissingInstanceStatus) (threshold : Int32) : List String :=
  let activeMissing := (missingInstances.filter fun missing =>
    missing.instanceName ≠ "" && missing.missingCount < threshold).map (·.instanceName)
  previous.filter (stringSet activeMissing)

def filterEnabledInstances (spec : PgBouncerSpec) (values : List String) : List String :=
  values.filter fun value => !instanceDisabled spec value

def previousCurrentMembership (previous current : List String) : List String :=
  previous.filter (stringSet current)

def previousMissingWriterBeforeRemoveThreshold (resource : PgBouncerAurora)
    (missingInstances : List MissingInstanceStatus) : List String :=
  filterEnabledInstances resource.spec.pgbouncer
    (previousMissingMembershipBeforeRemoveThreshold resource.status.lastAppliedMembership.writer
      missingInstances (missingThreshold resource))

def previousMissingReaderBeforeRemoveThreshold (resource : PgBouncerAurora)
    (missingInstances : List MissingInstanceStatus) : List String :=
  filterEnabledInstances resource.spec.pgbouncer
    (previousMissingMembershipBeforeRemoveThreshold resource.status.lastAppliedMembership.reader
      missingInstances (missingThreshold resource))

def Output.setWriter (out : Output) (writer : List String) : Output :=
  { out with membership := { out.membership with writer := writer } }

def Output.setReader (out : Output) (reader : List String) : Output :=
  { out with membership := { out.membership with reader := reader } }

def Output.addReason (out : Output) (reason : String) : Output :=
  { out with reasons := out.reasons ++ [reason] }

def stabilizeWriterMembership (resource : PgBouncerAurora) (out : Output)
    (missingInstances : List MissingInstanceStatus) : Output :=
  if out.membership.writer.length = 1 then out
  else if out.membership.writer.length > 1 then
    let previous := previousCurrentMembership resource.status.lastAppliedMembership.writer
      out.membership.writer
    if previous.length = 1 then
      (out.setWriter previous).addReason "writer membership preserved"
    else (out.setWriter []).addReason "writer membership ambiguous"
  else
    let previous := previousMissingWriterBeforeRemoveThreshold resource missingInstances
    if previous.length > 0 then
      (out.setWriter previous).addReason "writer membership preserved"
    else out

/-- The missing readers that keep their place, in the order of the missing list. -/
def preservedMissingReaders (resource : PgBouncerAurora) (currentReader : List String)
    (missingInstances : List MissingInstanceStatus) : List String :=
  (missingInstances.filter fun missing =>
    !(missing.instanceName == "" || missing.missingCount ≥ missingThreshold resource ||
      !stringSet resource.status.lastAppliedMembership.reader missing.instanceName ||
      stringSet currentReader missing.instanceName ||
      instanceDisabled resource.spec.pgbouncer missing.instanceName)).map (·.instanceName)

def preserveMissingReaderMembership (resource : PgBouncerAurora) (out : Output)
    (missingInstances : List MissingInstanceStatus) : Output :=
  if missingInstances.length = 0 || resource.status.lastAppliedMembership.reader.length = 0 then
    out
  else
    let preserved := preservedMissingReaders resource out.membership.reader missingInstances
    let out := preserved.foldl (fun out _ =>
      out.addReason "missing reader membership preserved") out
    out.setReader (sortStrings (out.membership.reader ++ preserved))

def stabilizeReaderMembership (resource : PgBouncerAurora) (out : Output)
    (missingInstances : List MissingInstanceStatus) : Output :=
  if out.membership.reader.length > 0 then out
  else if out.readerFallbackSuppressed then
    out.addReason ("reader fallback suppressed: " ++ out.readerFallbackSuppressedReason)
  else if readerEmptyFallbackEnabled resource && out.membership.writer.length > 0 then
    (out.setReader out.membership.writer).addReason "reader fallback to writer"
  else
    let previous := previousMissingReaderBeforeRemoveThreshold resource missingInstances
    if previous.length > 0 then
      (out.setReader previous).addReason "reader membership preserved"
    else out

/-! ## 5. `Plan` -/

def instancePlanFromStatus (item : InstanceStatus) : InstancePlan :=
  { name := item.instanceName
    endpoint := item.endpoint
    port := item.port
    role := item.role
    availabilityZone := item.availabilityZone
    dbiResourceId := item.dbiResourceId
    healthy := item.healthy
    disabled := item.disabled
    reason := item.reason
    replicas := item.desiredReplicas
    readyReplicas := item.readyReplicas
    consecutiveFailures := item.consecutiveFailures
    consecutiveSuccesses := item.consecutiveSuccesses }

def instancePlansFromStatus (items : List InstanceStatus) : List InstancePlan :=
  sortInstancePlans ((items.filter (·.instanceName ≠ "")).map instancePlanFromStatus)

/-- The frozen plan: the last applied membership, whatever was observed. -/
def frozenPlan (resource : PgBouncerAurora) : Output :=
  { instances := instancePlansFromStatus resource.status.instances
    membership := resource.status.lastAppliedMembership
    frozen := true
    reasons := ["discovery untrusted"] }

/-- Every discovered reader is disabled, and there is at least one. -/
def readersSuppressed (tally : Tally) : Bool :=
  tally.discoveredReaderCount > 0 && tally.enabledDiscoveredReaderCount = 0 &&
    tally.disabledDiscoveredReaderCount = tally.discoveredReaderCount

/-- The plan between the loop and the corrections. -/
def observedPlan (input : Input) : Output :=
  let tally := input.discovered.foldl (planObserved input) {}
  { instances := sortInstancePlans tally.instances
    membership := { writer := sortStrings tally.writer, reader := sortStrings tally.reader }
    readerFallbackSuppressed := readersSuppressed tally
    readerFallbackSuppressedReason :=
      if readersSuppressed tally then "AllDiscoveredReadersDisabledByOverride" else "" }

def plan (input : Input) : Output :=
  if !input.discoveryTrusted then frozenPlan input.resource
  else
    let out := stabilizeWriterMembership input.resource (observedPlan input) input.missingInstances
    let out := preserveMissingReaderMembership input.resource out input.missingInstances
    stabilizeReaderMembership input.resource out input.missingInstances

/-! ## 6. What the loop collects -/

section Loop

variable (input : Input)

theorem planEntry_disabled (o : InstanceObservation) :
    (planEntry input o).disabled = instanceDisabled input.resource.spec.pgbouncer o.name := by
  unfold planEntry
  split
  · rename_i h; simp [h]
  · rename_i h
    have hd : instanceDisabled input.resource.spec.pgbouncer o.name = false := by simpa using h
    rw [hd]
    split
    · unfold applyCachedHealth; split <;> rfl
    · have hh : ∀ p : InstancePlan, ∀ h, (applyHealth p h).disabled = p.disabled := by
        intro p h; unfold applyHealth; split <;> rfl
      unfold applyMonitorThresholds
      dsimp only
      split
      · split <;> simp [hh]
      · split <;> simp [hh]

/-- A disabled instance is never healthy, so the loop never makes it a member. -/
theorem not_disabled_of_healthy {o : InstanceObservation} (h : (planEntry input o).healthy = true) :
    instanceDisabled input.resource.spec.pgbouncer o.name = false := by
  by_contra hd
  rw [Bool.not_eq_false] at hd
  simp [planEntry, hd] at h

/-- The observation inside a plan entry is the one it was made from. -/
theorem planEntry_observation (o : InstanceObservation) :
    (planEntry input o).toInstanceObservation = o := by
  unfold planEntry
  split
  · rfl
  · split
    · unfold applyCachedHealth; split <;> rfl
    · have hh : ∀ p : InstancePlan, ∀ h,
          (applyHealth p h).toInstanceObservation = p.toInstanceObservation := by
        intro p h; unfold applyHealth; split <;> rfl
      unfold applyMonitorThresholds
      dsimp only
      split
      · split <;> simp [hh]
      · split <;> simp [hh]

@[simp] theorem planEntry_name (o : InstanceObservation) : (planEntry input o).name = o.name := by
  rw [planEntry_observation]

/-- The names of the healthy instances of one role, in discovery order. -/
def healthyNames (role : Role) (l : List InstanceObservation) : List String :=
  (l.filter fun o => o.role = role && (planEntry input o).healthy).map (·.name)

def isReader (o : InstanceObservation) : Bool := o.role = .reader

def isDisabledReader (o : InstanceObservation) : Bool :=
  o.role = .reader && instanceDisabled input.resource.spec.pgbouncer o.name

/-- What one round of the loop adds to each accumulator. -/
theorem planObserved_eq (acc : Tally) (o : InstanceObservation) :
    planObserved input acc o =
      { instances := acc.instances ++ [planEntry input o]
        writer := acc.writer ++ healthyNames input .writer [o]
        reader := acc.reader ++ healthyNames input .reader [o]
        discoveredReaderCount := acc.discoveredReaderCount + [o].countP isReader
        disabledDiscoveredReaderCount :=
          acc.disabledDiscoveredReaderCount + [o].countP (isDisabledReader input)
        enabledDiscoveredReaderCount := acc.enabledDiscoveredReaderCount +
          [o].countP (fun o => isReader o && !isDisabledReader input o) } := by
  have hdis := planEntry_disabled input o
  have hen := @not_disabled_of_healthy input o
  cases hd : instanceDisabled input.resource.spec.pgbouncer o.name <;>
  cases hh : (planEntry input o).healthy <;> cases hr : o.role <;>
    simp_all [planObserved, healthyNames, isReader, isDisabledReader]

/-- **The loop, in closed form.** -/
theorem tally_eq (l : List InstanceObservation) (acc : Tally) :
    l.foldl (planObserved input) acc =
      { instances := acc.instances ++ l.map (planEntry input)
        writer := acc.writer ++ healthyNames input .writer l
        reader := acc.reader ++ healthyNames input .reader l
        discoveredReaderCount := acc.discoveredReaderCount + l.countP isReader
        disabledDiscoveredReaderCount :=
          acc.disabledDiscoveredReaderCount + l.countP (isDisabledReader input)
        enabledDiscoveredReaderCount := acc.enabledDiscoveredReaderCount +
          l.countP (fun o => isReader o && !isDisabledReader input o) } := by
  induction l generalizing acc with
  | nil => simp [healthyNames]
  | cons o l ih =>
    have hn : ∀ role, healthyNames input role (o :: l)
        = healthyNames input role [o] ++ healthyNames input role l := by
      intro role
      simp only [healthyNames, ← List.map_append, ← List.filter_append, List.singleton_append]
    have hc : ∀ p : InstanceObservation → Bool, (o :: l).countP p = [o].countP p + l.countP p := by
      intro p
      rw [← List.countP_append, List.singleton_append]
    rw [List.foldl_cons, ih, planObserved_eq]
    simp only [hn, hc, List.map_cons, List.append_assoc, List.singleton_append, Nat.add_assoc]

end Loop

/-! ## 7. The decision, in closed form -/

section Decision

variable (input : Input)

/-- The healthy instances of one role, sorted: `H_w` and `H_r`. -/
def healthyMembers (role : Role) : List String :=
  sortStrings (healthyNames input role input.discovered)

/-- All discovered readers are disabled, and there is at least one. -/
def fallbackSuppressed : Bool :=
  readersSuppressed (input.discovered.foldl (planObserved input) {})

/-- A name that may keep its membership although it was not discovered: it went missing less
than the threshold ago and is not disabled. -/
def retainable (name : String) : Bool :=
  input.missingInstances.any (fun missing => missing.instanceName = name && name ≠ "" &&
    missing.missingCount < missingThreshold input.resource) &&
  !instanceDisabled input.resource.spec.pgbouncer name

/-- The last applied writer. -/
abbrev lastWriter : List String := input.resource.status.lastAppliedMembership.writer

/-- The last applied readers. -/
abbrev lastReader : List String := input.resource.status.lastAppliedMembership.reader

/-- The writer decision: a single healthy writer wins; several are resolved by the last
applied one; none leaves the last applied writer in place while it may be retained. -/
def decidedWriter : List String :=
  let healthy := healthyMembers input .writer
  if healthy.length = 1 then healthy
  else if healthy.length > 1 then
    let previous := (lastWriter input).filter (stringSet healthy)
    if previous.length = 1 then previous else []
  else (lastWriter input).filter (retainable input)

/-- The readers that are there: the healthy ones and the missing ones that keep their
place. -/
def presentReaders : List String :=
  sortStrings (healthyMembers input .reader ++
    preservedMissingReaders input.resource (healthyMembers input .reader) input.missingInstances)

/-- The reader decision: the readers that are there, else the writer. -/
def decidedReader : List String :=
  if presentReaders input ≠ [] then presentReaders input
  else if fallbackSuppressed input then []
  else if readerEmptyFallbackEnabled input.resource then decidedWriter input
  else []

theorem missingMembership_eq_retainable (previous : List String) :
    filterEnabledInstances input.resource.spec.pgbouncer
      (previousMissingMembershipBeforeRemoveThreshold previous input.missingInstances
        (missingThreshold input.resource)) = previous.filter (retainable input) := by
  unfold filterEnabledInstances previousMissingMembershipBeforeRemoveThreshold
  rw [List.filter_filter]
  refine List.filter_congr ?_
  intro name _
  have hset : stringSet ((input.missingInstances.filter fun missing =>
        missing.instanceName ≠ "" && missing.missingCount < missingThreshold input.resource).map
          (·.instanceName)) name
      = input.missingInstances.any (fun missing => missing.instanceName = name && name ≠ "" &&
        missing.missingCount < missingThreshold input.resource) := by
    rw [Bool.eq_iff_iff, stringSet_iff, List.any_eq_true]
    constructor
    · intro h
      obtain ⟨m, hm, rfl⟩ := List.mem_map.mp h
      obtain ⟨hmem, hp⟩ := List.mem_filter.mp hm
      exact ⟨m, hmem, by simpa using hp⟩
    · rintro ⟨m, hmem, hp⟩
      simp only [decide_not, Bool.and_eq_true, decide_eq_true_eq, Bool.not_eq_true',
        decide_eq_false_iff_not] at hp
      obtain ⟨⟨rfl, hne⟩, hlt⟩ := hp
      exact List.mem_map.mpr ⟨m, List.mem_filter.mpr ⟨hmem, by simp [hne, hlt]⟩, rfl⟩
  rw [hset, Bool.and_comm]
  rfl

theorem mem_preservedMissingReaders {name : String} {current : List String} :
    name ∈ preservedMissingReaders input.resource current input.missingInstances ↔
      name ∈ lastReader input ∧ name ∉ current ∧ retainable input name = true := by
  unfold preservedMissingReaders retainable lastReader
  rw [List.mem_map]
  constructor
  · rintro ⟨m, hm, rfl⟩
    obtain ⟨hmem, hp⟩ := List.mem_filter.mp hm
    simp only [Bool.not_or, Bool.and_eq_true, Bool.not_eq_true', beq_eq_false_iff_ne, ne_eq,
      decide_eq_false_iff_not, Bool.not_not, stringSet_iff, ge_iff_le, Int32.not_le] at hp
    obtain ⟨⟨⟨⟨hne, hlt⟩, hlast⟩, hcur⟩, hen⟩ := hp
    refine ⟨hlast, ?_, ?_⟩
    · intro hc
      rw [← stringSet_iff, hcur] at hc
      exact absurd hc (by simp)
    · rw [Bool.and_eq_true]
      refine ⟨List.any_eq_true.mpr ⟨m, hmem, by simp [hne, hlt]⟩, by simp [hen]⟩
  · rintro ⟨hlast, hcur, hret⟩
    rw [Bool.and_eq_true, List.any_eq_true] at hret
    obtain ⟨⟨m, hmem, hm⟩, hen⟩ := hret
    simp only [decide_not, Bool.and_eq_true, decide_eq_true_eq, Bool.not_eq_true',
      decide_eq_false_iff_not] at hm hen
    obtain ⟨⟨rfl, hne⟩, hlt⟩ := hm
    refine ⟨m, List.mem_filter.mpr ⟨hmem, ?_⟩, rfl⟩
    have hcur' : stringSet current m.instanceName = false := by
      rw [← Bool.not_eq_true, stringSet_iff]; exact hcur
    simp [hne, hlt, hlast, hcur', hen, Int32.not_le]

theorem mem_presentReaders {name : String} :
    name ∈ presentReaders input ↔ name ∈ healthyMembers input .reader ∨
      (name ∈ lastReader input ∧ retainable input name = true) := by
  unfold presentReaders
  rw [mem_sortStrings, List.mem_append, mem_preservedMissingReaders]
  by_cases h : name ∈ healthyMembers input .reader
  · simp [h]
  · simp [h]

/-- With no reader there, no last applied reader may be retained either: the last arm of
`stabilizeReaderMembership` never adds anything. -/
theorem retained_readers_eq_nil (h : presentReaders input = []) :
    (lastReader input).filter (retainable input) = [] := by
  rw [List.filter_eq_nil_iff]
  intro name hlast hret
  have : name ∈ presentReaders input := (mem_presentReaders input).mpr (Or.inr ⟨hlast, hret⟩)
  rw [h] at this
  exact absurd this (by simp)

/-- The plan between the loop and the corrections, with the loop evaluated. -/
theorem observedPlan_membership :
    (observedPlan input).membership
      = ⟨healthyMembers input .writer, healthyMembers input .reader⟩ := by
  simp only [observedPlan, tally_eq, List.nil_append, healthyMembers]

theorem stabilizeWriter_writer :
    (stabilizeWriterMembership input.resource (observedPlan input)
      input.missingInstances).membership.writer = decidedWriter input := by
  have hw : (observedPlan input).membership.writer = healthyMembers input .writer := by
    rw [observedPlan_membership]
  have hmiss := missingMembership_eq_retainable input
    input.resource.status.lastAppliedMembership.writer
  unfold stabilizeWriterMembership decidedWriter
  simp only [hw, previousCurrentMembership, previousMissingWriterBeforeRemoveThreshold, hmiss]
  split
  · exact hw
  · split
    · split <;> rfl
    · split
      · rfl
      · rename_i h1 h2 h3
        rw [hw, List.eq_nil_of_length_eq_zero (by omega : (healthyMembers input .writer).length = 0),
          List.eq_nil_of_length_eq_zero (Nat.eq_zero_of_not_pos h3)]

/-- The writer correction touches only the writer and the reasons. -/
theorem stabilizeWriter_frame (resource : PgBouncerAurora) (out : Output)
    (missing : List MissingInstanceStatus) :
    (stabilizeWriterMembership resource out missing).membership.reader = out.membership.reader ∧
    (stabilizeWriterMembership resource out missing).instances = out.instances ∧
    (stabilizeWriterMembership resource out missing).frozen = out.frozen ∧
    (stabilizeWriterMembership resource out missing).readerFallbackSuppressed
      = out.readerFallbackSuppressed := by
  unfold stabilizeWriterMembership
  split
  · exact ⟨rfl, rfl, rfl, rfl⟩
  · split
    · dsimp only; split <;> exact ⟨rfl, rfl, rfl, rfl⟩
    · dsimp only; split <;> exact ⟨rfl, rfl, rfl, rfl⟩

/-- Appending the reasons, one a preserved reader, changes nothing else. -/
theorem foldl_addReason (reason : String) (l : List String) (out : Output) :
    l.foldl (fun out _ => out.addReason reason) out
      = { out with reasons := out.reasons ++ l.map fun _ => reason } := by
  induction l generalizing out with
  | nil => simp
  | cons x l ih => rw [List.foldl_cons, ih]; simp [Output.addReason]

theorem preserveMissingReader_frame (resource : PgBouncerAurora) (out : Output)
    (missing : List MissingInstanceStatus) :
    (preserveMissingReaderMembership resource out missing).membership.writer
      = out.membership.writer ∧
    (preserveMissingReaderMembership resource out missing).instances = out.instances ∧
    (preserveMissingReaderMembership resource out missing).frozen = out.frozen ∧
    (preserveMissingReaderMembership resource out missing).readerFallbackSuppressed
      = out.readerFallbackSuppressed := by
  unfold preserveMissingReaderMembership
  split
  · exact ⟨rfl, rfl, rfl, rfl⟩
  · simp only [foldl_addReason]
    exact ⟨rfl, rfl, rfl, rfl⟩

theorem healthyMembers_sorted (role : Role) :
    sortStrings (healthyMembers input role) = healthyMembers input role :=
  List.Pairwise.insertionSort_eq (sortStrings_pairwise _)

theorem preserveMissingReader_reader {out : Output}
    (hr : out.membership.reader = healthyMembers input .reader) :
    (preserveMissingReaderMembership input.resource out input.missingInstances).membership.reader
      = presentReaders input := by
  unfold preserveMissingReaderMembership
  split
  · rename_i h
    -- nothing is missing, or nothing was a reader before: nothing can be preserved
    have hnil : preservedMissingReaders input.resource (healthyMembers input .reader)
        input.missingInstances = [] := by
      rw [List.eq_nil_iff_forall_not_mem]
      intro name hname
      obtain ⟨hlast, -, hret⟩ := (mem_preservedMissingReaders input).mp hname
      rw [Bool.or_eq_true, decide_eq_true_eq, decide_eq_true_eq] at h
      rcases h with h | h
      · simp [retainable, List.eq_nil_of_length_eq_zero h] at hret
      · rw [lastReader, List.eq_nil_of_length_eq_zero h] at hlast
        exact absurd hlast (by simp)
    rw [presentReaders, hnil, List.append_nil, healthyMembers_sorted, hr]
  · simp only [foldl_addReason, Output.setReader]
    rw [hr]
    rfl

/-- The reader correction touches only the readers and the reasons. -/
theorem stabilizeReader_frame (resource : PgBouncerAurora) (out : Output)
    (missing : List MissingInstanceStatus) :
    (stabilizeReaderMembership resource out missing).membership.writer = out.membership.writer ∧
    (stabilizeReaderMembership resource out missing).instances = out.instances ∧
    (stabilizeReaderMembership resource out missing).frozen = out.frozen ∧
    (stabilizeReaderMembership resource out missing).readerFallbackSuppressed
      = out.readerFallbackSuppressed := by
  unfold stabilizeReaderMembership
  split
  · exact ⟨rfl, rfl, rfl, rfl⟩
  · split
    · exact ⟨rfl, rfl, rfl, rfl⟩
    · split
      · exact ⟨rfl, rfl, rfl, rfl⟩
      · dsimp only; split <;> exact ⟨rfl, rfl, rfl, rfl⟩

theorem stabilizeReader_reader {out : Output} (hw : out.membership.writer = decidedWriter input)
    (hr : out.membership.reader = presentReaders input)
    (hs : out.readerFallbackSuppressed = fallbackSuppressed input) :
    (stabilizeReaderMembership input.resource out input.missingInstances).membership.reader
      = decidedReader input := by
  have hret := missingMembership_eq_retainable input
    input.resource.status.lastAppliedMembership.reader
  unfold stabilizeReaderMembership decidedReader
  rw [hr, hs, hw]
  by_cases hpres : presentReaders input = []
  · have hnil := retained_readers_eq_nil input hpres
    simp only [lastReader] at hnil
    simp only [previousMissingReaderBeforeRemoveThreshold, hret, hnil, hpres, List.length_nil,
      gt_iff_lt, lt_self_iff_false, if_false, ne_eq, not_true_eq_false]
    by_cases hsup : fallbackSuppressed input = true
    · simp [hsup, Output.addReason, hr, hpres]
    · by_cases hfb : readerEmptyFallbackEnabled input.resource = true
      · cases hdw : decidedWriter input with
        | nil => simp [hsup, hfb, hr, hpres]
        | cons x l => simp [hsup, hfb, Output.setReader, Output.addReason]
      · simp [hsup, hfb, hr, hpres]
  · have hlen : (presentReaders input).length > 0 := List.length_pos_iff.mpr hpres
    rw [if_pos hlen, if_pos hpres]
    exact hr

variable {input}

/-- A plan over a trusted discovery, field by field. -/
theorem plan_trusted (h : input.discoveryTrusted = true) :
    (plan input).membership = ⟨decidedWriter input, decidedReader input⟩ ∧
    (plan input).instances = sortInstancePlans (input.discovered.map (planEntry input)) ∧
    (plan input).frozen = false ∧
    (plan input).readerFallbackSuppressed = fallbackSuppressed input := by
  simp only [plan, h, Bool.not_true, if_false, Bool.false_eq_true]
  set out₁ := stabilizeWriterMembership input.resource (observedPlan input)
    input.missingInstances with hout₁
  set out₂ := preserveMissingReaderMembership input.resource out₁ input.missingInstances
    with hout₂
  obtain ⟨f1r, f1i, f1f, f1s⟩ :=
    stabilizeWriter_frame input.resource (observedPlan input) input.missingInstances
  obtain ⟨f2w, f2i, f2f, f2s⟩ :=
    preserveMissingReader_frame input.resource out₁ input.missingInstances
  obtain ⟨f3w, f3i, f3f, f3s⟩ :=
    stabilizeReader_frame input.resource out₂ input.missingInstances
  have hw : out₂.membership.writer = decidedWriter input :=
    f2w.trans (stabilizeWriter_writer input)
  have hr₁ : out₁.membership.reader = healthyMembers input .reader := by
    rw [f1r, observedPlan_membership]
  have hr₂ : out₂.membership.reader = presentReaders input :=
    preserveMissingReader_reader input hr₁
  have hs : out₂.readerFallbackSuppressed = fallbackSuppressed input := f2s.trans f1s
  refine ⟨?_, ?_, ?_, f3s.trans hs⟩
  · have hr := stabilizeReader_reader input hw hr₂ hs
    rw [← hr, ← f3w.trans hw]
  · rw [f3i, f2i, f1i]
    simp [observedPlan, tally_eq]
  · rw [f3f, f2f, f1f]
    rfl

theorem plan_membership_writer (h : input.discoveryTrusted = true) :
    (plan input).membership.writer = decidedWriter input := by
  rw [(plan_trusted h).1]

theorem plan_membership_reader (h : input.discoveryTrusted = true) :
    (plan input).membership.reader = decidedReader input := by
  rw [(plan_trusted h).1]

theorem plan_not_frozen (h : input.discoveryTrusted = true) : (plan input).frozen = false :=
  (plan_trusted h).2.2.1

/-- Untrusted discovery freezes the plan, and only that does. -/
theorem plan_frozen_iff : (plan input).frozen = true ↔ input.discoveryTrusted = false := by
  cases h : input.discoveryTrusted with
  | false => simp [plan, h, frozenPlan]
  | true => simp [plan_not_frozen h]

end Decision

end Planner

end AuroraOperator

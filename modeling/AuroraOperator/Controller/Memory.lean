/-
# What the status remembers of discovery

A discovery result lives on in the status: as the last known topology, which later jobs use
in place of a fresh result (`cachedDiscovery`, `discoveryAfterFailureThreshold`), and as the
list of instances that were there once and are not any more (`missingInstancesFor`).

The missing list is rebuilt from two sources at every discovery: the list itself and the last
topology.  Section 4 describes the result entry by entry.
-/
import AuroraOperator.Controller.Conditions

namespace AuroraOperator

namespace Controller

open Planner Render

/-! ## 1. Intervals -/

def defaultDiscoveryInterval : Int := 3 * second
def defaultMonitorInterval : Int := 10 * second
def minCheckInterval : Int := second

def boundedCheckInterval (value fallback : Int) : Int :=
  let value := if value ≤ 0 then fallback else value
  if value < minCheckInterval then minCheckInterval else value

def discoveryInterval (resource : PgBouncerAurora) : Int :=
  boundedCheckInterval resource.spec.discovery.interval defaultDiscoveryInterval

def monitorInterval (resource : PgBouncerAurora) : Int :=
  boundedCheckInterval resource.spec.monitor.interval defaultMonitorInterval

/-- `now.Sub(last) >= interval`, or nothing to subtract.  The source's subtraction saturates,
which no comparison with a duration can see. -/
def intervalPassed (last : Option Int) (interval now : Int) : Bool :=
  match last with
  | none => true
  | some t => now - t ≥ interval

def discoveryDue (resource : PgBouncerAurora) (now : Int) : Bool :=
  resource.generation ≠ resource.status.observedGeneration ||
    intervalPassed resource.status.lastDiscoveryTime (discoveryInterval resource) now

def monitorDue (resource : PgBouncerAurora) (now : Int) : Bool :=
  resource.generation ≠ resource.status.observedGeneration ||
    resource.status.instances.length = 0 ||
    intervalPassed resource.status.lastMonitorTime (monitorInterval resource) now

/-! ## 2. The cached topology -/

def topologyStatus (instances : List InstanceObservation) : List InstanceTopologyStatus :=
  instances.map fun o =>
    { instanceName := o.name, endpoint := o.endpoint, port := o.port, role := o.role
      availabilityZone := o.availabilityZone, dbiResourceId := o.dbiResourceId }

def topologyObservations (statuses : List InstanceTopologyStatus) : List InstanceObservation :=
  statuses.map fun s =>
    { name := s.instanceName, endpoint := s.endpoint, port := s.port, role := s.role
      availabilityZone := s.availabilityZone, dbiResourceId := s.dbiResourceId }

@[simp] theorem topologyObservations_topologyStatus (instances : List InstanceObservation) :
    topologyObservations (topologyStatus instances) = instances := by
  rw [topologyObservations, topologyStatus, List.map_map]
  exact List.map_id _

@[simp] theorem topologyStatus_topologyObservations (statuses : List InstanceTopologyStatus) :
    topologyStatus (topologyObservations statuses) = statuses := by
  rw [topologyObservations, topologyStatus, List.map_map]
  exact List.map_id _

@[simp] theorem map_name_topologyObservations (statuses : List InstanceTopologyStatus) :
    (topologyObservations statuses).map (·.name) = statuses.map (·.instanceName) := by
  simp [topologyObservations]

def cachedDiscovery (resource : PgBouncerAurora) : DiscoveryResult :=
  if !lastDiscoveryTrusted resource || resource.status.lastKnownTopology.length = 0 then
    { trusted := false, reason := lastDiscoveryMessage resource }
  else
    { trusted := true
      instances := topologyObservations resource.status.lastKnownTopology
      reason := lastDiscoveryMessage resource }

theorem cachedDiscovery_trusted_iff {resource : PgBouncerAurora} :
    (cachedDiscovery resource).trusted = true ↔
      lastDiscoveryTrusted resource = true ∧ resource.status.lastKnownTopology ≠ [] := by
  unfold cachedDiscovery
  split
  · rename_i h
    rw [Bool.or_eq_true, Bool.not_eq_true', decide_eq_true_eq, List.length_eq_zero_iff] at h
    refine iff_of_false (by simp) ?_
    rintro ⟨h₁, h₂⟩
    rcases h with h | h
    · rw [h₁] at h; cases h
    · exact h₂ h
  · rename_i h
    refine iff_of_true rfl ?_
    simp only [Bool.or_eq_true, Bool.not_eq_true', decide_eq_true_eq, List.length_eq_zero_iff,
      not_or, Bool.not_eq_false] at h
    exact h

theorem cachedDiscovery_instances {resource : PgBouncerAurora}
    (h : (cachedDiscovery resource).trusted = true) :
    (cachedDiscovery resource).instances
      = topologyObservations resource.status.lastKnownTopology := by
  unfold cachedDiscovery at h ⊢
  split
  · rename_i hc
    rw [if_pos hc] at h
    cases h
  · rfl

def discoveryFailureThreshold (resource : PgBouncerAurora) : Int32 :=
  defaultInt32 resource.spec.discovery.failureThreshold 3

/-- A failed discovery is replaced by the cached topology while it counts as transient. -/
def discoveryAfterFailureThreshold (resource : PgBouncerAurora) (failed : DiscoveryResult) :
    DiscoveryResult :=
  let failures := resource.status.consecutiveDiscoveryFailures + 1
  let threshold := discoveryFailureThreshold resource
  if failures ≥ threshold || !lastDiscoveryTrusted resource ||
      resource.status.lastKnownTopology.length = 0 then failed
  else
    let reason := "using cached discovery after transient failure"
    { trusted := true
      instances := topologyObservations resource.status.lastKnownTopology
      reason := if failed.reason ≠ "" then
        reason ++ " " ++ toString failures ++ "/" ++ toString threshold ++ ": " ++ failed.reason
      else reason }

/-- After an untrusted verdict a failure is never papered over. -/
theorem discoveryAfterFailureThreshold_untrusted {resource : PgBouncerAurora}
    (h : lastDiscoveryTrusted resource = false) (failed : DiscoveryResult) :
    discoveryAfterFailureThreshold resource failed = failed := by
  simp [discoveryAfterFailureThreshold, h]

/-- The substitute is the failure itself or the cached topology. -/
theorem discoveryAfterFailureThreshold_cases (resource : PgBouncerAurora)
    (failed : DiscoveryResult) :
    discoveryAfterFailureThreshold resource failed = failed ∨
      ((discoveryAfterFailureThreshold resource failed).instances
        = topologyObservations resource.status.lastKnownTopology ∧
        resource.status.lastKnownTopology ≠ []) := by
  unfold discoveryAfterFailureThreshold
  dsimp only
  split
  · exact Or.inl rfl
  · rename_i h
    simp only [Bool.or_eq_true, decide_eq_true_eq, List.length_eq_zero_iff, not_or] at h
    exact Or.inr ⟨rfl, h.2⟩

/-! ## 3. Missing instances -/

/-- `discoveredInstanceSet`, as its characteristic function. -/
def discoveredInstanceSet (instances : List InstanceObservation) (name : String) : Bool :=
  name ≠ "" && instances.any (·.name = name)

/-- The stored entry of a name that is still missing; the last one of a name wins. -/
def existingMissing (resource : PgBouncerAurora) (current : String → Bool) (name : String) :
    Option MissingInstanceStatus :=
  (resource.status.missingInstances.filter fun missing =>
    !(missing.instanceName = "" || current missing.instanceName)).reverse.find?
      (·.instanceName = name)

/-- The names that are missing now: still, or since the last topology. -/
def missingCandidates (resource : PgBouncerAurora) (current : String → Bool) : List String :=
  (resource.status.missingInstances.map (·.instanceName) ++
    resource.status.lastKnownTopology.map (·.instanceName)).filter fun name =>
      !(name = "" || current name)

/-- One more discovery without the instance. -/
def countMissing (item : Option MissingInstanceStatus) (name : String) (now : Int) :
    MissingInstanceStatus :=
  let item := item.getD { instanceName := name }
  { instanceName := name
    missingCount := item.missingCount + 1
    firstMissingTime := some (item.firstMissingTime.getD now)
    lastMissingTime := some now }

def missingInstancesFor (resource : PgBouncerAurora) (discovery : DiscoveryResult)
    (discoveryRan : Bool) (now : Int) : List MissingInstanceStatus :=
  if !discovery.trusted || !discoveryRan then resource.status.missingInstances
  else
    let current := discoveredInstanceSet discovery.instances
    (sortStrings (missingCandidates resource current).dedup).map fun name =>
      countMissing (existingMissing resource current name) name now

def removeAfterMissingCount (resource : PgBouncerAurora) : Int32 :=
  defaultInt32 resource.spec.topologyPolicy.removeAfterMissingCount 3

def removedInstanceRetention (resource : PgBouncerAurora) : Int :=
  if resource.spec.topologyPolicy.removedInstanceRetention > 0 then
    resource.spec.topologyPolicy.removedInstanceRetention
  else 3600 * second

def removedInstanceReadyForDelete (resource : PgBouncerAurora) (missing : MissingInstanceStatus)
    (now : Int) : Bool :=
  if missing.instanceName = "" || missing.missingCount < removeAfterMissingCount resource then false
  else match missing.firstMissingTime with
    | none => false
    | some first => now - first ≥ removedInstanceRetention resource

def removedInstanceDeletionDue (resource : PgBouncerAurora)
    (missingInstances : List MissingInstanceStatus) (now : Int) : Bool :=
  missingInstances.any (removedInstanceReadyForDelete resource · now)

/-! ## 4. The rebuilt list, entry by entry -/

section Rebuild

variable {resource : PgBouncerAurora} {discovery : DiscoveryResult} {now : Int}

theorem missingInstancesFor_trusted (h : discovery.trusted = true) :
    missingInstancesFor resource discovery true now =
      (sortStrings (missingCandidates resource
        (discoveredInstanceSet discovery.instances)).dedup).map fun name =>
        countMissing (existingMissing resource (discoveredInstanceSet discovery.instances) name)
          name now := by
  simp [missingInstancesFor, h]

theorem missingInstancesFor_names (h : discovery.trusted = true) :
    (missingInstancesFor resource discovery true now).map (·.instanceName) =
      sortStrings (missingCandidates resource
        (discoveredInstanceSet discovery.instances)).dedup := by
  rw [missingInstancesFor_trusted h, List.map_map]
  exact List.map_id _

/-- The names of the rebuilt list, without the order. -/
theorem mem_missingInstancesFor_names (h : discovery.trusted = true) {name : String} :
    name ∈ (missingInstancesFor resource discovery true now).map (·.instanceName) ↔
      name ≠ "" ∧ name ∉ discovery.instances.map (·.name) ∧
      (name ∈ resource.status.missingInstances.map (·.instanceName) ∨
        name ∈ resource.status.lastKnownTopology.map (·.instanceName)) := by
  rw [missingInstancesFor_names h, mem_sortStrings, List.mem_dedup, missingCandidates,
    List.mem_filter, List.mem_append]
  have hcur : ∀ hne : name ≠ "", discoveredInstanceSet discovery.instances name = true ↔
      name ∈ discovery.instances.map (·.name) := by
    intro hne
    simp [discoveredInstanceSet, hne]
  constructor
  · rintro ⟨hmem, hp⟩
    simp only [Bool.not_or, Bool.and_eq_true, Bool.not_eq_true', decide_eq_false_iff_not] at hp
    refine ⟨hp.1, fun hin => ?_, hmem⟩
    rw [← hcur hp.1, hp.2] at hin
    cases hin
  · rintro ⟨hne, hnot, hmem⟩
    refine ⟨hmem, ?_⟩
    simp only [Bool.not_or, Bool.and_eq_true, Bool.not_eq_true', decide_eq_false_iff_not]
    refine ⟨hne, ?_⟩
    rw [← Bool.not_eq_true, hcur hne]
    exact hnot

/-- The rebuilt list is sorted by name, and strictly so. -/
theorem missingInstancesFor_sorted (h : discovery.trusted = true) :
    ((missingInstancesFor resource discovery true now).map (·.instanceName)).Pairwise (· < ·) := by
  rw [missingInstancesFor_names h]
  have hle := sortStrings_pairwise
    (missingCandidates resource (discoveredInstanceSet discovery.instances)).dedup
  have hne := sortStrings_nodup.mpr (List.nodup_dedup
    (missingCandidates resource (discoveredInstanceSet discovery.instances)))
  exact (hle.and hne).imp fun h => lt_of_le_of_ne h.1 h.2

/-- An entry of the rebuilt list counts one more miss than the stored entry of its name. -/
theorem mem_missingInstancesFor (h : discovery.trusted = true) {m : MissingInstanceStatus}
    (hm : m ∈ missingInstancesFor resource discovery true now) :
    m = countMissing (existingMissing resource (discoveredInstanceSet discovery.instances)
      m.instanceName) m.instanceName now := by
  rw [missingInstancesFor_trusted h] at hm
  obtain ⟨name, -, rfl⟩ := List.mem_map.mp hm
  rfl

/-- With distinct names, the stored entry of a missing name is the one with that name. -/
theorem existingMissing_of_mem {current : String → Bool} {m : MissingInstanceStatus}
    (hnodup : (resource.status.missingInstances.map (·.instanceName)).Nodup)
    (hm : m ∈ resource.status.missingInstances) (hne : m.instanceName ≠ "")
    (hcur : current m.instanceName = false) :
    existingMissing resource current m.instanceName = some m := by
  unfold existingMissing
  have hmem : m ∈ (resource.status.missingInstances.filter fun missing =>
      !(missing.instanceName = "" || current missing.instanceName)).reverse := by
    rw [List.mem_reverse, List.mem_filter]
    exact ⟨hm, by simp [hne, hcur]⟩
  cases hf : (resource.status.missingInstances.filter fun missing =>
      !(missing.instanceName = "" || current missing.instanceName)).reverse.find?
        (·.instanceName = m.instanceName) with
  | none =>
    have := List.find?_eq_none.mp hf m hmem
    simp at this
  | some m' =>
    have hname : m'.instanceName = m.instanceName := by simpa using List.find?_some hf
    have hm' : m' ∈ resource.status.missingInstances := by
      have := List.mem_of_find?_eq_some hf
      rw [List.mem_reverse, List.mem_filter] at this
      exact this.1
    rw [List.inj_on_of_nodup_map hnodup hm' hm hname]

/-- A name with no stored entry starts from nothing. -/
theorem existingMissing_of_not_mem {current : String → Bool} {name : String}
    (h : name ∉ resource.status.missingInstances.map (·.instanceName)) :
    existingMissing resource current name = none := by
  unfold existingMissing
  rw [List.find?_eq_none]
  intro m hm
  rw [List.mem_reverse, List.mem_filter] at hm
  have : m.instanceName ≠ name := fun heq => h (List.mem_map.mpr ⟨m, hm.1, heq⟩)
  simpa using this

end Rebuild

end Controller

end AuroraOperator

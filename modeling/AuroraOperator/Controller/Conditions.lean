/-
# Conditions

The condition list of the status.  Two functions write it: `conditionsFor` rebuilds all
thirteen conditions from a plan, and `discoveryOnlyConditions` replaces the first one alone.
One reader matters for everything else: `lastDiscoveryTrusted`, the verdict on which a
Reconcile decides whether it may act.  Section 4 says what each writer makes of it.
-/
import AuroraOperator.Controller.FinalPlan

namespace AuroraOperator

namespace Controller

open Planner Render

/-! ## 1. The verdicts -/

/-- The last entry of a name: the source indexes the entries by name. -/
def planByName (instances : List InstancePlan) (name : String) : Option InstancePlan :=
  instances.reverse.find? (·.name = name)

def trafficTransitionCondition (plan : Output) : Verdict :=
  let members := plan.membership.writer ++ plan.membership.reader
  let pending := (activePlanInstances plan.instances).filter fun entry =>
    !(stringSet members entry.name || (entry.healthy && entry.readyReplicas > 0))
  let texts := pending.map fun entry =>
    entry.name ++ ":" ++ (if entry.reason = "" then "waiting for health/readiness" else entry.reason)
  if texts.length > 0 then
    ⟨.true, "TrafficTransitioning", "pendingMembership=" ++ joinStrings (sortStrings texts) ","⟩
  else ⟨.false, "TrafficStable", ""⟩

def backendHealthyCondition (plan : Output) : Verdict :=
  let instances := activePlanInstances plan.instances
  if instances.length = 0 then ⟨.false, "NoBackends", "no backend instances"⟩
  else
    let unhealthy := (instances.filter (!·.healthy)).map fun entry =>
      if entry.reason ≠ "" then entry.name ++ ": " ++ entry.reason else entry.name
    if unhealthy.length > 0 then ⟨.false, "BackendUnhealthy", joinStrings unhealthy "; "⟩
    else ⟨.true, "AllBackendsHealthy", ""⟩

/-- The capitalised role in the reasons of `roleReadyCondition`. -/
def roleTitle : Role → String
  | .writer => "Writer"
  | .reader => "Reader"

def membersOf (membership : MembershipStatus) : Role → List String
  | .writer => membership.writer
  | .reader => membership.reader

def roleReadyCondition (plan : Output) (role : Role) : Verdict :=
  let members := membersOf plan.membership role
  if members.length = 0 then
    if role = .reader ∧ plan.readerFallbackSuppressed = true then
      ⟨.false, "ReaderMembersDisabledByOverride", plan.readerFallbackSuppressedReason⟩
    else ⟨.false, "No" ++ roleTitle role ++ "Members", ""⟩
  else
    let entryOf := planByName (activePlanInstances plan.instances)
    if members.any fun member => (entryOf member).any (·.readyReplicas > 0) then
      ⟨.true, roleTitle role ++ "Ready", ""⟩
    else
      let notReady := members.map fun member =>
        match entryOf member with
        | some entry => member ++ " readyReplicas=" ++ toString entry.readyReplicas
        | none => member ++ " missing from plan"
      ⟨.false, roleTitle role ++ "PodsNotReady", joinStrings notReady "; "⟩

def roleMismatchMessage (plan : Output) : String :=
  let mismatched := (activePlanInstances plan.instances).filter fun entry =>
    containsText entry.reason "role mismatch"
  joinStrings (mismatched.map fun entry => entry.name ++ ": " ++ entry.reason) "; "

def readerFallbackFromWriter (plan : Output) : Bool :=
  plan.membership.reader.any fun member =>
    (planByName (activePlanInstances plan.instances) member).any (·.role = .writer)

def degradedPlanReasons (planReasons : List String) : List String :=
  planReasons.filter (· ≠ "reader fallback to writer")

/-- A reason of the `Degraded` condition, with its detail when there is one. -/
def detailed (reason detail : String) : String :=
  if detail ≠ "" then reason ++ ": " ++ detail else reason

def degradedCondition (discovery : DiscoveryResult) (plan : Output) (monitorErr : String)
    (backendHealthy writerReady readerReady : Verdict) (roleMismatch : String) : Verdict :=
  let reasons :=
    (if !discovery.trusted then [detailed "discovery untrusted" discovery.reason] else []) ++
    (if monitorErr ≠ "" then ["monitor failed: " ++ monitorErr] else []) ++
    (if plan.frozen then ["plan frozen"] else []) ++
    (if backendHealthy.status ≠ .true then
      [detailed "backend unhealthy" backendHealthy.message] else []) ++
    (if writerReady.status ≠ .true then [detailed "writer not ready" writerReady.message] else []) ++
    (if readerReady.status ≠ .true then [detailed "reader not ready" readerReady.message] else []) ++
    (if roleMismatch ≠ "" then ["role mismatch: " ++ roleMismatch] else []) ++
    degradedPlanReasons plan.reasons
  if reasons.length = 0 then ⟨.false, "Healthy", ""⟩
  else ⟨.true, "Degraded", joinStrings reasons "; "⟩

/-! ## 2. The writers -/

def conditionWithTransition (previous : List Condition) (type : ConditionType)
    (verdict : Verdict) (now : Int) : Condition :=
  let fresh : Condition :=
    { type := type, status := verdict.status, reason := verdict.reason, message := verdict.message
      lastTransitionTime := now }
  match previous.find? (·.type = type) with
  | none => fresh
  | some old =>
    if old.status = verdict.status ∧ old.reason = verdict.reason ∧ old.message = verdict.message then
      { fresh with lastTransitionTime := old.lastTransitionTime }
    else fresh

/-- A condition that is true or false by a test, with a reason for each. -/
def flag (test : Bool) (whenTrue whenFalse message : String) : Verdict :=
  if test then ⟨.true, whenTrue, message⟩ else ⟨.false, whenFalse, message⟩

def conditionsFor (resource : PgBouncerAurora) (previous : List Condition)
    (discovery : DiscoveryResult) (plan : Output) (monitorErr : String) (now : Int) :
    List Condition :=
  let backendHealthy := backendHealthyCondition plan
  let writerReady := roleReadyCondition plan .writer
  let readerReady := roleReadyCondition plan .reader
  let fallbackReason :=
    if plan.readerFallbackSuppressed then "SuppressedByDisabledReaders" else "ReaderNormal"
  let roleMismatch := roleMismatchMessage plan
  let set := fun type verdict => conditionWithTransition previous type verdict now
  [set .discoveryTrusted
      (flag discovery.trusted "DiscoveryTrusted" "DiscoveryUntrusted" discovery.reason),
    set .monitorSucceeded (flag (monitorErr = "") "MonitorSucceeded" "MonitorFailed" monitorErr),
    set .reconciled (flag (!plan.frozen) "Applied" "Frozen" ""),
    set .frozen (flag plan.frozen "Frozen" "NotFrozen" (joinStrings plan.reasons "; ")),
    set .backendHealthy backendHealthy,
    set .writerReady writerReady,
    set .readerReady readerReady,
    set .readerFallback
      (flag (readerFallbackFromWriter plan) "FallbackFromWriter" fallbackReason ""),
    set .readerFallbackSuppressed (flag plan.readerFallbackSuppressed
      plan.readerFallbackSuppressedReason "NotSuppressed" ""),
    set .roleMismatch (flag (roleMismatch ≠ "") "RoleMismatch" "NoRoleMismatch" roleMismatch),
    set .trafficTransitioning (trafficTransitionCondition plan),
    set .zoneAwareConflict (zoneAwareConflictCondition resource plan),
    set .degraded (degradedCondition discovery plan monitorErr backendHealthy writerReady
      readerReady roleMismatch) ]

/-- The verdicts of `conditionsFor`, apart from the times. -/
def verdictsFor (resource : PgBouncerAurora) (discovery : DiscoveryResult) (plan : Output)
    (monitorErr : String) : List (ConditionType × Verdict) :=
  let fallbackReason :=
    if plan.readerFallbackSuppressed then "SuppressedByDisabledReaders" else "ReaderNormal"
  let roleMismatch := roleMismatchMessage plan
  [ (.discoveryTrusted,
      flag discovery.trusted "DiscoveryTrusted" "DiscoveryUntrusted" discovery.reason),
    (.monitorSucceeded, flag (monitorErr = "") "MonitorSucceeded" "MonitorFailed" monitorErr),
    (.reconciled, flag (!plan.frozen) "Applied" "Frozen" ""),
    (.frozen, flag plan.frozen "Frozen" "NotFrozen" (joinStrings plan.reasons "; ")),
    (.backendHealthy, backendHealthyCondition plan),
    (.writerReady, roleReadyCondition plan .writer),
    (.readerReady, roleReadyCondition plan .reader),
    (.readerFallback,
      flag (readerFallbackFromWriter plan) "FallbackFromWriter" fallbackReason ""),
    (.readerFallbackSuppressed, flag plan.readerFallbackSuppressed
      plan.readerFallbackSuppressedReason "NotSuppressed" ""),
    (.roleMismatch, flag (roleMismatch ≠ "") "RoleMismatch" "NoRoleMismatch" roleMismatch),
    (.trafficTransitioning, trafficTransitionCondition plan),
    (.zoneAwareConflict, zoneAwareConflictCondition resource plan),
    (.degraded, degradedCondition discovery plan monitorErr (backendHealthyCondition plan)
      (roleReadyCondition plan .writer) (roleReadyCondition plan .reader) roleMismatch) ]

/-- Replace the first condition of a type, or append it. -/
def replaceCondition (condition : Condition) : List Condition → List Condition
  | [] => [condition]
  | old :: rest =>
    if old.type = condition.type then condition :: rest
    else old :: replaceCondition condition rest

def discoveryOnlyConditions (previous : List Condition) (discovery : DiscoveryResult)
    (discoveryFailed : Bool) (now : Int) : List Condition :=
  let whenFalse := if discoveryFailed then "DiscoveryFailed" else "DiscoveryUntrusted"
  replaceCondition (conditionWithTransition previous .discoveryTrusted
    (flag discovery.trusted "DiscoveryTrusted" whenFalse discovery.reason) now) previous

/-! ## 3. The readers -/

/-- The verdict stored by whoever wrote the condition last; no condition counts as
untrusted. -/
def discoveryVerdict (conditions : List Condition) : Bool :=
  match conditions.find? (·.type = .discoveryTrusted) with
  | none => false
  | some condition => condition.status = .true

def lastDiscoveryTrusted (resource : PgBouncerAurora) : Bool :=
  discoveryVerdict resource.status.conditions

def lastDiscoveryMessage (resource : PgBouncerAurora) : String :=
  match resource.status.conditions.find? fun c => c.type = .discoveryTrusted && c.message ≠ "" with
  | none => "using cached discovery"
  | some condition => condition.message

/-! ## 4. The verdict after each writer -/

@[simp] theorem conditionWithTransition_type (previous : List Condition) (type : ConditionType)
    (verdict : Verdict) (now : Int) :
    (conditionWithTransition previous type verdict now).type = type := by
  unfold conditionWithTransition
  dsimp only
  split
  · rfl
  · split <;> rfl

@[simp] theorem conditionWithTransition_status (previous : List Condition) (type : ConditionType)
    (verdict : Verdict) (now : Int) :
    (conditionWithTransition previous type verdict now).status = verdict.status := by
  unfold conditionWithTransition
  dsimp only
  split
  · rfl
  · split <;> rfl

theorem flag_status (test : Bool) (whenTrue whenFalse message : String) :
    (flag test whenTrue whenFalse message).status = if test then .true else .false := by
  unfold flag
  split <;> rfl

section Verdicts

variable (resource : PgBouncerAurora) (previous : List Condition) (discovery : DiscoveryResult)
  (plan : Output) (monitorErr : String) (now : Int)

theorem conditionsFor_eq :
    conditionsFor resource previous discovery plan monitorErr now
      = (verdictsFor resource discovery plan monitorErr).map fun entry =>
          conditionWithTransition previous entry.1 entry.2 now := rfl

theorem nodup_verdictTypes :
    ((verdictsFor resource discovery plan monitorErr).map (·.1)).Nodup := by
  simp [verdictsFor]

variable {resource discovery plan monitorErr}

/-- Each type has one verdict, and `conditionsFor` writes that. -/
theorem find?_conditionsFor {type : ConditionType} {verdict : Verdict}
    (h : (type, verdict) ∈ verdictsFor resource discovery plan monitorErr) :
    (conditionsFor resource previous discovery plan monitorErr now).find? (·.type = type)
      = some (conditionWithTransition previous type verdict now) := by
  rw [conditionsFor_eq]
  have hnodup := nodup_verdictTypes resource discovery plan monitorErr
  generalize verdictsFor resource discovery plan monitorErr = verdicts at h hnodup
  induction verdicts with
  | nil => cases h
  | cons entry verdicts ih =>
    rw [List.map_cons, List.nodup_cons] at hnodup
    rcases List.mem_cons.mp h with rfl | hmem
    · simp
    · have hne : entry.1 ≠ type := by
        rintro rfl
        exact hnodup.1 (List.mem_map.mpr ⟨_, hmem, rfl⟩)
      rw [List.map_cons, List.find?_cons_of_neg (by simpa using hne)]
      exact ih hmem hnodup.2

end Verdicts

/-- `conditionsFor` stores the verdict of the discovery result it is given. -/
theorem discoveryVerdict_conditionsFor (resource : PgBouncerAurora) (previous : List Condition)
    (discovery : DiscoveryResult) (plan : Output) (monitorErr : String) (now : Int) :
    discoveryVerdict (conditionsFor resource previous discovery plan monitorErr now)
      = discovery.trusted := by
  unfold discoveryVerdict conditionsFor
  dsimp only
  rw [List.find?_cons_of_pos (by simp)]
  cases h : discovery.trusted <;> simp [flag]

theorem find?_replaceCondition (condition : Condition) (previous : List Condition) :
    (replaceCondition condition previous).find? (·.type = condition.type) = some condition := by
  induction previous with
  | nil => simp [replaceCondition]
  | cons old rest ih =>
    unfold replaceCondition
    split
    · simp
    · rename_i hne
      rw [List.find?_cons_of_neg (by simpa using hne)]
      exact ih

/-- So does `discoveryOnlyConditions`. -/
theorem discoveryVerdict_discoveryOnly (previous : List Condition) (discovery : DiscoveryResult)
    (discoveryFailed : Bool) (now : Int) :
    discoveryVerdict (discoveryOnlyConditions previous discovery discoveryFailed now)
      = discovery.trusted := by
  unfold discoveryVerdict discoveryOnlyConditions
  have h := find?_replaceCondition (conditionWithTransition previous .discoveryTrusted
    (flag discovery.trusted "DiscoveryTrusted"
      (if discoveryFailed then "DiscoveryFailed" else "DiscoveryUntrusted") discovery.reason) now)
    previous
  rw [conditionWithTransition_type] at h
  simp only [h, conditionWithTransition_status, flag_status]
  cases discovery.trusted <;> simp

/-- Storing a status does not touch the verdict. -/
@[simp] theorem discoveryVerdict_marshal (conditions : List Condition) :
    discoveryVerdict (conditions.map Condition.marshal) = discoveryVerdict conditions := by
  unfold discoveryVerdict
  rw [List.find?_map]
  have hp : (fun c : Condition => decide (c.type = .discoveryTrusted)) ∘ Condition.marshal
      = fun c : Condition => decide (c.type = .discoveryTrusted) := rfl
  rw [hp]
  cases conditions.find? (·.type = .discoveryTrusted) with
  | none => rfl
  | some c => rfl

end Controller

end AuroraOperator

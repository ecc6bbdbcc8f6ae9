/-
# The operator as a system

The world changes in steps: a discovery job, a monitor job or a Reconcile runs from start to
end, somebody edits the spec, or the rest of the cluster moves (a pod becomes ready, an object
is deleted by hand).  Any call of a job may fail, so a step that runs a job comes with the
failures it meets.

`Move` says once what a step can do to the stored resource; the invariants of the development
are proved from it and not from the jobs.  Beside the world runs a journal of what was seen
and what was given up: the trusted discoveries that were committed, and the missing instances
that committed Reconciles have deleted.
-/
import AuroraOperator.Lib.Absence
import AuroraOperator.Lib.Machine
import AuroraOperator.Controller.Scheduler

namespace AuroraOperator

namespace Controller

open Planner Render Program

/-! ## 1. Steps -/

inductive Step
  | discover (discover : Discover) (checkedAt now : Int) (faults : List (Option Fault))
  | monitor (check : Check) (checkedAt now : Int) (faults : List (Option Fault))
  | reconcile (now : Int) (faults : List (Option Fault))
  | editSpec (spec : PgBouncerAuroraSpec)
  | environment (cluster : Cluster)

/-- The world, with the failures that the next job will meet. -/
def World.meet (w : World) (faults : List (Option Fault)) : World := { w with faults := faults }

def World.next (w : World) : Step → World
  | .discover discover checkedAt now faults =>
    final (runDiscoveryJob discover checkedAt now) (w.meet faults)
  | .monitor check checkedAt now faults =>
    final (runMonitorJob check checkedAt now) (w.meet faults)
  | .reconcile now faults => final (reconcile .scheduled now) (w.meet faults)
  | .editSpec spec => { w with stored := w.stored.editSpec spec }
  | .environment cluster => { w with cluster := cluster }

/-- A resource that was just created, in any cluster. -/
def World.initial (name : String) (spec : PgBouncerAuroraSpec) (cluster : Cluster) : World :=
  { stored := StoredResource.create name spec, cluster := cluster }

/-- The world after a run from there. -/
abbrev reached (name : String) (spec : PgBouncerAuroraSpec) (cluster : Cluster)
    (steps : List Step) : World :=
  Machine.run World.next (World.initial name spec cluster) steps

/-! ## 2. The journal -/

/-- An observation is a trusted discovery that was committed, under the time of the job; what is
dropped are the missing instances whose resources a committed Reconcile has deleted. -/
abbrev Event := Absence.Event String Int

/-- The names of the discovered instances. -/
def instanceNames (instances : List InstanceObservation) : List String :=
  (instances.map (·.name)).filter (· ≠ "")

/-- A discovery counts as made when the call itself was trusted, not when a cached topology
stood in for it. -/
def observed (discover : Discover) (resource : PgBouncerAurora) (now : Int) : List Event :=
  match discover resource with
  | .error _ => []
  | .ok discovery =>
    if discovery.trusted then [.observed (instanceNames discovery.instances) now] else []

/-- The missing instances whose resources a Reconcile deletes. -/
def Prepared.deleted (prepared : Prepared) : List String :=
  if prepared.applied then
    (prepared.resource.status.missingInstances.filter fun missing =>
      !keepsMissing prepared.resource prepared.evaluation.discovery prepared.now missing).map
        (·.instanceName)
  else []

def World.events (w : World) : Step → List Event
  | .discover discover checkedAt now faults =>
    if answer (runDiscoveryJob discover checkedAt now) (w.meet faults) then
      observed discover w.stored.resource now
    else []
  | .reconcile now faults =>
    match reconcile .scheduled now (w.meet faults) with
    | .ok prepared _ => [.dropped prepared.deleted]
    | .error _ _ => []
  | _ => []

/-- A step of the world and its journal. -/
abbrev journaled : World × List Event → Step → World × List Event :=
  Machine.traced World.next World.events

/-! ## 3. What a step can do -/

/-- What a step may do to the stored resource, and to the journal with it. -/
inductive Move (w : World) : Step → World → List Event → Prop
  | discovered {discover : Discover} {checkedAt now : Int} {faults : List (Option Fault)}
      {w' : World} {status : Status}
      (answered : answer (runDiscoveryJob discover checkedAt now) (w.meet faults) = true)
      (due : discoveryDue w.stored.resource checkedAt = true)
      (commit : (discoveryWork discover w.stored.resource now).commit w.stored.resource
        = some status)
      (stored : w'.stored = w.stored.updateStatus status) :
      Move w (.discover discover checkedAt now faults) w' (observed discover w.stored.resource now)
  | undiscovered {discover : Discover} {checkedAt now : Int} {faults : List (Option Fault)}
      {w' : World}
      (unanswered : answer (runDiscoveryJob discover checkedAt now) (w.meet faults) = false)
      (stored : w'.stored = w.stored) :
      Move w (.discover discover checkedAt now faults) w' []
  | monitored {check : Check} {checkedAt now : Int} {faults : List (Option Fault)}
      {w' : World} {status : Status}
      (trusted : (cachedDiscovery w.stored.resource).trusted = true)
      (commit : (monitorWork check w.stored.resource now).commit w.stored.resource = some status)
      (stored : w'.stored = w.stored.updateStatus status) :
      Move w (.monitor check checkedAt now faults) w' []
  | unmonitored {check : Check} {checkedAt now : Int} {faults : List (Option Fault)}
      {w' : World} (stored : w'.stored = w.stored) :
      Move w (.monitor check checkedAt now faults) w' []
  | reconciled {now : Int} {faults : List (Option Fault)} {w₁ w' : World} {p : Prepared}
      (prepared : PrepareSpec now (w.meet faults) p w₁)
      (cluster : w'.cluster = w₁.cluster)
      (stored : w'.stored = w.stored.updateStatus (p.status w.stored.resource)) :
      Move w (.reconcile now faults) w' [.dropped p.deleted]
  | attempted {now : Int} {faults : List (Option Fault)} {w' : World}
      (stored : w'.stored = w.stored) :
      Move w (.reconcile now faults) w' []
  | edited {spec : PgBouncerAuroraSpec} {w' : World} (stored : w'.stored = w.stored.editSpec spec) :
      Move w (.editSpec spec) w' []
  | moved {cluster : Cluster} {w' : World} (stored : w'.stored = w.stored) :
      Move w (.environment cluster) w' []

/-- A monitor job commits what it found on the very resource it read, or nothing. -/
theorem monitor_cases (w : World) (check : Check) (checkedAt now : Int)
    (faults : List (Option Fault)) :
    (answer (runMonitorJob check checkedAt now) (w.meet faults) = true ∧
      (cachedDiscovery w.stored.resource).trusted = true ∧
      ∃ status, (monitorWork check w.stored.resource now).commit w.stored.resource = some status ∧
        (w.next (.monitor check checkedAt now faults)).stored = w.stored.updateStatus status) ∨
    (answer (runMonitorJob check checkedAt now) (w.meet faults) = false ∧
      (w.next (.monitor check checkedAt now faults)).stored = w.stored) := by
  rcases runJob_cases (takeMonitor check checkedAt now) MonitorWork.commit (w.meet faults) with
    ⟨hyes, work, status, htake, hcommit, hstored⟩ | hno
  · have htake' : takeMonitor check checkedAt now w.stored.resource = some work := htake
    unfold takeMonitor at htake'
    split at htake'
    · rename_i hdue
      cases htake'
      exact Or.inl ⟨hyes, (Bool.and_eq_true_iff.mp hdue).2, status, hcommit, hstored⟩
    · cases htake'
  · exact Or.inr hno

/-- So does a discovery job. -/
theorem discover_cases (w : World) (discover : Discover) (checkedAt now : Int)
    (faults : List (Option Fault)) :
    (answer (runDiscoveryJob discover checkedAt now) (w.meet faults) = true ∧
      discoveryDue w.stored.resource checkedAt = true ∧
      ∃ status, (discoveryWork discover w.stored.resource now).commit w.stored.resource = some status ∧
        (w.next (.discover discover checkedAt now faults)).stored = w.stored.updateStatus status) ∨
    (answer (runDiscoveryJob discover checkedAt now) (w.meet faults) = false ∧
      (w.next (.discover discover checkedAt now faults)).stored = w.stored) := by
  rcases runJob_cases (takeDiscovery discover checkedAt now) DiscoveryWork.commit
    (w.meet faults) with ⟨hyes, work, status, htake, hcommit, hstored⟩ | hno
  · have htake' : takeDiscovery discover checkedAt now w.stored.resource = some work := htake
    unfold takeDiscovery at htake'
    split at htake'
    · rename_i hdue
      cases htake'
      exact Or.inl ⟨hyes, hdue, status, hcommit, hstored⟩
    · cases htake'
  · exact Or.inr hno

/-- A Reconcile commits the status it prepared, or leaves the stored one. -/
theorem reconcile_cases (w : World) (now : Int) (faults : List (Option Fault)) :
    (∃ p w', reconcile .scheduled now (w.meet faults) = .ok p w' ∧
      ∃ w₁, PrepareSpec now (w.meet faults) p w₁ ∧
        (w.next (.reconcile now faults)).cluster = w₁.cluster ∧
        (w.next (.reconcile now faults)).stored
          = w.stored.updateStatus (p.status w.stored.resource)) ∨
    (∃ e w', reconcile .scheduled now (w.meet faults) = .error e w' ∧
      (w.next (.reconcile now faults)).stored = w.stored) := by
  cases h : reconcile .scheduled now (w.meet faults) with
  | ok p w' =>
    obtain ⟨w₁, hprepare, hcluster, hstored⟩ := reconcile_eq_ok h
    have hnext : w.next (.reconcile now faults) = w' := final_of_ok h
    rw [hnext]
    exact Or.inl ⟨p, w', rfl, w₁, prepare_eq_ok hprepare, hcluster, hstored⟩
  | error e w' =>
    have hnext : w.next (.reconcile now faults) = w' := final_of_error h
    have hstored : w'.stored = (w.meet faults).stored := reconcile_eq_error h
    rw [hnext]
    exact Or.inr ⟨e, w', rfl, hstored⟩

/-- **Every step is a move.** -/
theorem next_move (w : World) (step : Step) : Move w step (w.next step) (w.events step) := by
  cases step with
  | discover discover checkedAt now faults =>
    rcases discover_cases w discover checkedAt now faults with
      ⟨hyes, hdue, status, hcommit, hstored⟩ | ⟨hno, hstored⟩
    · have hevents : w.events (.discover discover checkedAt now faults)
          = observed discover w.stored.resource now := if_pos hyes
      rw [hevents]
      exact .discovered hyes hdue hcommit hstored
    · have hevents : w.events (.discover discover checkedAt now faults) = [] :=
        if_neg (by rw [hno]; simp)
      rw [hevents]
      exact .undiscovered hno hstored
  | monitor check checkedAt now faults =>
    rcases monitor_cases w check checkedAt now faults with
      ⟨-, htrusted, status, hcommit, hstored⟩ | ⟨-, hstored⟩
    · exact .monitored htrusted hcommit hstored
    · exact .unmonitored hstored
  | reconcile now faults =>
    rcases reconcile_cases w now faults with
      ⟨p, w', h, w₁, hprepared, hcluster, hstored⟩ | ⟨e, w', h, hstored⟩
    · have hevents : w.events (.reconcile now faults) = [.dropped p.deleted] := by
        simp only [World.events, h]
      rw [hevents]
      exact .reconciled hprepared hcluster hstored
    · have hevents : w.events (.reconcile now faults) = [] := by
        simp only [World.events, h]
      rw [hevents]
      exact .attempted hstored
  | editSpec spec => exact .edited rfl
  | environment cluster => exact .moved rfl

/-! ## 4. What a committed Reconcile makes of the status -/

namespace PrepareSpec

variable {now : Int} {w w₁ : World} {p : Prepared}

theorem deleted_eq (hp : PrepareSpec now w p w₁) :
    p.deleted = if p.applied then
      (w.stored.resource.status.missingInstances.filter fun missing =>
        !keepsMissing w.stored.resource (cachedDiscovery w.stored.resource) now missing).map
          (·.instanceName)
    else [] := by
  rw [Prepared.deleted, hp.resource, hp.evaluation, hp.time]
  rfl

theorem missing_sublist (hp : PrepareSpec now w p w₁) :
    p.missing.Sublist w.stored.resource.status.missingInstances := by
  cases ha : p.applied with
  | false => rw [(hp.skipped ha).1]
  | true =>
    rw [(hp.applied ha).2]
    exact List.filter_sublist

/-- When every missing instance has one entry, what remains is what was not deleted. -/
theorem missing_eq (hp : PrepareSpec now w p w₁)
    (hnodup : (w.stored.resource.status.missingInstances.map (·.instanceName)).Nodup) :
    p.missing = w.stored.resource.status.missingInstances.filter
      fun missing => missing.instanceName ∉ p.deleted := by
  rw [hp.deleted_eq]
  cases ha : p.applied with
  | false => simp [(hp.skipped ha).1]
  | true =>
    rw [(hp.applied ha).2, if_pos rfl]
    refine List.filter_congr fun m hm => ?_
    rw [Bool.eq_iff_iff, decide_eq_true_eq]
    constructor
    · intro hkeep hdel
      obtain ⟨m', hm', hname⟩ := List.mem_map.mp hdel
      obtain ⟨hmem, hdrop⟩ := List.mem_filter.mp hm'
      rw [List.inj_on_of_nodup_map hnodup hmem hm hname, hkeep] at hdrop
      cases hdrop
    · intro hdel
      by_contra hkeep
      exact hdel (List.mem_map.mpr ⟨m, List.mem_filter.mpr ⟨hm, by simpa using hkeep⟩, rfl⟩)

/-- An untrusted Reconcile is not applied, so it deletes nothing. -/
theorem not_applied (hp : PrepareSpec now w p w₁)
    (ht : (cachedDiscovery w.stored.resource).trusted = false) : p.applied = false := by
  by_contra ha
  have hfrozen := (hp.applied (by simpa using ha)).1
  rw [hp.plan, finalPlan_frozen ht] at hfrozen
  cases hfrozen

theorem missing_canonical (hp : PrepareSpec now w p w₁) :
    p.missing.map MissingInstanceStatus.marshal = p.missing :=
  (List.map_congr_left fun _ hm =>
    w.stored.marshal_missing (hp.missing_sublist.mem hm)).trans (List.map_id _)

/-- **The stored missing list** is the one the Reconcile worked out: its entries have been
stored before, and an untrusted Reconcile has nothing to take from the list. -/
theorem stored_missing (hp : PrepareSpec now w p w₁) :
    (w.stored.updateStatus (p.status w.stored.resource)).resource.status.missingInstances
      = p.missing := by
  rw [StoredResource.updateStatus_status, Status.marshal_missingInstances, Prepared.status,
    hp.resource, hp.evaluation, reconcileCommit_missing]
  cases ht : (cachedDiscovery w.stored.resource).trusted with
  | true => exact hp.missing_canonical
  | false =>
    rw [(hp.skipped (hp.not_applied ht)).1]
    exact w.stored.marshal_missingInstances

end PrepareSpec

end Controller

end AuroraOperator

/-
# Commits of stale work

Two things that overlapping jobs might be expected to keep to, and do only under a condition:

* `verdict_kept_iff`: the stored verdict is that of the discovery committed last, exactly as long
  as whoever commits has worked with that verdict.  The guards compare times and topologies, and
  a failed discovery changes neither (`stale_monitor_lifts_freeze`).
* `missing_kept_iff`: the stored missing list is that of the discovery committed last, less what
  was deleted since, exactly as long as a trusted Reconcile keeps of its snapshot what it would
  keep of the list it finds.  It writes back the list of its snapshot, whatever was committed
  meanwhile (`stale_reconcile_restores_missing`).
-/
import AuroraOperator.Controller.Interleaving
import AuroraOperator.Controller.Invariants

namespace AuroraOperator

namespace Controller

open Planner Render Program

/-! ## 1. The verdict -/

/-- The verdict of the discovery committed last; without one there is no trust. -/
def lastVerdict : List Commit → Bool
  | [] => false
  | .discovered work :: _ => work.discovery.trusted
  | .reconciled _ :: rest => lastVerdict rest

/-- The stored verdict is that of the discovery committed last. -/
def VerdictKept (t : Flight × List Commit) : Prop :=
  lastDiscoveryTrusted t.1.world.stored.resource = lastVerdict t.2

/-- A monitor job or a Reconcile that commits has worked with the verdict of the discovery
committed last. -/
def VerdictShared (t : Flight × List Commit) : Turn → Prop
  | .commitMonitor faults => ∀ work,
      t.1.world.lands MonitorWork.commit faults t.1.monitor = some work →
        work.discovery.trusted = lastVerdict t.2
  | .commitReconcile faults => ∀ p,
      t.1.world.lands Prepared.commit faults t.1.reconcile = some p →
        p.evaluation.discovery.trusted = lastVerdict t.2
  | _ => True

theorem lastDiscoveryTrusted_updateStatus (s : StoredResource) (status : Status) :
    lastDiscoveryTrusted (s.updateStatus status).resource = discoveryVerdict status.conditions :=
  discoveryVerdict_marshal _

theorem VerdictShared.of_idle {t : Flight × List Commit} {turn : Turn}
    (h : t.1.landing turn = false) : VerdictShared t turn := by
  cases turn with
  | commitMonitor faults =>
    intro work hwork
    rw [Flight.landing, hwork] at h
    cases h
  | commitReconcile faults =>
    intro p hp
    rw [Flight.landing, hp] at h
    cases h
  | _ => trivial

/-- **One turn.**  Every commit stores the verdict its job has worked with. -/
theorem verdictKept_iff_shared {t : Flight × List Commit} (h : VerdictKept t) (turn : Turn) :
    VerdictKept (committed t turn) ↔ VerdictShared t turn := by
  show lastDiscoveryTrusted (t.1.next turn).world.stored.resource
    = lastVerdict (t.1.commits turn ++ t.2) ↔ _
  have hlands := t.1.next_lands turn
  generalize (t.1.next turn).world.stored = stored, t.1.commits turn = commits at hlands ⊢
  cases hlands with
  | nothing idle => exact iff_of_true h (.of_idle idle)
  | edited spec => exact iff_of_true h trivial
  | discovered job commit =>
    refine iff_of_true ?_ trivial
    rw [lastDiscoveryTrusted_updateStatus]
    exact (discoveryCommit_frame commit).2.2.2.2.2
  | monitored job lands commit =>
    rw [lastDiscoveryTrusted_updateStatus, (monitorCommit_frame commit).2.2.2.2.2.2]
    simp [VerdictShared, lands]
  | reconciled job lands =>
    rw [lastDiscoveryTrusted_updateStatus, Prepared.status, reconcileCommit_verdict]
    simp [VerdictShared, lands, lastVerdict]

/-- **When the verdict is kept.**  In a run from a new resource, the stored verdict is after every
turn that of the discovery committed last, exactly when every job that commits has worked with
that verdict. -/
theorem verdict_kept_iff (name : String) (spec : PgBouncerAuroraSpec) (cluster : Cluster)
    (turns : List Turn) :
    Machine.Along committed (fun t turn => VerdictKept (committed t turn))
        ({ world := World.initial name spec cluster }, []) turns ↔
      Machine.Along committed VerdictShared
        ({ world := World.initial name spec cluster }, []) turns := by
  refine Machine.Along.congr (I := VerdictKept) (fun _ turn h => verdictKept_iff_shared h turn)
    (fun _ _ _ hkept => hkept) ?_ turns
  rfl

/-- The two halves of a discovery job, with nothing between. -/
def discoverAt (now : Int) (discovery : DiscoveryResult) : List Turn :=
  [.takeDiscovery (fun _ => .ok discovery) now now, .commitDiscovery []]

/-- A trusted discovery of the writer `a` and the given readers. -/
def trustedWith (readers : List String) : DiscoveryResult where
  trusted := true
  instances := { name := "a", role := .writer } ::
    readers.map fun name => { name := name, role := .reader }

def queryFailed : DiscoveryResult where
  trusted := false
  reason := "query failed"

def checkNothing : Check := fun _ _ => .ok ∅

/-- A monitor job that starts after a discovery and commits before the next. -/
theorem verdict_kept_in_turn :
    Machine.Along committed (fun t turn => VerdictKept (committed t turn))
      ({ world := World.initial "db" {} {} }, [])
      (discoverAt 0 (trustedWith []) ++
        [.takeMonitor checkNothing (1 * second) (1 * second), .commitMonitor []]) := by
  refine (verdict_kept_iff "db" {} {} _).mpr ⟨trivial, trivial, trivial, ?_, trivial⟩
  intro work hwork
  cases hwork
  decide +kernel

/-- Two failures are papered over; a monitor job starts; the third failure reaches the threshold
and freezes the topology; the monitor job commits. -/
def staleMonitor : List Turn :=
  discoverAt 0 (trustedWith []) ++ discoverAt (5 * second) queryFailed ++
    discoverAt (10 * second) queryFailed ++
    [.takeMonitor checkNothing (11 * second) (11 * second)] ++
    discoverAt (15 * second) queryFailed

/-- **A stale monitor job lifts the freeze.**  The discovery committed last is not trusted, and
was stored so; the commit of the monitor job turns the stored verdict back. -/
theorem stale_monitor_lifts_freeze :
    let t := Machine.run committed ({ world := World.initial "db" {} {} }, []) staleMonitor
    let t' := committed t (.commitMonitor [])
    lastDiscoveryTrusted t.1.world.stored.resource = false ∧ lastVerdict t'.2 = false ∧
      lastDiscoveryTrusted t'.1.world.stored.resource = true := by
  refine ⟨?_, ?_, ?_⟩ <;> decide +kernel

/-! ## 2. The missing list -/

/-- The list of the discovery committed last, less the entries whose resources were deleted
since.  A discovery without trust says nothing about who is missing. -/
def expectedMissing : List Commit → List MissingInstanceStatus
  | [] => []
  | .discovered work :: rest =>
    if work.discovery.trusted then work.missing.map MissingInstanceStatus.marshal
    else expectedMissing rest
  | .reconciled p :: rest =>
    (expectedMissing rest).filter fun missing => missing.instanceName ∉ p.deleted

def MissingKept (t : Flight × List Commit) : Prop :=
  t.1.world.stored.resource.status.missingInstances = expectedMissing t.2

/-- A trusted Reconcile that commits keeps the entries that the list has now. -/
def MissingShared (t : Flight × List Commit) : Turn → Prop
  | .commitReconcile faults => ∀ p,
      t.1.world.lands Prepared.commit faults t.1.reconcile = some p →
        (cachedDiscovery p.resource).trusted = true →
        p.resource.status.missingInstances.filter (·.instanceName ∉ p.deleted)
          = t.1.world.stored.resource.status.missingInstances.filter (·.instanceName ∉ p.deleted)
  | _ => True

/-- What a Reconcile under way has made of the missing list of its snapshot. -/
structure Prepared.Pruned (p : Prepared) : Prop where
  evaluation : p.evaluation = scheduledEvaluation p.resource
  missing : p.missing = p.resource.status.missingInstances.filter (·.instanceName ∉ p.deleted)
  canonical : p.missing.map MissingInstanceStatus.marshal = p.missing
  nodup : (p.missing.map (·.instanceName)).Nodup
  untrusted : (cachedDiscovery p.resource).trusted = false → p.deleted = []

theorem PrepareSpec.pruned {now : Int} {w w₁ : World} {p : Prepared}
    (hp : PrepareSpec now w p w₁)
    (hnodup : (w.stored.resource.status.missingInstances.map (·.instanceName)).Nodup) :
    p.Pruned where
  evaluation := by rw [hp.evaluation, hp.resource]
  missing := by rw [hp.resource]; exact hp.missing_eq hnodup
  canonical := hp.missing_canonical
  nodup := hnodup.sublist (hp.missing_sublist.map _)
  untrusted ht := by
    rw [hp.resource] at ht
    rw [hp.deleted_eq, hp.not_applied ht]
    rfl

/-- The list that such a Reconcile stores. -/
theorem Prepared.Pruned.stored {p : Prepared} (hp : p.Pruned) (s : StoredResource) :
    (s.updateStatus (p.status s.resource)).resource.status.missingInstances
      = if (cachedDiscovery p.resource).trusted then p.missing
        else s.resource.status.missingInstances := by
  rw [StoredResource.updateStatus_status, Status.marshal_missingInstances, Prepared.status,
    hp.evaluation, reconcileCommit_missing]
  split
  · exact hp.canonical
  · exact s.marshal_missingInstances

/-- In no list, stored or about to be, an instance has two entries. -/
structure Flight.Orderly (s : Flight) : Prop where
  nodup : (s.world.stored.resource.status.missingInstances.map (·.instanceName)).Nodup
  discovery : ∀ work, s.discovery = some work → work.discovery.trusted = true →
    (work.missing.map (·.instanceName)).Nodup
  reconcile : ∀ p, s.reconcile = some p → p.Pruned

theorem takeDiscovery_nodup {discover : Discover} {checkedAt now : Int}
    {resource : PgBouncerAurora} {work : DiscoveryWork}
    (h : takeDiscovery discover checkedAt now resource = some work)
    (ht : work.discovery.trusted = true) : (work.missing.map (·.instanceName)).Nodup := by
  unfold takeDiscovery at h
  split at h
  · cases h
    exact (missingInstancesFor_sorted ht).imp fun hlt => hlt.ne
  · cases h

theorem Flight.Stores.nodup {s : Flight} {stored : StoredResource} (hstores : s.Stores stored)
    (h : s.Orderly) : (stored.resource.status.missingInstances.map (·.instanceName)).Nodup := by
  cases hstores with
  | same => exact h.nodup
  | edited spec => exact h.nodup
  | discovered job commit =>
    rename_i work status
    rw [StoredResource.updateStatus_status, Status.marshal_missingInstances, map_name_marshal]
    cases ht : work.discovery.trusted with
    | true =>
      rw [(discoveryCommit_trusted commit ht).2.1]
      exact h.discovery work job ht
    | false =>
      rw [(discoveryCommit_untrusted commit ht).2.1]
      exact h.nodup
  | monitored job commit =>
    rw [StoredResource.updateStatus_status, Status.marshal_missingInstances, map_name_marshal,
      (monitorCommit_frame commit).2.1]
    exact h.nodup
  | reconciled job =>
    rename_i p
    rw [(h.reconcile p job).stored]
    split
    · exact (h.reconcile p job).nodup
    · exact h.nodup

/-- **Every turn keeps the lists orderly.** -/
theorem Flight.Orderly.next {s : Flight} (h : s.Orderly) (turn : Turn) : (s.next turn).Orderly := by
  obtain ⟨hdiscovery, -, hreconcile⟩ := s.next_jobs turn
  refine ⟨(s.next_stores turn).nodup h, fun work hwork ht => ?_, fun p hp => ?_⟩
  · rcases hdiscovery work hwork with hold | ⟨_, _, _, -, htake⟩
    · exact h.discovery work hold ht
    · exact takeDiscovery_nodup htake ht
  · rcases hreconcile p hp with hold | ⟨_, _, _, -, hrun⟩
    · exact h.reconcile p hold
    · exact (prepare_eq_ok hrun).pruned h.nodup

theorem MissingShared.of_idle {t : Flight × List Commit} {turn : Turn}
    (h : t.1.landing turn = false) : MissingShared t turn := by
  cases turn with
  | commitReconcile faults =>
    intro p hp
    rw [Flight.landing, hp] at h
    cases h
  | _ => trivial

/-- **One turn.**  A trusted Reconcile stores what it kept of its snapshot; an untrusted one has
deleted nothing, and stores the list it finds. -/
theorem missingKept_iff_shared {t : Flight × List Commit} (horderly : t.1.Orderly)
    (h : MissingKept t) (turn : Turn) : MissingKept (committed t turn) ↔ MissingShared t turn := by
  show (t.1.next turn).world.stored.resource.status.missingInstances
    = expectedMissing (t.1.commits turn ++ t.2) ↔ _
  have hlands := t.1.next_lands turn
  generalize (t.1.next turn).world.stored = stored, t.1.commits turn = commits at hlands ⊢
  cases hlands with
  | nothing idle => exact iff_of_true h (.of_idle idle)
  | edited spec => exact iff_of_true h trivial
  | @discovered faults work status job commit =>
    refine iff_of_true ?_ trivial
    rw [StoredResource.updateStatus_status, Status.marshal_missingInstances,
      List.singleton_append, expectedMissing]
    split
    · rename_i ht
      rw [(discoveryCommit_trusted commit ht).2.1]
    · rename_i ht
      rw [(discoveryCommit_untrusted commit (by simpa using ht)).2.1,
        t.1.world.stored.marshal_missingInstances]
      exact h
  | monitored job lands commit =>
    refine iff_of_true ?_ trivial
    rw [StoredResource.updateStatus_status, Status.marshal_missingInstances,
      (monitorCommit_frame commit).2.1, t.1.world.stored.marshal_missingInstances]
    exact h
  | @reconciled faults p job lands =>
    have hpruned := horderly.reconcile p job
    rw [hpruned.stored, List.singleton_append, expectedMissing, ← h]
    cases ht : (cachedDiscovery p.resource).trusted with
    | true =>
      rw [if_pos rfl, hpruned.missing]
      simp [MissingShared, lands, ht]
    | false =>
      refine iff_of_true (by simp [hpruned.untrusted ht]) ?_
      intro p' hp' ht'
      rw [lands] at hp'
      cases hp'
      rw [ht] at ht'
      cases ht'

/-- **When no update of the missing list is lost.**  In a run from a new resource, the stored list
is after every turn that of the discovery committed last, less what was deleted since, exactly
when every trusted Reconcile that commits keeps of its snapshot what it would keep of the list
it finds. -/
theorem missing_kept_iff (name : String) (spec : PgBouncerAuroraSpec) (cluster : Cluster)
    (turns : List Turn) :
    Machine.Along committed (fun t turn => MissingKept (committed t turn))
        ({ world := World.initial name spec cluster }, []) turns ↔
      Machine.Along committed MissingShared
        ({ world := World.initial name spec cluster }, []) turns := by
  refine Machine.Along.congr (I := fun t => t.1.Orderly ∧ MissingKept t)
    (fun _ turn h => missingKept_iff_shared h.1 h.2 turn)
    (fun _ turn h hkept => ⟨h.1.next turn, hkept⟩) ⟨?_, ?_⟩ turns
  · exact ⟨List.nodup_nil, fun work h => (by cases h), fun p h => (by cases h)⟩
  · rfl

/-- A Reconcile that starts while `x` is missing. -/
def preparedWhileMissing : List Turn :=
  discoverAt 0 (trustedWith ["x"]) ++ discoverAt (5 * second) (trustedWith []) ++
    [.prepare (6 * second) []]

/-- A Reconcile whose snapshot has the list it finds keeps every update. -/
theorem missingShared_of_same {t : Flight × List Commit} {faults : List (Option Fault)}
    (h : (t.1.reconcile.all fun p => p.resource.status.missingInstances
      = t.1.world.stored.resource.status.missingInstances) = true) :
    MissingShared t (.commitReconcile faults) := by
  intro p hp _
  rw [(Option.filter_eq_some_iff.mp hp).1, Option.all_some, decide_eq_true_eq] at h
  rw [h]

/-- Nobody comes between, and the entry of `x` stays. -/
theorem missing_kept_in_turn :
    Machine.Along committed (fun t turn => MissingKept (committed t turn))
      ({ world := World.initial "db" {} {} }, [])
      (preparedWhileMissing ++ [.commitReconcile []]) :=
  (missing_kept_iff "db" {} {} _).mpr ⟨trivial, trivial, trivial, trivial, trivial,
    missingShared_of_same (by decide +kernel), trivial⟩

/-- **A Reconcile that restores an entry.**  `x` reappears while the Reconcile is under way, and
its entry is removed; the Reconcile writes it back. -/
theorem stale_reconcile_restores_missing :
    let t := Machine.run committed ({ world := World.initial "db" {} {} }, [])
      (preparedWhileMissing ++ discoverAt (10 * second) (trustedWith ["x"]))
    let t' := committed t (.commitReconcile [])
    t.1.world.stored.resource.status.missingInstances = [] ∧ expectedMissing t'.2 = [] ∧
      t'.1.world.stored.resource.status.missingInstances.map (·.instanceName) = ["x"] := by
  refine ⟨?_, ?_, ?_⟩ <;> decide +kernel

end Controller

end AuroraOperator

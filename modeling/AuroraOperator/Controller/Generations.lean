/-
# The observed generation does not lie

`status.observedGeneration` tells users and tools that the operator has seen their last edit.  It is
written by the second half of a Reconcile, and is the generation of the snapshot that the first half
worked on; in between the spec may have been edited, and jobs may have written the status.

* `observed_generation_truthful`: in any interleaving it never goes back and never runs ahead, and
  when it is the generation of the resource, the last Reconcile that went through planned with the
  spec the resource has.
-/
import AuroraOperator.Controller.Interleaving

namespace AuroraOperator

namespace Controller

/-- The last Reconcile that has committed. -/
def lastReconciled (commits : List Commit) : Option Prepared :=
  commits.findSome? fun
    | .reconciled p => some p
    | .discovered _ => none

/-- A snapshot is not ahead of the resource, and of one generation there is one spec. -/
structure Precedes (snapshot resource : PgBouncerAurora) : Prop where
  generation : snapshot.generation ≤ resource.generation
  spec : snapshot.generation = resource.generation → snapshot.spec = resource.spec

theorem Precedes.refl (resource : PgBouncerAurora) : Precedes resource resource :=
  ⟨le_refl _, fun _ => rfl⟩

theorem Precedes.updateStatus {snapshot : PgBouncerAurora} {s : StoredResource}
    (h : Precedes snapshot s.resource) (status : Status) :
    Precedes snapshot (s.updateStatus status).resource := ⟨h.generation, h.spec⟩

theorem Precedes.editSpec {snapshot : PgBouncerAurora} {s : StoredResource}
    (h : Precedes snapshot s.resource) (spec : PgBouncerAuroraSpec) :
    Precedes snapshot (s.editSpec spec).resource := by
  have hnext : (s.editSpec spec).resource.generation = s.resource.generation + 1 := rfl
  have hle := h.generation
  exact ⟨by omega, fun heq => by omega⟩

/-- The observed generation is that of the last Reconcile, and no snapshot is ahead. -/
structure Observes (t : Flight × List Commit) : Prop where
  created : 0 < t.1.world.stored.resource.generation
  last : t.1.world.stored.resource.status.observedGeneration
    = ((lastReconciled t.2).map (·.resource.generation)).getD 0
  seen : ∀ p, lastReconciled t.2 = some p → Precedes p.resource t.1.world.stored.resource
  flying : ∀ p, t.1.reconcile = some p → Precedes p.resource t.1.world.stored.resource ∧
    t.1.world.stored.resource.status.observedGeneration ≤ p.resource.generation

section Observes

variable {t : Flight × List Commit}

theorem Observes.observed_le (h : Observes t) :
    t.1.world.stored.resource.status.observedGeneration
      ≤ t.1.world.stored.resource.generation := by
  rw [h.last]
  cases hlast : lastReconciled t.2 with
  | none => exact h.created.le
  | some p => exact (h.seen p hlast).generation

/-- What a turn may write.  Only the second half of a Reconcile writes the observed generation. -/
theorem Flight.Lands.observed {s : Flight} {turn : Turn} {stored : StoredResource}
    {commits : List Commit} (h : s.Lands turn stored commits) :
    (∃ p faults, turn = .commitReconcile faults ∧ s.reconcile = some p ∧ commits = [.reconciled p] ∧
      stored.resource.status.observedGeneration = p.resource.generation ∧
      stored = s.world.stored.updateStatus (p.status s.world.stored.resource)) ∨
    (lastReconciled commits = none ∧ stored.resource.status.observedGeneration
        = s.world.stored.resource.status.observedGeneration ∧
      ((∃ status, stored = s.world.stored.updateStatus status) ∨
        ∃ spec, stored = s.world.stored.editSpec spec)) := by
  cases h with
  | nothing idle =>
    refine Or.inr ⟨rfl, rfl, Or.inl ⟨s.world.stored.resource.status, ?_⟩⟩
    exact (StoredResource.updateStatus_self s.world.stored.canonical).symm
  | edited spec => exact Or.inr ⟨rfl, rfl, Or.inr ⟨spec, rfl⟩⟩
  | @discovered faults work status job commit =>
    exact Or.inr ⟨rfl, (discoveryCommit_frame commit).2.2.2.1, Or.inl ⟨status, rfl⟩⟩
  | @monitored faults work status job lands commit =>
    obtain ⟨-, -, hstatus⟩ := monitorCommit_eq_some.mp commit
    exact Or.inr ⟨rfl, by rw [hstatus]; rfl, Or.inl ⟨status, rfl⟩⟩
  | @reconciled faults p job lands => exact Or.inl ⟨p, faults, rfl, job, rfl, rfl, rfl⟩

/-- A snapshot that is not ahead is not ahead of what a turn stores either. -/
theorem Precedes.stored {s : Flight} {snapshot : PgBouncerAurora} {stored : StoredResource}
    (h : Precedes snapshot s.world.stored.resource)
    (hstored : (∃ status, stored = s.world.stored.updateStatus status) ∨
      ∃ spec, stored = s.world.stored.editSpec spec) : Precedes snapshot stored.resource := by
  rcases hstored with ⟨status, rfl⟩ | ⟨spec, rfl⟩
  · exact h.updateStatus status
  · exact h.editSpec spec

theorem Observes.next (h : Observes t) (turn : Turn) : Observes (committed t turn) := by
  have hlands := (t.1.next_lands turn).observed
  have hflying : ∀ p, (t.1.next turn).reconcile = some p →
      Precedes p.resource t.1.world.stored.resource ∧
        t.1.world.stored.resource.status.observedGeneration ≤ p.resource.generation := by
    intro p hp
    rcases (t.1.next_jobs turn).2.2 p hp with hold | ⟨now, faults, w', -, hprepare⟩
    · exact h.flying p hold
    · rw [(prepare_eq_ok hprepare).resource]
      exact ⟨.refl _, h.observed_le⟩
  rcases hlands with ⟨p, faults, rfl, hjob, hcommits, hobserved, hstored⟩ |
    ⟨hcommits, hobserved, hstored⟩
  · have hprecedes : Precedes p.resource (t.1.next (.commitReconcile faults)).world.stored.resource :=
      (h.flying p hjob).1.stored (Or.inl ⟨_, hstored⟩)
    have hlast : lastReconciled (committed t (.commitReconcile faults)).2 = some p := by
      simp only [committed, Machine.traced, hcommits]
      rfl
    refine ⟨?_, ?_, fun q hq => ?_, fun q hq => nomatch hq⟩
    · show 0 < (t.1.next _).world.stored.resource.generation
      rw [hstored]
      exact h.created
    · rw [hlast]
      exact hobserved
    · rw [hlast] at hq
      cases hq
      exact hprecedes
  · have hlast : lastReconciled (committed t turn).2 = lastReconciled t.2 := by
      simp only [committed, Machine.traced, lastReconciled, List.findSome?_append] at hcommits ⊢
      rw [hcommits, Option.none_or]
    refine ⟨?_, ?_, fun q hq => ?_, fun q hq => ?_⟩
    · show 0 < (t.1.next _).world.stored.resource.generation
      rcases hstored with ⟨status, heq⟩ | ⟨spec, heq⟩
      · rw [heq]
        exact h.created
      · rw [heq]
        exact Int.lt_add_one_of_le h.created.le
    · rw [hlast]
      exact hobserved.trans h.last
    · rw [hlast] at hq
      exact (h.seen q hq).stored hstored
    · obtain ⟨hprecedes, hle⟩ := hflying q hq
      exact ⟨hprecedes.stored hstored, hobserved.le.trans hle⟩

end Observes

/-- The operator, with a record of what has committed, after some turns on a new resource. -/
abbrev flown (name : String) (spec : PgBouncerAuroraSpec) (cluster : Cluster) (turns : List Turn) :
    Flight × List Commit :=
  Machine.run committed ({ world := World.initial name spec cluster }, []) turns

theorem observes_run (name : String) (spec : PgBouncerAuroraSpec) (cluster : Cluster)
    (turns : List Turn) : Observes (flown name spec cluster turns) := by
  refine Machine.invariant (fun t turn h => h.next turn) ?_ turns
  refine ⟨Int.one_pos, rfl, fun p hp => ?_, fun p hp => ?_⟩
  · have hnone : lastReconciled [] = some p := hp
    cases hnone
  · have hnone : (none : Option Prepared) = some p := hp
    cases hnone

/-- It never goes back. -/
theorem observed_mono {t : Flight × List Commit} (h : Observes t) (turns : List Turn) :
    t.1.world.stored.resource.status.observedGeneration
      ≤ (Machine.run committed t turns).1.world.stored.resource.status.observedGeneration := by
  induction turns generalizing t with
  | nil => exact le_refl _
  | cons turn turns ih =>
    refine le_trans ?_ (ih (h.next turn))
    rcases (t.1.next_lands turn).observed with ⟨p, faults, rfl, hjob, -, hobserved, -⟩ |
      ⟨-, hobserved, -⟩
    · exact (h.flying p hjob).2.trans hobserved.ge
    · exact hobserved.ge

/-- **The observed generation does not lie.**  After any turns it is at most the generation, it does
not go back with any more turns, and if it is the generation, some Reconcile has gone through, and
the last one planned with the spec that the resource has. -/
theorem observed_generation_truthful (name : String) (spec : PgBouncerAuroraSpec)
    (cluster : Cluster) (turns more : List Turn) :
    let t := flown name spec cluster turns
    let resource := t.1.world.stored.resource
    resource.status.observedGeneration ≤ resource.generation ∧
      resource.status.observedGeneration
        ≤ (flown name spec cluster (turns ++ more)).1.world.stored.resource.status.observedGeneration ∧
      (resource.status.observedGeneration = resource.generation →
        ∃ p, lastReconciled t.2 = some p ∧ p.resource.spec = resource.spec) := by
  intro t resource
  have h : Observes t := observes_run name spec cluster turns
  refine ⟨h.observed_le, ?_, fun heq => ?_⟩
  · rw [flown, Machine.run_append]
    exact observed_mono h more
  · have hlast := h.last
    cases hreconciled : lastReconciled t.2 with
    | none =>
      have hcreated := h.created
      rw [hreconciled] at hlast
      have hzero : t.1.world.stored.resource.generation = 0 := heq.symm.trans hlast
      omega
    | some p =>
      rw [hreconciled] at hlast
      exact ⟨p, rfl, (h.seen p hreconciled).spec (hlast.symm.trans heq)⟩

end Controller

end AuroraOperator

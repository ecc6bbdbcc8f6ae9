/-
# Jobs that overlap

The steps of `System` run a job from start to end.  The operator does not: a discovery job, a
monitor job and a Reconcile of one resource run at the same time, each in two halves.  The first
reads a snapshot and works on it, the second commits to a freshly read copy, and anything may
happen between the two.  A write that races with a commit makes it read again, so the second
half is one turn; of each kind there is at most one job under way.

The two systems are the same as long as no jobs overlap (`run_turns`).
-/
import AuroraOperator.Controller.System

namespace AuroraOperator

namespace Controller

open Planner Render Program

/-! ## 1. Turns -/

/-- The world, and the jobs that have yet to commit. -/
structure Flight where
  world : World
  discovery : Option DiscoveryWork := none
  monitor : Option MonitorWork := none
  reconcile : Option Prepared := none

inductive Turn
  | takeDiscovery (discover : Discover) (checkedAt now : Int)
  | commitDiscovery (faults : List (Option Fault))
  | takeMonitor (check : Check) (checkedAt now : Int)
  | commitMonitor (faults : List (Option Fault))
  | prepare (now : Int) (faults : List (Option Fault))
  | commitReconcile (faults : List (Option Fault))
  | editSpec (spec : PgBouncerAuroraSpec)
  | environment (cluster : Cluster)

def Prepared.commit (prepared : Prepared) (fresh : PgBouncerAurora) : Option Status :=
  some (prepared.status fresh)

section Landing

variable {W : Type} (commit : W → PgBouncerAurora → Option Status)

/-- The second half of a job, if there is one under way. -/
def World.land (w : World) (faults : List (Option Fault)) : Option W → World
  | none => w
  | some work => final (commitStatus (commit work)) (w.meet faults)

/-- The job, if its commit goes through. -/
def World.lands (w : World) (faults : List (Option Fault)) (job : Option W) : Option W :=
  job.filter fun work => answer (commitStatus (commit work)) (w.meet faults)

end Landing

def Flight.next (s : Flight) : Turn → Flight
  | .takeDiscovery discover checkedAt now =>
    -- a second job of a kind is not started while the first is under way
    if s.discovery.isSome then s
    else { s with discovery := takeDiscovery discover checkedAt now s.world.stored.resource }
  | .commitDiscovery faults =>
    { s with world := s.world.land DiscoveryWork.commit faults s.discovery, discovery := none }
  | .takeMonitor check checkedAt now =>
    if s.monitor.isSome then s
    else { s with monitor := takeMonitor check checkedAt now s.world.stored.resource }
  | .commitMonitor faults =>
    { s with world := s.world.land MonitorWork.commit faults s.monitor, monitor := none }
  | .prepare now faults =>
    if s.reconcile.isSome then s
    else match Controller.prepare .scheduled now (s.world.meet faults) with
      | .ok prepared w => { s with world := w, reconcile := some prepared }
      | .error _ w => { s with world := w }
  | .commitReconcile faults =>
    { s with world := s.world.land Prepared.commit faults s.reconcile, reconcile := none }
  | .editSpec spec => { s with world := s.world.next (.editSpec spec) }
  | .environment cluster => { s with world := s.world.next (.environment cluster) }

/-- What a turn that commits does, failures included. -/
theorem land_cases {W : Type} (commit : W → PgBouncerAurora → Option Status) (w : World)
    (faults : List (Option Fault)) (job : Option W) :
    (∃ work status, job = some work ∧ w.lands commit faults job = some work ∧
      commit work w.stored.resource = some status ∧
      (w.land commit faults job).stored = w.stored.updateStatus status) ∨
    (w.lands commit faults job = none ∧ (w.land commit faults job).stored = w.stored) := by
  cases job with
  | none => exact Or.inr ⟨rfl, rfl⟩
  | some work =>
    rcases commitStatus_cases (commit work) (w.meet faults)
      with ⟨hyes, status, hnext, hstored⟩ | ⟨hno, hstored⟩
    · exact Or.inl ⟨work, status, rfl, by simp [World.lands, hyes], hnext, hstored⟩
    · exact Or.inr ⟨by simp [World.lands, hno], hstored⟩

/-- The first half of a Reconcile does not touch the stored resource. -/
theorem prepare_stored (s : Flight) (now : Int) (faults : List (Option Fault)) :
    (s.next (.prepare now faults)).world.stored = s.world.stored := by
  unfold Flight.next
  dsimp only
  split
  · rfl
  · cases h : prepare .scheduled now (s.world.meet faults) with
    | ok p w' =>
      have hkept := (prepare_keeps now).of_ok h
      exact hkept
    | error e w' =>
      have hkept := (prepare_keeps now).of_error h
      exact hkept

theorem take_world (s : Flight) :
    (∀ discover checkedAt now, (s.next (.takeDiscovery discover checkedAt now)).world = s.world) ∧
    ∀ check checkedAt now, (s.next (.takeMonitor check checkedAt now)).world = s.world := by
  constructor <;> intros <;> unfold Flight.next <;> dsimp only <;> split <;> rfl

/-! ## 2. What a turn stores -/

/-- What is remembered of the commits that went through. -/
inductive Commit
  | discovered (work : DiscoveryWork)
  | reconciled (prepared : Prepared)

def Flight.commits (s : Flight) : Turn → List Commit
  | .commitDiscovery faults =>
    ((s.world.lands DiscoveryWork.commit faults s.discovery).map Commit.discovered).toList
  | .commitReconcile faults =>
    ((s.world.lands Prepared.commit faults s.reconcile).map Commit.reconciled).toList
  | _ => []

abbrev committed : Flight × List Commit → Turn → Flight × List Commit :=
  Machine.traced Flight.next Flight.commits

/-- A commit goes through in this turn. -/
def Flight.landing (s : Flight) : Turn → Bool
  | .commitDiscovery faults => (s.world.lands DiscoveryWork.commit faults s.discovery).isSome
  | .commitMonitor faults => (s.world.lands MonitorWork.commit faults s.monitor).isSome
  | .commitReconcile faults => (s.world.lands Prepared.commit faults s.reconcile).isSome
  | _ => false

/-- What is stored after a turn, and what is remembered of the turn. -/
inductive Flight.Lands (s : Flight) : Turn → StoredResource → List Commit → Prop
  | nothing {turn : Turn} (idle : s.landing turn = false) : s.Lands turn s.world.stored []
  | edited (spec : PgBouncerAuroraSpec) :
      s.Lands (.editSpec spec) (s.world.stored.editSpec spec) []
  | discovered {faults : List (Option Fault)} {work : DiscoveryWork} {status : Status}
      (job : s.discovery = some work)
      (commit : work.commit s.world.stored.resource = some status) :
      s.Lands (.commitDiscovery faults) (s.world.stored.updateStatus status) [.discovered work]
  | monitored {faults : List (Option Fault)} {work : MonitorWork} {status : Status}
      (job : s.monitor = some work)
      (lands : s.world.lands MonitorWork.commit faults s.monitor = some work)
      (commit : work.commit s.world.stored.resource = some status) :
      s.Lands (.commitMonitor faults) (s.world.stored.updateStatus status) []
  | reconciled {faults : List (Option Fault)} {p : Prepared} (job : s.reconcile = some p)
      (lands : s.world.lands Prepared.commit faults s.reconcile = some p) :
      s.Lands (.commitReconcile faults)
        (s.world.stored.updateStatus (p.status s.world.stored.resource)) [.reconciled p]

theorem Flight.next_lands (s : Flight) (turn : Turn) :
    s.Lands turn (s.next turn).world.stored (s.commits turn) := by
  cases turn with
  | takeDiscovery discover checkedAt now => rw [(take_world s).1]; exact .nothing rfl
  | takeMonitor check checkedAt now => rw [(take_world s).2]; exact .nothing rfl
  | prepare now faults => rw [prepare_stored]; exact .nothing rfl
  | editSpec spec => exact .edited spec
  | environment cluster => exact .nothing rfl
  | commitDiscovery faults =>
    show s.Lands _ (s.world.land _ _ _).stored _
    rcases land_cases DiscoveryWork.commit s.world faults s.discovery
      with ⟨work, status, hjob, hlands, hcommit, hstored⟩ | ⟨hlands, hstored⟩
    · rw [hstored, Flight.commits, hlands]
      exact .discovered hjob hcommit
    · rw [hstored, Flight.commits, hlands]
      exact .nothing (by rw [Flight.landing, hlands]; rfl)
  | commitMonitor faults =>
    show s.Lands _ (s.world.land _ _ _).stored _
    rcases land_cases MonitorWork.commit s.world faults s.monitor
      with ⟨work, status, hjob, hlands, hcommit, hstored⟩ | ⟨hlands, hstored⟩
    · rw [hstored]
      exact .monitored hjob hlands hcommit
    · rw [hstored]
      exact .nothing (by rw [Flight.landing, hlands]; rfl)
  | commitReconcile faults =>
    show s.Lands _ (s.world.land _ _ _).stored _
    rcases land_cases Prepared.commit s.world faults s.reconcile
      with ⟨p, status, hjob, hlands, hcommit, hstored⟩ | ⟨hlands, hstored⟩
    · cases hcommit
      rw [hstored, Flight.commits, hlands]
      exact .reconciled hjob hlands
    · rw [hstored, Flight.commits, hlands]
      exact .nothing (by rw [Flight.landing, hlands]; rfl)

/-- What a turn may store. -/
inductive Flight.Stores (s : Flight) : StoredResource → Prop
  | same : s.Stores s.world.stored
  | edited (spec : PgBouncerAuroraSpec) : s.Stores (s.world.stored.editSpec spec)
  | discovered {work : DiscoveryWork} {status : Status} (job : s.discovery = some work)
      (commit : work.commit s.world.stored.resource = some status) :
      s.Stores (s.world.stored.updateStatus status)
  | monitored {work : MonitorWork} {status : Status} (job : s.monitor = some work)
      (commit : work.commit s.world.stored.resource = some status) :
      s.Stores (s.world.stored.updateStatus status)
  | reconciled {p : Prepared} (job : s.reconcile = some p) :
      s.Stores (s.world.stored.updateStatus (p.status s.world.stored.resource))

theorem Flight.next_stores (s : Flight) (turn : Turn) : s.Stores (s.next turn).world.stored := by
  have hlands := s.next_lands turn
  generalize (s.next turn).world.stored = stored, s.commits turn = commits at hlands ⊢
  cases hlands with
  | nothing idle => exact .same
  | edited spec => exact .edited spec
  | discovered job commit => exact .discovered job commit
  | monitored job lands commit => exact .monitored job commit
  | reconciled job lands => exact .reconciled job

/-- A job under way was under way before, or its first half is the turn. -/
theorem Flight.next_jobs (s : Flight) (turn : Turn) :
    (∀ work, (s.next turn).discovery = some work → s.discovery = some work ∨
      ∃ discover checkedAt now, turn = .takeDiscovery discover checkedAt now ∧
        takeDiscovery discover checkedAt now s.world.stored.resource = some work) ∧
    (∀ work, (s.next turn).monitor = some work → s.monitor = some work ∨
      ∃ check checkedAt now, turn = .takeMonitor check checkedAt now ∧
        takeMonitor check checkedAt now s.world.stored.resource = some work) ∧
    (∀ p, (s.next turn).reconcile = some p → s.reconcile = some p ∨
      ∃ now faults w', turn = .prepare now faults ∧
        Controller.prepare .scheduled now (s.world.meet faults) = .ok p w') := by
  cases turn with
  | takeDiscovery discover checkedAt now =>
    unfold Flight.next
    dsimp only
    split
    · exact ⟨fun _ => Or.inl, fun _ => Or.inl, fun _ => Or.inl⟩
    · exact ⟨fun work h => Or.inr ⟨_, _, _, rfl, h⟩, fun _ => Or.inl, fun _ => Or.inl⟩
  | takeMonitor check checkedAt now =>
    unfold Flight.next
    dsimp only
    split
    · exact ⟨fun _ => Or.inl, fun _ => Or.inl, fun _ => Or.inl⟩
    · exact ⟨fun _ => Or.inl, fun work h => Or.inr ⟨_, _, _, rfl, h⟩, fun _ => Or.inl⟩
  | prepare now faults =>
    unfold Flight.next
    dsimp only
    split
    · exact ⟨fun _ => Or.inl, fun _ => Or.inl, fun _ => Or.inl⟩
    · cases hrun : Controller.prepare .scheduled now (s.world.meet faults) with
      | error e w' => exact ⟨fun _ => Or.inl, fun _ => Or.inl, fun _ => Or.inl⟩
      | ok p w' =>
        refine ⟨fun _ => Or.inl, fun _ => Or.inl, fun p' h => Or.inr ⟨now, faults, w', rfl, ?_⟩⟩
        cases h
        exact hrun
  | editSpec spec | environment cluster => exact ⟨fun _ => Or.inl, fun _ => Or.inl, fun _ => Or.inl⟩
  | commitDiscovery faults => exact ⟨fun _ h => (by cases h), fun _ => Or.inl, fun _ => Or.inl⟩
  | commitMonitor faults => exact ⟨fun _ => Or.inl, fun _ h => (by cases h), fun _ => Or.inl⟩
  | commitReconcile faults => exact ⟨fun _ => Or.inl, fun _ => Or.inl, fun _ h => (by cases h)⟩

/-! ## 3. Jobs that do not overlap

When every job commits before the next one starts, the turns are the steps of `System`. -/

/-- The jobs overwrite the failures of the world they start in, so the rest decides. -/
theorem meet_congr {w w' : World} (h : w.visible = w'.visible) (faults : List (Option Fault)) :
    w.meet faults = w'.meet faults := by
  obtain ⟨hstored, hcluster, hwrites⟩ :
      w.stored = w'.stored ∧ w.cluster = w'.cluster ∧ w.writes = w'.writes := by
    simpa [World.visible] using h
  simp [World.meet, hstored, hcluster, hwrites]

theorem next_congr {w w' : World} (h : w.visible = w'.visible) (step : Step) :
    (w.next step).visible = (w'.next step).visible := by
  cases step with
  | discover | monitor | reconcile => simp only [World.next, meet_congr h]
  | editSpec | environment =>
    obtain ⟨hstored, hcluster, hwrites⟩ :
        w.stored = w'.stored ∧ w.cluster = w'.cluster ∧ w.writes = w'.writes := by
      simpa [World.visible] using h
    simp [World.visible, World.next, hstored, hcluster, hwrites]

/-- A whole job is its first half and its second, unless its first call fails. -/
theorem runJob_halves {W : Type} (take : PgBouncerAurora → Option W)
    (commit : W → PgBouncerAurora → Option Status) (w : World) :
    (final (runJob take commit) w).visible = w.visible ∨
    ∃ faults, (final (runJob take commit) w).visible
      = (w.land commit faults (take w.stored.resource)).visible := by
  cases hg : getResource w with
  | error e w₁ =>
    have hrun : runJob take commit w = .error e w₁ := bind_eq_error.mpr (Or.inl hg)
    left
    rw [final_of_error hrun]
    exact getResource_keeps.of_error hg
  | ok resource w₁ =>
    obtain ⟨hv, hidle, hcommit⟩ := runJob_of_read take commit hg
    right
    refine ⟨w₁.faults, ?_⟩
    cases ht : take w.stored.resource with
    | none =>
      rw [final_of_ok (hidle ht)]
      exact hv
    | some work =>
      rw [final, hcommit work ht]
      exact congrArg (fun v => (final (commitStatus (commit work)) v).visible)
        (meet_congr hv w₁.faults)

theorem land_meet {W : Type} (commit : W → PgBouncerAurora → Option Status) (w : World)
    (before faults : List (Option Fault)) (job : Option W) :
    ((w.meet before).land commit faults job).visible = (w.land commit faults job).visible := by
  cases job <;> rfl

/-- **A step is a few turns** that leave nothing under way. -/
theorem step_turns (w : World) (step : Step) :
    ∃ turns, ∃ w', Machine.run Flight.next { world := w } turns = { world := w' } ∧
      w'.visible = (w.next step).visible := by
  cases step with
  | discover discover checkedAt now faults =>
    rcases runJob_halves (takeDiscovery discover checkedAt now) DiscoveryWork.commit
      (w.meet faults) with hnothing | ⟨faults', hhalves⟩
    · exact ⟨[], w, rfl, hnothing.symm⟩
    · exact ⟨[.takeDiscovery discover checkedAt now, .commitDiscovery faults'], _, rfl,
        (land_meet _ w faults faults' _).symm.trans hhalves.symm⟩
  | monitor check checkedAt now faults =>
    rcases runJob_halves (takeMonitor check checkedAt now) MonitorWork.commit
      (w.meet faults) with hnothing | ⟨faults', hhalves⟩
    · exact ⟨[], w, rfl, hnothing.symm⟩
    · exact ⟨[.takeMonitor check checkedAt now, .commitMonitor faults'], _, rfl,
        (land_meet _ w faults faults' _).symm.trans hhalves.symm⟩
  | reconcile now faults =>
    cases h : prepare .scheduled now (w.meet faults) with
    | error e w₁ =>
      have hrun : reconcile .scheduled now (w.meet faults) = .error e w₁ :=
        bind_eq_error.mpr (Or.inl h)
      refine ⟨[.prepare now faults], w₁, by simp [Flight.next, h], ?_⟩
      rw [World.next, final_of_error hrun]
    | ok p w₁ =>
      refine ⟨[.prepare now faults, .commitReconcile w₁.faults],
        w₁.land Prepared.commit w₁.faults (some p), by simp [Flight.next, h], ?_⟩
      have hrun : reconcile .scheduled now (w.meet faults)
          = (commitStatus p.commit >>= fun _ => pure p) w₁ := by
        simp only [reconcile, bind, EStateM.bind, h]
        rfl
      rw [World.next, final, hrun]
      show (final (commitStatus p.commit) w₁).visible = _
      unfold final
      simp only [bind, EStateM.bind]
      cases commitStatus p.commit w₁ <;> rfl
  | editSpec spec => exact ⟨[.editSpec spec], _, rfl, rfl⟩
  | environment cluster => exact ⟨[.environment cluster], _, rfl, rfl⟩

/-- **A run of whole jobs is a run of turns**, so what holds of every interleaving holds of the
steps of `System`. -/
theorem run_turns (w : World) (steps : List Step) :
    ∃ turns, ∃ w', Machine.run Flight.next { world := w } turns = { world := w' } ∧
      w'.visible = (Machine.run World.next w steps).visible := by
  suffices h : ∀ v : World, v.visible = w.visible →
      ∃ turns, ∃ w', Machine.run Flight.next { world := v } turns = { world := w' } ∧
        w'.visible = (Machine.run World.next w steps).visible from h w rfl
  induction steps generalizing w with
  | nil => exact fun v hv => ⟨[], v, rfl, hv⟩
  | cons step steps ih =>
    intro v hv
    obtain ⟨first, v₁, hfirst, hv₁⟩ := step_turns v step
    obtain ⟨rest, w', hrest, hw'⟩ := ih (w.next step) v₁ (hv₁.trans (next_congr hv step))
    exact ⟨first ++ rest, w', by rw [Machine.run_append, hfirst, hrest], hw'⟩

end Controller

end AuroraOperator

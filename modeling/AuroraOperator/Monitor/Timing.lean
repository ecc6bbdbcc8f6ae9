/-
# How long the probes of a pool take

The pool of `Monitor.lean` says what may happen, not when.  This file adds a clock.  A probe ends at
the latest when its own timeout has run out, and is the only thing that takes time: the clock moves
on only when no goroutine can take another step.  The job's deadline may cancel it from some time
on.

With `w` workers and `n` jobs, a job is handed out only when every worker has had as many jobs as
timeouts have passed.  So the last job is handed out before `rounds n w - 1` timeouts have passed
(`OnTime.feed`), and all is done within `rounds n w` of them.  A later deadline does not come in
time to cancel anything, and `Check` reports on every instance (`reported_before_deadline`).
-/
import AuroraOperator.Monitor.Pool

namespace AuroraOperator

namespace Monitor

open Planner Render
open Postgres (Credentials)

/-! ## 1. Runs in time -/

/-- How often `w` workers must take a job until `n` jobs are done. -/
def rounds (n w : Nat) : Nat := (n + w - 1) / w

/-- A pool, the time since the job began, and when each worker got the job it has. -/
structure Timed where
  pool : Pool
  now : Int := 0
  since : Nat → Int := fun _ => 0

/-- A step that takes no time: neither the end of a probe nor the end of the job. -/
def Prompt (s : Pool) : Action → Prop
  | .cancel _ => False
  | .work i => ∀ inst, s.workers[i]? ≠ some (.probing inst)
  | _ => True

def Timed.started (t : Timed) : Action → Nat → Int
  | .feed i => Function.update t.since i t.now
  | _ => t.since

inductive Timed.Step (b : Batch) (timeout deadline : Int) (t : Timed) : Timed → Prop
  | prompt (a : Action) (s : Pool) : Prompt t.pool a → b.step t.pool a = some s →
      Step b timeout deadline t { t with pool := s, since := t.started a }
  | probe (i : Nat) (inst : InstanceObservation) (s : Pool) :
      t.pool.workers[i]? = some (.probing inst) → b.step t.pool (.work i) = some s →
      Step b timeout deadline t { t with pool := s }
  | cancel (cause : String) (s : Pool) : deadline ≤ t.now →
      b.step t.pool (.cancel cause) = some s → Step b timeout deadline t { t with pool := s }
  | wait (d : Int) : 0 < d → (∀ a, Prompt t.pool a → b.step t.pool a = none) →
      (∀ i inst, t.pool.workers[i]? = some (.probing inst) → t.now + d ≤ t.since i + timeout) →
      Step b timeout deadline t { t with now := t.now + d }

theorem workers_pos (job : Job) (n : Nat) : 0 < job.workers n := by
  unfold Job.workers defaultWorkersPerCR
  dsimp only
  split <;> split at * <;> omega

/-! ## 2. A pool that is not cancelled -/

/-- A worker that is on its way to report a status. -/
def Batch.Healthy (b : Batch) : Worker → Prop
  | .idle | .gone => True
  | .probing inst => b.Clean inst
  | .checked _ status => monitorStatusIsConfigurationFailure status = false
  | .failing _ => False
  | .reporting result => ∃ status, result.answer = .ok status

/-- The worker owes the result of this instance. -/
def Worker.owes (name : String) : Worker → Prop
  | .idle | .gone => False
  | .probing inst | .checked inst _ => inst.name = name
  | .failing result | .reporting result => result.name = name

structure Batch.Live (b : Batch) (s : Pool) : Prop where
  running : s.returned = none
  uncanceled : s.canceled = none
  staffed : s.workers ≠ []
  closed : s.jobsClosed = true → s.pending = []
  gone : .gone ∈ s.workers → s.jobsClosed = true
  pending : ∀ inst ∈ s.pending, b.Clean inst
  workers : ∀ w ∈ s.workers, b.Healthy w
  results : ∀ r ∈ s.results, ∃ status, r.answer = .ok status
  ended : s.resultsClosed = true → ∀ w ∈ s.workers, w = .gone
  /-- what is not collected is somewhere -/
  owed : ∀ name ∈ s.remaining, (∃ inst ∈ s.pending, inst.name = name) ∨
    (∃ w ∈ s.workers, w.owes name) ∨ ∃ r ∈ s.results, r.name = name

/-- What a worker of such a pool does. -/
inductive LiveWork (b : Batch) (s : Pool) : Worker → Worker → List ProbeResult → Prop
  | leave : s.jobsClosed = true → LiveWork b s .idle .gone []
  | probe (inst : InstanceObservation) :
      LiveWork b s (.probing inst) (.checked inst (b.check inst)) []
  | judge (inst : InstanceObservation) (status judged : HealthStatus) :
      LiveWork b s (.checked inst status) (.reporting ⟨inst.name, .ok judged⟩) []
  | report (result : ProbeResult) : LiveWork b s (.reporting result) .idle [result]

/-- What such a pool does. -/
inductive LiveMoves (b : Batch) (s : Pool) : Action → Pool → Prop
  | feed (i : Nat) (inst : InstanceObservation) (pending : List InstanceObservation) :
      s.pending = inst :: pending → s.workers[i]? = some .idle → s.jobsClosed = false →
      LiveMoves b s (.feed i) { s.setWorker i (.probing inst) with pending := pending }
  | closeJobs : s.pending = [] → LiveMoves b s .closeJobs { s with jobsClosed := true }
  | work (i : Nat) (w w' : Worker) (sent : List ProbeResult) : s.workers[i]? = some w →
      LiveWork b s w w' sent →
      LiveMoves b s (.work i) { s.setWorker i w' with results := s.results ++ sent }
  | closeResults : (∀ w ∈ s.workers, w = .gone) →
      LiveMoves b s .closeResults { s with resultsClosed := true }
  | take (name : String) (status : HealthStatus) (results : List ProbeResult) :
      s.results = ⟨name, .ok status⟩ :: results →
      LiveMoves b s .collect { s with results := results
                                      out := s.out.insert name status
                                      remaining := s.remaining.erase name }
  | finish : LiveMoves b s .collect (s.finish (.ok s.out))

section LiveMoves

variable {b : Batch} {s s' : Pool}

theorem isGone_iff {w : Worker} : w.isGone = true ↔ w = .gone := by
  cases w <;> simp [Worker.isGone]

theorem live_work (h : b.Live s) {i : Nat} {w : Worker} (hw : s.workers[i]? = some w)
    (hstep : b.work s i w = some s') :
    ∃ w' sent, LiveWork b s w w' sent ∧
      s' = { s.setWorker i w' with results := s.results ++ sent } := by
  have hhealthy := h.workers w (List.mem_of_getElem? hw)
  cases w with
  | idle =>
    simp only [Batch.work, Option.ite_none_right_eq_some, Option.some.injEq] at hstep
    obtain ⟨hclosed, rfl⟩ := hstep
    exact ⟨_, _, .leave hclosed, Pool.keep_results ..⟩
  | probing inst =>
    cases hstep
    exact ⟨_, _, .probe inst, Pool.keep_results ..⟩
  | checked inst status =>
    have hjudge : b.judge s.canceled inst status =
        .reporting ⟨inst.name, .ok { status with readyReplicas := b.readyReplicas inst.name }⟩ := by
      have hclean : monitorStatusIsConfigurationFailure status = false := hhealthy
      simp [Batch.judge, h.uncanceled, hclean]
    simp only [Batch.work, hjudge, Option.some.injEq] at hstep
    subst hstep
    exact ⟨_, _, .judge inst status _, Pool.keep_results ..⟩
  | failing result => exact hhealthy.elim
  | reporting result =>
    simp only [Batch.work, Option.ite_none_right_eq_some, Option.some.injEq] at hstep
    exact ⟨_, _, .report result, hstep.2.symm⟩
  | gone => cases hstep

theorem live_collect (h : b.Live s) (hstep : s.collect = some s') : LiveMoves b s .collect s' := by
  unfold Pool.collect at hstep
  split at hstep
  · cases hstep
    exact .finish
  · next hremaining =>
    split at hstep
    · next name status results heq =>
      cases hstep
      exact .take name status results heq
    · next name err results heq =>
      obtain ⟨status, hok⟩ := h.results _ (heq ▸ List.mem_cons_self)
      cases hok
    · next hnone =>
      split at hstep
      · next hclosed =>
        -- the results are closed with one missing, which nobody is left to owe
        have hallgone := h.ended hclosed
        obtain ⟨w, hw⟩ := List.exists_mem_of_ne_nil _ h.staffed
        have hpending := h.closed (h.gone (hallgone w hw ▸ hw))
        obtain ⟨name, hname⟩ : ∃ name, name ∈ s.remaining := by
          by_contra hempty
          refine hremaining (Std.ExtTreeMap.isEmpty_iff.mpr ?_)
          exact Std.ExtTreeMap.eq_empty_iff_forall_not_mem.mpr fun name hname => hempty ⟨name, hname⟩
        rcases h.owed name hname with ⟨inst, hinst, -⟩ | ⟨w', hw', howes⟩ | ⟨r, hr, -⟩
        · rw [hpending] at hinst
          cases hinst
        · rw [hallgone w' hw'] at howes
          exact howes.elim
        · rw [hnone] at hr
          cases hr
      · cases hstep

theorem live_moves (h : b.Live s) {a : Action} (ha : ∀ cause, a ≠ .cancel cause)
    (hstep : b.step s a = some s') : LiveMoves b s a s' := by
  cases a with
  | cancel cause => exact absurd rfl (ha cause)
  | feed i =>
    simp only [Batch.step] at hstep
    split at hstep
    · next inst pending hopen hpending hidle =>
      cases hstep
      exact .feed i inst pending hpending hidle hopen
    · cases hstep
  | closeJobs =>
    simp only [Batch.step, Option.ite_none_right_eq_some, Option.some.injEq] at hstep
    obtain ⟨hguard, rfl⟩ := hstep
    have hboth : s.jobsClosed = false ∧ s.pending = [] := by simpa [h.uncanceled] using hguard
    exact .closeJobs hboth.2
  | work i =>
    obtain ⟨w, hw, hwork⟩ := Option.bind_eq_some_iff.mp hstep
    obtain ⟨w', sent, hlive, rfl⟩ := live_work h hw hwork
    exact .work i w w' sent hw hlive
  | abandon i => simp [Batch.step, h.uncanceled] at hstep
  | closeResults =>
    simp only [Batch.step, Bool.and_eq_true, List.all_eq_true, isGone_iff,
      Option.ite_none_right_eq_some, Option.some.injEq] at hstep
    obtain ⟨⟨-, hgone⟩, rfl⟩ := hstep
    exact .closeResults hgone
  | collect =>
    simp only [Batch.step, Option.ite_none_right_eq_some] at hstep
    exact live_collect h hstep.2
  | giveUp => simp [Batch.step, h.running, h.uncanceled] at hstep

end LiveMoves

/-! ## 3. It stays so -/

section StaysLive

variable {b : Batch} {s s' : Pool}

theorem mem_set_of_ne {i : Nat} {w w' x : Worker} (hw : s.workers[i]? = some w) (hx : x ∈ s.workers)
    (hne : x ≠ w) : x ∈ (s.setWorker i w').workers := by
  obtain ⟨j, hj⟩ := List.mem_iff_getElem?.mp hx
  have hij : i ≠ j := by
    rintro rfl
    exact hne (Option.some.inj (hj.symm.trans hw))
  refine List.mem_of_getElem? (i := j) ?_
  rw [Pool.setWorker, List.getElem?_set_ne hij, hj]

theorem mem_set_self {i : Nat} {w w' : Worker} (hw : s.workers[i]? = some w) :
    w' ∈ (s.setWorker i w').workers :=
  List.mem_set (List.getElem?_eq_some_iff.mp hw).1 w'

/-- A worker's move keeps it healthy, and what it owed it owes or has sent. -/
theorem LiveWork.keeps {w w' : Worker} {sent : List ProbeResult} (h : LiveWork b s w w' sent)
    (hw : b.Healthy w) :
    b.Healthy w' ∧ (∀ r ∈ sent, ∃ status, r.answer = .ok status) ∧
      ∀ name, w.owes name → w'.owes name ∨ ∃ r ∈ sent, r.name = name := by
  cases h with
  | leave => exact ⟨trivial, by simp, fun _ h => h.elim⟩
  | probe inst => exact ⟨hw, by simp, fun _ h => Or.inl h⟩
  | judge inst status judged => exact ⟨⟨judged, rfl⟩, by simp, fun _ h => Or.inl h⟩
  | report result =>
    exact ⟨trivial, List.forall_mem_singleton.mpr hw,
      fun name h => Or.inr ⟨result, List.mem_singleton_self _, h⟩⟩

/-- A worker that is not gone stays unless the jobs are closed. -/
theorem LiveWork.gone {w w' : Worker} {sent : List ProbeResult} (h : LiveWork b s w w' sent)
    (hw' : w' = .gone) : s.jobsClosed = true := by
  cases h with
  | leave hclosed => exact hclosed
  | _ => cases hw'

theorem LiveWork.not_gone {w w' : Worker} {sent : List ProbeResult} (h : LiveWork b s w w' sent) :
    w ≠ .gone := by
  rintro rfl
  cases h

/-- **A step that is not a cancellation** keeps the pool live, or is the return of a map. -/
theorem Batch.Live.step (h : b.Live s) {a : Action} (hstep : LiveMoves b s a s') :
    b.Live s' ∨ ∃ out, s'.returned = some (.ok out) := by
  cases hstep with
  | feed i inst pending hpending hidle hopen =>
    left
    have hmem : ∀ x ∈ pending, x ∈ s.pending := fun x hx => hpending ▸ List.mem_cons_of_mem inst hx
    have hinst : inst ∈ s.pending := hpending ▸ List.mem_cons_self
    refine ⟨h.running, h.uncanceled, by simpa [Pool.setWorker] using h.staffed, ?_, ?_, ?_, ?_,
      h.results, ?_, ?_⟩
    · intro hclosed
      rw [show s.jobsClosed = true from hclosed] at hopen
      cases hopen
    · intro hgone
      rcases List.mem_or_eq_of_mem_set hgone with hold | hnew
      · exact h.gone hold
      · cases hnew
    · exact fun x hx => h.pending x (hmem x hx)
    · intro w hw
      rcases List.mem_or_eq_of_mem_set hw with hold | rfl
      · exact h.workers w hold
      · exact h.pending inst hinst
    · intro hended
      cases h.ended hended _ (List.mem_of_getElem? hidle)
    · intro name hname
      rcases h.owed name hname with ⟨x, hx, hxname⟩ | ⟨w, hw, howes⟩ | hsent
      · rw [hpending] at hx
        rcases List.mem_cons.mp hx with rfl | hx
        · exact Or.inr (Or.inl ⟨_, mem_set_self hidle, hxname⟩)
        · exact Or.inl ⟨x, hx, hxname⟩
      · have hne : w ≠ .idle := by
          rintro rfl
          exact howes
        exact Or.inr (Or.inl ⟨w, mem_set_of_ne hidle hw hne, howes⟩)
      · exact Or.inr (Or.inr hsent)
  | closeJobs hpending =>
    exact Or.inl ⟨h.running, h.uncanceled, h.staffed, fun _ => hpending, fun _ => rfl, h.pending,
      h.workers, h.results, h.ended, h.owed⟩
  | work i w w' sent hw hwork =>
    left
    obtain ⟨hhealthy, hsent, howes⟩ := hwork.keeps (h.workers w (List.mem_of_getElem? hw))
    refine ⟨h.running, h.uncanceled, by simpa [Pool.setWorker] using h.staffed, h.closed, ?_,
      h.pending, ?_, List.forall_mem_append.mpr ⟨h.results, hsent⟩, ?_, ?_⟩
    · intro hgone
      rcases List.mem_or_eq_of_mem_set hgone with hold | hnew
      · exact h.gone hold
      · exact hwork.gone hnew.symm
    · intro x hx
      rcases List.mem_or_eq_of_mem_set hx with hold | rfl
      · exact h.workers x hold
      · exact hhealthy
    · intro hended
      exact absurd (h.ended hended w (List.mem_of_getElem? hw)) hwork.not_gone
    · intro name hname
      rcases h.owed name hname with hpending | ⟨x, hx, hxowes⟩ | ⟨r, hr, hrname⟩
      · exact Or.inl hpending
      · by_cases hxw : x = w
        · subst hxw
          rcases howes name hxowes with hstill | ⟨r, hr, hrname⟩
          · exact Or.inr (Or.inl ⟨w', mem_set_self hw, hstill⟩)
          · exact Or.inr (Or.inr ⟨r, List.mem_append_right _ hr, hrname⟩)
        · exact Or.inr (Or.inl ⟨x, mem_set_of_ne hw hx hxw, hxowes⟩)
      · exact Or.inr (Or.inr ⟨r, List.mem_append_left _ hr, hrname⟩)
  | closeResults hgone =>
    exact Or.inl ⟨h.running, h.uncanceled, h.staffed, h.closed, h.gone, h.pending, h.workers,
      h.results, fun _ => hgone, h.owed⟩
  | take name status results heq =>
    left
    refine ⟨h.running, h.uncanceled, h.staffed, h.closed, h.gone, h.pending, h.workers,
      fun r hr => h.results r (heq ▸ List.mem_cons_of_mem _ hr), h.ended, ?_⟩
    intro other hother
    rw [Std.ExtTreeMap.mem_erase] at hother
    obtain ⟨hne, hother⟩ := hother
    rcases h.owed other hother with hpending | howes | ⟨r, hr, hrname⟩
    · exact Or.inl hpending
    · exact Or.inr (Or.inl howes)
    · rw [heq] at hr
      rcases List.mem_cons.mp hr with rfl | hr
      · exact absurd (compare_eq_iff_eq.mpr hrname) hne
      · exact Or.inr (Or.inr ⟨r, hr, hrname⟩)
  | finish => exact Or.inr ⟨s.out, rfl⟩

end StaysLive

/-! ## 4. The clock -/

theorem le_mul_rounds {n w : Nat} (hw : 0 < w) : n ≤ w * rounds n w := by
  have hdiv := Nat.div_add_mod (n + w - 1) w
  have hmod := Nat.mod_lt (n + w - 1) hw
  unfold rounds
  omega

/-- `fed` counts the jobs each worker has had.  While jobs are pending nobody rests, so that no
worker has had fewer jobs than timeouts have passed. -/
structure OnTime (timeout : Int) (n w : Nat) (t : Timed) (fed : Nat → Nat) : Prop where
  size : t.pool.workers.length = w
  total : ∑ i ∈ Finset.range w, fed i + t.pool.pending.length = n
  ends : ∀ i inst, t.pool.workers[i]? = some (.probing inst) → t.now ≤ t.since i + timeout
  early : ∀ i inst, t.pool.workers[i]? = some (.probing inst) →
    t.since i + timeout ≤ rounds n w * timeout
  counted : ∀ i inst, t.pool.workers[i]? = some (.probing inst) →
    t.since i + timeout ≤ fed i * timeout
  waiting : t.pool.pending ≠ [] → ∀ i < w, t.now ≤ fed i * timeout
  inTime : t.now ≤ rounds n w * timeout

section OnTime

variable {b : Batch} {timeout deadline : Int} {n w : Nat} {t t' : Timed} {fed : Nat → Nat}

/-- A job is handed out one timeout before the end, or earlier. -/
theorem OnTime.early_feed (h : OnTime timeout n w t fed) (hw : 0 < w) (htimeout : 0 < timeout)
    (hpending : t.pool.pending ≠ []) : t.now + timeout ≤ rounds n w * timeout := by
  by_contra hlate
  have hcount : ∀ i ∈ Finset.range w, rounds n w ≤ fed i := by
    intro i hi
    have hnow := h.waiting hpending i (Finset.mem_range.mp hi)
    by_contra hfew
    have hle : ((fed i : Int) + 1) * timeout ≤ rounds n w * timeout :=
      mul_le_mul_of_nonneg_right (by omega) htimeout.le
    rw [add_mul, one_mul] at hle
    omega
  -- then every worker has had a full share, and no job is left
  have hshare : w * rounds n w ≤ ∑ i ∈ Finset.range w, fed i := by
    simpa using Finset.card_nsmul_le_sum _ _ _ hcount
  have hleft := List.length_pos_of_ne_nil hpending
  have htotal := h.total
  have hall := @le_mul_rounds n w hw
  omega

theorem OnTime.feed (h : OnTime timeout n w t fed) (hw : 0 < w) (htimeout : 0 < timeout) {i : Nat}
    {inst : InstanceObservation} {pending : List InstanceObservation}
    (hpending : t.pool.pending = inst :: pending) (hidle : t.pool.workers[i]? = some .idle) :
    OnTime timeout n w
      { t with pool := { t.pool.setWorker i (.probing inst) with pending := pending }
               since := Function.update t.since i t.now } (Function.update fed i (fed i + 1)) := by
  have hsome : t.pool.pending ≠ [] := by simp [hpending]
  have hi : i < w := h.size ▸ (List.getElem?_eq_some_iff.mp hidle).1
  have hother : ∀ {j x}, (t.pool.setWorker i (.probing inst)).workers[j]? = some (.probing x) →
      j ≠ i → t.pool.workers[j]? = some (.probing x) := by
    intro j x hj hne
    rwa [Pool.setWorker, List.getElem?_set_ne hne.symm] at hj
  constructor
  · simpa [Pool.setWorker] using h.size
  · have hsum : ∑ j ∈ Finset.range w, Function.update fed i (fed i + 1) j =
        ∑ j ∈ Finset.range w, fed j + 1 := by
      rw [Finset.sum_update_of_mem (Finset.mem_range.mpr hi),
        ← Finset.add_sum_erase _ _ (Finset.mem_range.mpr hi), Finset.sdiff_singleton_eq_erase]
      omega
    have := h.total
    rw [hpending, List.length_cons] at this
    rw [hsum]
    dsimp only
    omega
  · intro j x hj
    by_cases hji : j = i
    · subst hji
      simpa using htimeout.le
    · simpa [hji] using h.ends j x (hother hj hji)
  · intro j x hj
    by_cases hji : j = i
    · subst hji
      simpa using h.early_feed hw htimeout hsome
    · simpa [hji] using h.early j x (hother hj hji)
  · intro j x hj
    by_cases hji : j = i
    · subst hji
      have := h.waiting hsome j hi
      simp only [Function.update_self]
      push_cast
      rw [add_mul, one_mul]
      omega
    · simpa [hji] using h.counted j x (hother hj hji)
  · intro _ j hj
    have hnow := h.waiting hsome j hj
    by_cases hji : j = i
    · subst hji
      simp only [Function.update_self]
      push_cast
      rw [add_mul, one_mul]
      omega
    · simpa [hji] using hnow
  · exact h.inTime

/-- Whatever starts no probe and takes no job. -/
theorem OnTime.other (h : OnTime timeout n w t fed) {s : Pool}
    (hsize : s.workers.length = t.pool.workers.length)
    (hprobing : ∀ (i : Nat) (inst : InstanceObservation), s.workers[i]? = some (.probing inst) →
      t.pool.workers[i]? = some (.probing inst))
    (hpending : s.pending = t.pool.pending) : OnTime timeout n w { t with pool := s } fed where
  size := hsize.trans h.size
  total := hpending ▸ h.total
  ends i inst hi := h.ends i inst (hprobing i inst hi)
  early i inst hi := h.early i inst (hprobing i inst hi)
  counted i inst hi := h.counted i inst (hprobing i inst hi)
  waiting hsome := h.waiting (hpending ▸ hsome)
  inTime := h.inTime

theorem LiveWork.not_probing {s : Pool} {v v' : Worker} {sent : List ProbeResult}
    (h : LiveWork b s v v' sent) (inst : InstanceObservation) : v' ≠ .probing inst := by
  cases h <;> simp

theorem OnTime.moves (h : OnTime timeout n w t fed) (hw : 0 < w) (htimeout : 0 < timeout)
    {a : Action} {s : Pool} (hstep : LiveMoves b t.pool a s) :
    ∃ fed', OnTime timeout n w { t with pool := s, since := t.started a } fed' := by
  cases hstep with
  | feed i inst pending hpending hidle hopen =>
    exact ⟨_, h.feed hw htimeout hpending hidle⟩
  | work i v v' sent hv hwork =>
    refine ⟨fed, h.other (by simp [Pool.setWorker]) (fun j inst hj => ?_) rfl⟩
    by_cases hij : i = j
    · subst hij
      have hlt := (List.getElem?_eq_some_iff.mp hv).1
      simp only [Pool.setWorker, List.getElem?_set_self hlt, Option.some.injEq] at hj
      exact absurd hj (hwork.not_probing inst)
    · simpa [Pool.setWorker, List.getElem?_set_ne hij] using hj
  | closeJobs | closeResults | take | finish =>
    exact ⟨fed, h.other rfl (fun _ _ hi => hi) rfl⟩

/-- When only time can pass, every worker is probing or gone, and some worker is probing. -/
theorem quiet_probing (hlive : b.Live t.pool) (hroom : b.Room t.pool)
    (hquiet : ∀ a, Prompt t.pool a → b.step t.pool a = none) :
    (∃ (i : Nat) (inst : InstanceObservation), t.pool.workers[i]? = some (.probing inst)) ∧
      (t.pool.pending ≠ [] → ∀ i < t.pool.workers.length,
        ∃ inst, t.pool.workers[i]? = some (.probing inst)) := by
  have hworker : ∀ (i : Nat) (v : Worker), t.pool.workers[i]? = some v →
      v = .gone ∨ ∃ inst, v = .probing inst := by
    intro i v hv
    by_contra hnot
    obtain ⟨hgone, hprobing⟩ := not_or.mp hnot
    have hprompt : Prompt t.pool (.work i) := fun inst hi =>
      hprobing ⟨inst, Option.some.inj (hv.symm.trans hi)⟩
    have hwork : b.work t.pool i v = none := by
      simpa [Batch.step, hv] using hquiet (.work i) hprompt
    have hmem := List.mem_of_getElem? hv
    cases v with
    | gone => exact hgone rfl
    | probing inst => exact hprobing ⟨inst, rfl⟩
    | checked inst status => cases hwork
    | failing result => exact hlive.workers _ hmem
    | reporting result =>
      have hbusy : 1 ≤ (t.pool.workers.map Worker.busy).sum :=
        List.single_le_sum (by simp) _ (List.mem_map_of_mem (f := Worker.busy) hmem)
      have hspace : t.pool.results.length < b.ready.length := by
        unfold Batch.Room at hroom
        omega
      simp [Batch.work, hspace] at hwork
    | idle =>
      -- the feeder has a job for it, or could close the jobs
      have hopen : t.pool.jobsClosed = false := by simpa [Batch.work] using hwork
      rcases hpending : t.pool.pending with - | ⟨inst, pending⟩
      · have := hquiet .closeJobs trivial
        simp [Batch.step, hopen, hpending] at this
      · have := hquiet (.feed i) trivial
        simp [Batch.step, hopen, hpending, hv] at this
  constructor
  · by_contra hnone
    have hallgone : ∀ v ∈ t.pool.workers, v = .gone := by
      intro v hv
      obtain ⟨i, hi⟩ := List.mem_iff_getElem?.mp hv
      rcases hworker i v hi with hgone | ⟨inst, rfl⟩
      · exact hgone
      · exact absurd ⟨i, inst, hi⟩ hnone
    have hended : t.pool.resultsClosed = true := by
      have hclose := hquiet .closeResults trivial
      have hall : t.pool.workers.all (·.isGone) = true := by
        simpa [isGone_iff] using hallgone
      simpa [Batch.step, hall] using hclose
    have hcollect := hquiet .collect trivial
    simp only [Batch.step, hlive.running, Option.isNone_none, if_true] at hcollect
    unfold Pool.collect at hcollect
    split at hcollect
    · cases hcollect
    · split at hcollect <;> cases hcollect
  · intro hpending i hi
    rcases hworker i _ (List.getElem?_eq_getElem hi) with hgone | ⟨inst, hinst⟩
    · have hmem : Worker.gone ∈ t.pool.workers := hgone ▸ List.getElem_mem hi
      exact absurd (hlive.closed (hlive.gone hmem)) hpending
    · exact ⟨inst, by rw [List.getElem?_eq_getElem hi, hinst]⟩

theorem OnTime.wait (h : OnTime timeout n w t fed) (hlive : b.Live t.pool) (hroom : b.Room t.pool)
    {d : Int} (hquiet : ∀ a, Prompt t.pool a → b.step t.pool a = none)
    (hends : ∀ i inst, t.pool.workers[i]? = some (.probing inst) →
      t.now + d ≤ t.since i + timeout) :
    OnTime timeout n w { t with now := t.now + d } fed := by
  obtain ⟨⟨i, inst, hi⟩, hall⟩ := quiet_probing hlive hroom hquiet
  refine ⟨h.size, h.total, hends, h.early, h.counted, fun hpending j hj => ?_, ?_⟩
  · obtain ⟨x, hx⟩ := hall hpending j (h.size.symm ▸ hj)
    exact (hends j x hx).trans (h.counted j x hx)
  · exact (hends i inst hi).trans (h.early i inst hi)

end OnTime

/-! ## 5. Before the deadline -/

/-- What has been returned stays. -/
theorem Moves.returned {b : Batch} {s s' : Pool} (h : Moves b s s')
    {result : Except String (StringMap HealthStatus)} (hs : s.returned = some result) :
    s'.returned = some result := by
  cases h with
  | finish results other hnone =>
    rw [hs] at hnone
    cases hnone
  | _ => exact hs

/-- What holds at every time of a run whose deadline is late enough. -/
structure Punctual (b : Batch) (unready : StringMap HealthStatus) (timeout : Int) (n w : Nat)
    (t : Timed) : Prop where
  sound : b.Inv unready t.pool
  room : b.Room t.pool
  state : (b.Live t.pool ∧ ∃ fed, OnTime timeout n w t fed) ∨
    ∃ out, t.pool.returned = some (.ok out)

section Punctual

variable {b : Batch} {unready : StringMap HealthStatus} {timeout deadline : Int} {n w : Nat}
  {t t' : Timed}

/-- A step of the pool that is not a cancellation. -/
theorem Punctual.moves (h : Punctual b unready timeout n w t)
    (hnames : (b.ready.map (·.name)).Nodup) (hw : 0 < w) (htimeout : 0 < timeout) {a : Action}
    (ha : ∀ cause, a ≠ .cancel cause) {s : Pool} (hstep : b.step t.pool a = some s) :
    Punctual b unready timeout n w { t with pool := s, since := t.started a } := by
  have hmoves := step_moves hstep
  refine ⟨h.sound.step hnames hmoves, h.room.step hmoves, ?_⟩
  rcases h.state with ⟨hlive, fed, htime⟩ | ⟨out, hout⟩
  · have hlivemoves := live_moves hlive ha hstep
    rcases hlive.step hlivemoves with hlive' | hreturned
    · exact Or.inl ⟨hlive', htime.moves hw htimeout hlivemoves⟩
    · exact Or.inr hreturned
  · exact Or.inr ⟨out, hmoves.returned hout⟩

theorem Punctual.step (h : Punctual b unready timeout n w t)
    (hnames : (b.ready.map (·.name)).Nodup) (hw : 0 < w) (htimeout : 0 < timeout)
    (hlate : rounds n w * timeout < deadline) (hstep : Timed.Step b timeout deadline t t') :
    Punctual b unready timeout n w t' := by
  cases hstep with
  | prompt a s hprompt hs =>
    refine h.moves hnames hw htimeout (fun cause heq => ?_) hs
    rw [heq] at hprompt
    exact hprompt
  | probe i inst s hi hs => exact h.moves hnames hw htimeout (fun _ => by simp) hs
  | cancel cause s hnow hs =>
    have hmoves := step_moves hs
    refine ⟨h.sound.step hnames hmoves, h.room.step hmoves, ?_⟩
    rcases h.state with ⟨-, fed, htime⟩ | ⟨out, hout⟩
    · -- the rounds are over before the deadline
      exact absurd htime.inTime (not_le.mpr (hlate.trans_le hnow))
    · exact Or.inr ⟨out, hmoves.returned hout⟩
  | wait d hd hquiet hends =>
    refine ⟨h.sound, h.room, ?_⟩
    rcases h.state with ⟨hlive, fed, htime⟩ | hreturned
    · exact Or.inl ⟨hlive, fed, htime.wait hlive h.room hquiet hends⟩
    · exact Or.inr hreturned

end Punctual

/-- The job and its deadline run from the same time on. -/
def Job.timed (job : Job) (pods : List Pod) : Timed := { pool := job.pool pods }

section Timed

variable {job : Job} {pods : List Pod} {creds : Credentials String}

theorem live_pool
    (hclean : ∀ inst ∈ job.probed pods, (job.batch pods creds).Clean inst) :
    (job.batch pods creds).Live (job.pool pods) where
  running := rfl
  uncanceled := rfl
  staffed := by
    have hpos : 0 < job.workers (job.probed pods).length := workers_pos job _
    simp [Job.pool, hpos.ne']
  closed h := by cases h
  gone h := by cases List.eq_of_mem_replicate h
  pending := hclean
  workers w hw := by
    rw [List.eq_of_mem_replicate hw]
    trivial
  results r hr := by cases hr
  ended h := by cases h
  owed name hname := Or.inl <| by
    have hlisted := (mem_remaining _ _).mp hname
    obtain ⟨inst, hinst, heq⟩ := List.mem_map.mp hlisted
    exact ⟨inst, hinst, heq⟩

theorem punctual_timed {timeout : Int} (htimeout : 0 < timeout)
    (hclean : ∀ inst ∈ job.probed pods, (job.batch pods creds).Clean inst) :
    Punctual (job.batch pods creds) (job.unready pods) timeout (job.probed pods).length
      (job.workers (job.probed pods).length) (job.timed pods) := by
  have hidle : ∀ (i : Nat) (inst : InstanceObservation),
      (job.pool pods).workers[i]? ≠ some (.probing inst) := by
    intro i inst hi
    cases List.eq_of_mem_replicate (List.mem_of_getElem? hi)
  have hrounds : 0 ≤ (rounds (job.probed pods).length (job.workers (job.probed pods).length) : Int) *
      timeout := mul_nonneg (Int.natCast_nonneg _) htimeout.le
  refine ⟨inv_pool, room_pool, Or.inl ⟨live_pool hclean, fun _ => 0, ?_⟩⟩
  exact ⟨List.length_replicate .., by simp [Job.timed, Job.pool],
    fun i inst hi => absurd hi (hidle i inst), fun i inst hi => absurd hi (hidle i inst),
    fun i inst hi => absurd hi (hidle i inst), fun _ i _ => by simp [Job.timed], hrounds⟩

end Timed

/-- **A deadline after the last round cancels nothing.**  Let no probe be a configuration failure.
In every run in time, `Check` has not been cancelled when it returns, and what it returns is a
report on every instance; and it returns within the rounds. -/
theorem reported_before_deadline {job : Job} {pods : List Pod} {creds : Credentials String}
    {timeout deadline : Int} (hnames : (job.instances.map (·.name)).Nodup)
    (hpods : job.pods = .ok pods) (hcreds : job.credentials = .ok creds)
    (hclean : ¬ job.Misconfigured) (htimeout : 0 < timeout)
    (hlate : rounds (job.probed pods).length (job.pool pods).workers.length * timeout < deadline)
    {t : Timed}
    (hrun : Relation.ReflTransGen (Timed.Step (job.batch pods creds) timeout deadline)
      (job.timed pods) t) :
    (t.pool.returned = none → t.pool.canceled = none ∧
        t.now ≤ rounds (job.probed pods).length (job.pool pods).workers.length * timeout) ∧
      ∀ result, t.pool.returned = some result → ∃ out, result = .ok out ∧ job.Reports pods out := by
  have hsize : (job.pool pods).workers.length = job.workers (job.probed pods).length :=
    List.length_replicate ..
  rw [hsize] at hlate ⊢
  have hprobed : ∀ inst ∈ job.probed pods, (job.batch pods creds).Clean inst := by
    intro inst hinst
    obtain ⟨henabled, hpod⟩ := List.mem_filter.mp hinst
    rw [Batch.Clean, Bool.eq_false_iff]
    intro hfailure
    exact hclean ⟨pods, creds, hpods, hcreds, inst, henabled, by simpa using hpod,
      (configurationFailure_checkInstance creds (job.opened inst) inst).mp hfailure⟩
  have hpunctual : Punctual (job.batch pods creds) (job.unready pods) timeout
      (job.probed pods).length (job.workers (job.probed pods).length) t := by
    induction hrun with
    | refl => exact punctual_timed htimeout hprobed
    | tail _ hstep ih =>
      exact ih.step (probed_nodup hnames) (workers_pos job _) htimeout hlate hstep
  constructor
  · intro hnone
    rcases hpunctual.state with ⟨hlive, fed, htime⟩ | ⟨out, hout⟩
    · exact ⟨hlive.uncanceled, htime.inTime⟩
    · rw [hnone] at hout
      cases hout
  · intro result hresult
    rcases hpunctual.state with ⟨hlive, -⟩ | ⟨out, hout⟩
    · rw [hlive.running] at hresult
      cases hresult
    · cases hresult.symm.trans hout
      exact ⟨out, rfl,
        (reports_of_filled hpods (fun _ => hcreds) (hpunctual.sound.returned out hresult)).1⟩

end Monitor

end AuroraOperator

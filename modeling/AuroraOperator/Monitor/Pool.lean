/-
# What `Check` returns under every scheduling

Three facts about the pool, each an invariant or a measure of its steps.

* **Soundness**: a status on its way to `Check` is that of the probe of the instance it is
  named after, and that probe found no configuration failure.  So a map that is returned was
  filled from every ready instance's own probe (`check_loses_and_mixes_nothing`).
* **Room**: jobs not yet handed out, busy workers and results waiting are never more than the
  ready instances, so that no worker waits for room in the results.
* **Progress**: every step lowers a measure, and a pool in which nobody can move has returned.

The steps are read once, in `step_moves`; everything else is a case analysis over `Moves`.
-/
import AuroraOperator.Monitor

namespace AuroraOperator

namespace Monitor

open Planner Render
open Postgres (Credentials)

/-! ## 1. What a step can do -/

/-- A worker goes from `w` to `w'` and sends `sent`. -/
inductive WorkerMoves (b : Batch) (s : Pool) : Worker → Worker → List ProbeResult → Prop
  | leave : s.jobsClosed = true → WorkerMoves b s .idle .gone []
  | probe (inst : InstanceObservation) :
      WorkerMoves b s (.probing inst) (.checked inst (b.check inst)) []
  | judge (inst : InstanceObservation) (status : HealthStatus) :
      WorkerMoves b s (.checked inst status) (b.judge s.canceled inst status) []
  | fail (result : ProbeResult) : WorkerMoves b s (.failing result) .gone [result]
  | report (result : ProbeResult) : WorkerMoves b s (.reporting result) .idle [result]
  | abandon (result : ProbeResult) : WorkerMoves b s (.reporting result) .gone []

/-- What `Check` may return from the state `s`. -/
inductive Finishes (s : Pool) : Except String (StringMap HealthStatus) → Prop
  | all : s.remaining.isEmpty = true → Finishes s (.ok s.out)
  | error (err : String) : Finishes s (.error err)

/-- The pool goes from `s` to `s'`. -/
inductive Moves (b : Batch) (s : Pool) : Pool → Prop
  | cancel (cause : String) : s.canceled = none → Moves b s { s with canceled := some cause }
  | feed (i : Nat) (inst : InstanceObservation) (pending : List InstanceObservation) :
      s.pending = inst :: pending → s.workers[i]? = some .idle →
      Moves b s { s.setWorker i (.probing inst) with pending := pending }
  | closeJobs : s.jobsClosed = false → Moves b s { s with jobsClosed := true }
  | worker (i : Nat) (w w' : Worker) (sent : List ProbeResult) :
      s.workers[i]? = some w → WorkerMoves b s w w' sent →
      Moves b s { s.setWorker i w' with results := s.results ++ sent }
  | closeResults : s.resultsClosed = false → Moves b s { s with resultsClosed := true }
  | take (name : String) (status : HealthStatus) (results : List ProbeResult) :
      s.results = ⟨name, .ok status⟩ :: results →
      Moves b s { s with results := results
                         out := s.out.insert name status
                         remaining := s.remaining.erase name }
  | finish (results : List ProbeResult) (result : Except String (StringMap HealthStatus)) :
      s.returned = none → results <:+ s.results → Finishes s result →
      Moves b s ({ s with results := results }.finish result)

theorem Pool.keep_results (s : Pool) (i : Nat) (w : Worker) :
    s.setWorker i w = { s.setWorker i w with results := s.results ++ [] } := by
  simp [Pool.setWorker]

theorem work_moves {b : Batch} {s s' : Pool} {i : Nat} {w : Worker} (hw : s.workers[i]? = some w)
    (h : b.work s i w = some s') : Moves b s s' := by
  cases w with
  | idle =>
    simp only [Batch.work, Option.ite_none_right_eq_some, Option.some.injEq] at h
    obtain ⟨hclosed, rfl⟩ := h
    rw [Pool.keep_results]
    exact .worker i _ _ _ hw (.leave hclosed)
  | probing inst =>
    cases h
    rw [Pool.keep_results]
    exact .worker i _ _ _ hw (.probe inst)
  | checked inst status =>
    cases h
    rw [Pool.keep_results]
    exact .worker i _ _ _ hw (.judge inst status)
  | failing result =>
    simp only [Batch.work, Option.ite_none_right_eq_some, Option.some.injEq] at h
    obtain ⟨-, rfl⟩ := h
    exact .worker i _ _ _ hw (.fail result)
  | reporting result =>
    simp only [Batch.work, Option.ite_none_right_eq_some, Option.some.injEq] at h
    obtain ⟨-, rfl⟩ := h
    exact .worker i _ _ _ hw (.report result)
  | gone => cases h

theorem collect_moves {b : Batch} {s s' : Pool} (hr : s.returned = none)
    (h : s.collect = some s') : Moves b s s' := by
  unfold Pool.collect at h
  split at h
  · next hall =>
    cases h
    exact .finish s.results _ hr (List.suffix_refl _) (.all hall)
  · split at h
    · next name status results heq =>
      cases h
      exact .take name status results heq
    · next name err results heq =>
      cases h
      exact .finish results _ hr (heq ▸ List.suffix_cons ..) (.error err)
    · split at h
      · cases h
        exact .finish s.results _ hr (List.suffix_refl _) (.error _)
      · cases h

theorem step_moves {b : Batch} {s s' : Pool} {a : Action} (h : b.step s a = some s') :
    Moves b s s' := by
  cases a with
  | cancel cause =>
    simp only [Batch.step, Option.isNone_iff_eq_none, Option.ite_none_right_eq_some,
      Option.some.injEq] at h
    obtain ⟨hnone, rfl⟩ := h
    exact .cancel cause hnone
  | feed i =>
    simp only [Batch.step] at h
    split at h
    · next inst pending _ hpending hidle =>
      cases h
      exact .feed i inst pending hpending hidle
    · cases h
  | closeJobs =>
    simp only [Batch.step, Bool.and_eq_true, Bool.not_eq_true', Option.ite_none_right_eq_some,
      Option.some.injEq] at h
    obtain ⟨⟨hopen, -⟩, rfl⟩ := h
    exact .closeJobs hopen
  | work i =>
    obtain ⟨w, hw, hwork⟩ := Option.bind_eq_some_iff.mp h
    exact work_moves hw hwork
  | abandon i =>
    simp only [Batch.step] at h
    split at h
    · next result _ hw =>
      cases h
      rw [Pool.keep_results]
      exact .worker i _ _ _ hw (.abandon result)
    · cases h
  | closeResults =>
    simp only [Batch.step, Bool.and_eq_true, Bool.not_eq_true', Option.ite_none_right_eq_some,
      Option.some.injEq] at h
    obtain ⟨⟨hopen, -⟩, rfl⟩ := h
    exact .closeResults hopen
  | collect =>
    simp only [Batch.step, Option.isNone_iff_eq_none, Option.ite_none_right_eq_some] at h
    exact collect_moves h.1 h.2
  | giveUp =>
    simp only [Batch.step] at h
    split at h
    · next cause hr _ =>
      simp only [Option.ite_none_left_eq_some, Option.some.injEq] at h
      obtain ⟨-, rfl⟩ := h
      exact .finish s.results _ hr (List.suffix_refl _) (.error _)
    · cases h

/-! ## 2. Soundness -/

/-- The status of an instance that was probed. -/
def Batch.final (b : Batch) (inst : InstanceObservation) : HealthStatus :=
  { b.check inst with readyReplicas := b.readyReplicas inst.name }

/-- The probe of an instance found no fault with the monitor's own configuration. -/
def Batch.Clean (b : Batch) (inst : InstanceObservation) : Prop :=
  monitorStatusIsConfigurationFailure (b.check inst) = false

/-- A status comes from the probe of the instance it is named after. -/
def Batch.Sound (b : Batch) (r : ProbeResult) : Prop :=
  ∀ status, r.answer = .ok status →
    ∃ inst ∈ b.ready, r.name = inst.name ∧ b.Clean inst ∧ status = b.final inst

def Batch.SoundWorker (b : Batch) : Worker → Prop
  | .idle | .gone => True
  | .probing inst => inst ∈ b.ready
  | .checked inst status => inst ∈ b.ready ∧ status = b.check inst
  | .failing result | .reporting result => b.Sound result

/-- `out` has the statuses of the ready instances `done` holds of, over those of `unready`. -/
structure Batch.Filled (b : Batch) (unready : StringMap HealthStatus)
    (done : InstanceObservation → Prop) (out : StringMap HealthStatus) : Prop where
  ready : ∀ inst ∈ b.ready, done inst → b.Clean inst ∧ out[inst.name]? = some (b.final inst)
  others : ∀ name, name ∉ b.ready.map (·.name) → out[name]? = unready[name]?

structure Batch.Inv (b : Batch) (unready : StringMap HealthStatus) (s : Pool) : Prop where
  pending : ∀ inst ∈ s.pending, inst ∈ b.ready
  workers : ∀ w ∈ s.workers, b.SoundWorker w
  results : ∀ r ∈ s.results, b.Sound r
  collected : b.Filled unready (fun inst => inst.name ∉ s.remaining) s.out
  returned : ∀ out, s.returned = some (.ok out) → b.Filled unready (fun _ => True) out

section Inv

variable {b : Batch} {unready : StringMap HealthStatus} {s s' : Pool}

theorem sound_error {name err : String} : b.Sound ⟨name, .error err⟩ := fun _ h => nomatch h

theorem soundWorker_judge {inst : InstanceObservation} (h : inst ∈ b.ready)
    (canceled : Option String) : b.SoundWorker (b.judge canceled inst (b.check inst)) := by
  unfold Batch.judge
  split
  · exact sound_error
  · split
    · exact sound_error
    · next hclean =>
      intro status hstatus
      cases hstatus
      exact ⟨inst, h, rfl, by simpa [Batch.Clean] using hclean, rfl⟩

/-- A worker's move keeps the worker sound, and what it sends is sound. -/
theorem WorkerMoves.sound {w w' : Worker} {sent : List ProbeResult} (h : WorkerMoves b s w w' sent)
    (hw : b.SoundWorker w) : b.SoundWorker w' ∧ ∀ r ∈ sent, b.Sound r := by
  cases h with
  | leave => exact ⟨trivial, by simp⟩
  | probe inst => exact ⟨⟨hw, rfl⟩, by simp⟩
  | judge inst status =>
    obtain ⟨hready, rfl⟩ := hw
    exact ⟨soundWorker_judge hready _, by simp⟩
  | fail result | report result => exact ⟨trivial, List.forall_mem_singleton.mpr hw⟩
  | abandon result => exact ⟨trivial, by simp⟩

theorem soundWorkers_set {i : Nat} {w : Worker} (h : ∀ w ∈ s.workers, b.SoundWorker w)
    (hw : b.SoundWorker w) : ∀ w' ∈ (s.setWorker i w).workers, b.SoundWorker w' := by
  intro w' hw'
  rcases List.mem_or_eq_of_mem_set hw' with hold | rfl
  · exact h w' hold
  · exact hw

/-- A collected status goes to the instance it was made for. -/
theorem Batch.Filled.take (hnames : (b.ready.map (·.name)).Nodup) {remaining : StringMap InstanceObservation}
    {out : StringMap HealthStatus} (h : b.Filled unready (fun inst => inst.name ∉ remaining) out)
    {name : String} {status : HealthStatus} (hr : b.Sound ⟨name, .ok status⟩) :
    b.Filled unready (fun inst => inst.name ∉ remaining.erase name) (out.insert name status) := by
  obtain ⟨inst, hinst, rfl, hclean, rfl⟩ := hr status rfl
  constructor
  · intro other hother hdone
    rw [Std.ExtTreeMap.getElem?_insert]
    split
    · next heq =>
      -- the names of the ready instances tell them apart
      have : other = inst := List.inj_on_of_nodup_map hnames hother hinst
        (Std.LawfulEqCmp.eq_of_compare heq).symm
      subst this
      exact ⟨hclean, rfl⟩
    · next hne =>
      refine h.ready other hother fun hmem => hdone ?_
      rw [Std.ExtTreeMap.mem_erase]
      exact ⟨hne, hmem⟩
  · intro name hname
    rw [Std.ExtTreeMap.getElem?_insert, if_neg]
    · exact h.others name hname
    · intro heq
      rw [← Std.LawfulEqCmp.eq_of_compare heq] at hname
      exact hname (List.mem_map_of_mem hinst)

theorem Batch.Inv.finish {results : List ProbeResult}
    {result : Except String (StringMap HealthStatus)} (h : b.Inv unready s)
    (hresults : results <:+ s.results) (hf : Finishes s result) :
    b.Inv unready ({ s with results := results }.finish result) where
  pending := h.pending
  workers := h.workers
  results r hr := h.results r (hresults.mem hr)
  collected := h.collected
  returned out hout := by
    cases hf with
    | error err => cases hout
    | all hall =>
      cases hout
      refine ⟨fun inst hinst _ => h.collected.ready inst hinst ?_, h.collected.others⟩
      rw [Std.ExtTreeMap.isEmpty_iff.mp hall]
      exact Std.ExtTreeMap.not_mem_empty

/-- Every step keeps the pool sound. -/
theorem Batch.Inv.step (hnames : (b.ready.map (·.name)).Nodup) (h : b.Inv unready s)
    (hstep : Moves b s s') : b.Inv unready s' := by
  cases hstep with
  | feed i inst pending hpending hidle =>
    have hinst : inst ∈ b.ready := h.pending inst (by rw [hpending]; exact List.mem_cons_self)
    exact ⟨fun x hx => h.pending x (by rw [hpending]; exact List.mem_cons_of_mem _ hx),
      soundWorkers_set h.workers hinst, h.results, h.collected, h.returned⟩
  | worker i w w' sent hw hmove =>
    obtain ⟨hsound, hsent⟩ := hmove.sound (h.workers w (List.mem_of_getElem? hw))
    exact ⟨h.pending, soundWorkers_set h.workers hsound,
      List.forall_mem_append.mpr ⟨h.results, hsent⟩, h.collected, h.returned⟩
  | cancel cause | closeJobs | closeResults =>
    exact ⟨h.pending, h.workers, h.results, h.collected, h.returned⟩
  | take name status results heq =>
    have hr := h.results _ (heq ▸ List.mem_cons_self)
    exact ⟨h.pending, h.workers, fun r hr => h.results r (heq ▸ List.mem_cons_of_mem _ hr),
      h.collected.take hnames hr, h.returned⟩
  | finish results result _ hresults hf => exact h.finish hresults hf

end Inv

/-! ## 3. Room and progress -/

/-- A sum over the workers, after one of them has moved. -/
theorem sum_map_set {α : Type} (f : α → Nat) {l : List α} {i : Nat} {x : α} (h : l[i]? = some x)
    (y : α) : ((l.set i y).map f).sum + f x = (l.map f).sum + f y := by
  induction l generalizing i with
  | nil => cases h
  | cons z l ih =>
    cases i with
    | zero =>
      cases h
      simp only [List.set_cons_zero, List.map_cons, List.sum_cons]
      omega
    | succ i =>
      have := ih h
      simp only [List.set_cons_succ, List.map_cons, List.sum_cons]
      omega

/-- A worker that still owes a result. -/
def Worker.busy : Worker → Nat
  | .idle | .gone => 0
  | .probing _ | .checked _ _ | .failing _ | .reporting _ => 1

/-- What is on its way fits into the results. -/
def Batch.Room (b : Batch) (s : Pool) : Prop :=
  s.pending.length + (s.workers.map Worker.busy).sum + s.results.length ≤ b.ready.length

theorem busy_judge (b : Batch) (canceled : Option String) (inst : InstanceObservation)
    (status : HealthStatus) : (b.judge canceled inst status).busy = 1 := by
  unfold Batch.judge
  repeat' split
  all_goals rfl

section Room

variable {b : Batch} {s s' : Pool}

theorem WorkerMoves.busy {w w' : Worker} {sent : List ProbeResult} (h : WorkerMoves b s w w' sent) :
    w'.busy + sent.length ≤ w.busy := by
  cases h with
  | judge inst status => exact (busy_judge b s.canceled inst status).le
  | _ => simp [Worker.busy]

theorem Batch.Room.step (h : b.Room s) (hstep : Moves b s s') : b.Room s' := by
  unfold Batch.Room at h ⊢
  cases hstep with
  | feed i inst pending hpending hidle =>
    have hsum := sum_map_set Worker.busy hidle (.probing inst)
    rw [hpending, List.length_cons] at h
    simp only [Pool.setWorker, Worker.busy] at hsum ⊢
    omega
  | worker i w w' sent hw hmove =>
    have hsum := sum_map_set Worker.busy hw w'
    have hbusy := hmove.busy
    simp only [Pool.setWorker, List.length_append]
    omega
  | take name status results heq =>
    rw [heq, List.length_cons] at h
    dsimp only
    omega
  | finish results result _ hresults _ =>
    have := hresults.length_le
    dsimp only [Pool.finish]
    omega
  | _ => exact h

/-- How far a worker is from leaving. -/
def Worker.weight : Worker → Nat
  | .gone => 0
  | .idle => 1
  | .failing _ | .reporting _ => 3
  | .checked _ _ => 4
  | .probing _ => 5

/-- How many steps are left at most. -/
def Pool.measure (s : Pool) : Nat :=
  5 * s.pending.length + (s.workers.map Worker.weight).sum + s.results.length +
    ((!s.jobsClosed).toNat + (!s.resultsClosed).toNat + s.returned.isNone.toNat +
      s.canceled.isNone.toNat)

theorem weight_judge (b : Batch) (canceled : Option String) (inst : InstanceObservation)
    (status : HealthStatus) : (b.judge canceled inst status).weight = 3 := by
  unfold Batch.judge
  repeat' split
  all_goals rfl

theorem WorkerMoves.weight {w w' : Worker} {sent : List ProbeResult}
    (h : WorkerMoves b s w w' sent) : w'.weight + sent.length < w.weight := by
  cases h with
  | judge inst status => exact (weight_judge b s.canceled inst status).trans_lt (Nat.lt_succ_self 3)
  | _ => simp [Worker.weight]

/-- Every step uses something up. -/
theorem measure_lt (hstep : Moves b s s') : s'.measure < s.measure := by
  unfold Pool.measure
  cases hstep with
  | cancel cause hnone => simp [hnone]
  | feed i inst pending hpending hidle =>
    have hsum := sum_map_set Worker.weight hidle (.probing inst)
    rw [hpending, List.length_cons]
    simp only [Pool.setWorker, Worker.weight] at hsum ⊢
    omega
  | closeJobs hopen => simp [hopen]
  | worker i w w' sent hw hmove =>
    have hsum := sum_map_set Worker.weight hw w'
    have hweight := hmove.weight
    simp only [Pool.setWorker, List.length_append]
    omega
  | closeResults hopen => simp [hopen]
  | take name status results heq =>
    rw [heq, List.length_cons]
    dsimp only
    omega
  | finish results result hnone hresults _ =>
    have := hresults.length_le
    simp only [Pool.finish, hnone, Option.isNone_none, Option.isNone_some, Bool.toNat_true,
      Bool.toNat_false]
    omega

/-- **Nobody waits for ever**: if no goroutine can take a step, `Check` has returned. -/
theorem returned_of_blocked (hroom : b.Room s) (h : Machine.Blocked b.step s) :
    s.returned.isSome := by
  by_contra hr
  have hreturned : s.returned = none := by simpa using hr
  have hcollect : s.collect = none := by simpa [Batch.step, hreturned] using h .collect
  -- the collector waits, so some result is missing and none has arrived
  have hremaining : s.remaining.isEmpty = false := by
    rw [Bool.eq_false_iff]
    intro hall
    rw [Pool.collect, if_pos hall] at hcollect
    cases hcollect
  have hcanceled : s.canceled = none := by
    by_contra hsome
    obtain ⟨cause, hcause⟩ := Option.ne_none_iff_exists'.mp hsome
    have := h .giveUp
    simp [Batch.step, hreturned, hcause, hremaining] at this
  have hresults : s.results = [] ∧ s.resultsClosed = false := by
    unfold Pool.collect at hcollect
    rw [hremaining] at hcollect
    rcases hres : s.results with - | ⟨⟨name, answer⟩, rest⟩
    · simpa [hres] using hcollect
    · cases answer <;> simp [hres] at hcollect
  -- so the results are still open, for a worker that is not gone
  obtain ⟨w, hw, hlive⟩ : ∃ w ∈ s.workers, w.isGone = false := by
    have := h .closeResults
    simpa [Batch.step, hresults.2] using this
  obtain ⟨i, hi⟩ := List.mem_iff_getElem?.mp hw
  have hwork : b.work s i w = none := by simpa [Batch.step, hi] using h (.work i)
  have hspace : w.busy = 1 → s.results.length < b.ready.length := by
    intro hbusy
    have hsum : w.busy ≤ (s.workers.map Worker.busy).sum :=
      List.single_le_sum (by simp) _ (List.mem_map_of_mem hw)
    unfold Batch.Room at hroom
    omega
  -- it has something to do, unless it waits for the feeder, and that one can move
  cases w with
  | probing inst => cases hwork
  | checked inst status => cases hwork
  | failing result | reporting result => simp [Batch.work, hspace rfl] at hwork
  | gone => cases hlive
  | idle =>
    have hopen : s.jobsClosed = false := by simpa [Batch.work] using hwork
    rcases hpending : s.pending with - | ⟨inst, pending⟩
    · have := h .closeJobs
      simp [Batch.step, hopen, hpending] at this
    · have := h (.feed i)
      simp [Batch.step, hopen, hpending, hi] at this

end Room

/-! ## 4. Where the pool starts -/

/-- The ready pods of an instance. -/
def readyPods (pods : List Pod) (name : String) : Nat :=
  pods.countP fun pod => isPodReady pod && decide (pod.labels[labelInstance]?.getD "" = name)

theorem readyPodsByInstance_getD (pods : List Pod) (name : String) :
    (readyPodsByInstance pods)[name]?.getD 0 = readyPods pods name := by
  suffices h : ∀ out : StringMap Nat, (pods.foldl (fun out pod =>
      if isPodReady pod then
        let name := pod.labels[labelInstance]?.getD ""
        out.insert name (out[name]?.getD 0 + 1)
      else out) out)[name]?.getD 0 = out[name]?.getD 0 + readyPods pods name by
    simpa [readyPodsByInstance] using h ∅
  induction pods with
  | nil => simp [readyPods]
  | cons pod pods ih =>
    intro out
    rw [List.foldl_cons, ih, readyPods, readyPods, List.countP_cons]
    by_cases hready : isPodReady pod
    · by_cases hname : pod.labels[labelInstance]?.getD "" = name
      · simp [hready, hname, Nat.add_assoc, Nat.add_comm 1]
      · simp [hready, hname, Std.ExtTreeMap.getElem?_insert]
    · simp [hready]

/-- Filling a map with a value for each name that asks for one. -/
theorem foldl_insert_getElem? {β : Type} (asks : String → Prop) [DecidablePred asks]
    (value : String → β) (instances : List InstanceObservation) (name : String) :
    (instances.foldl (fun (out : StringMap β) inst =>
      if asks inst.name then out.insert inst.name (value inst.name) else out) ∅)[name]? =
      if name ∈ instances.map (·.name) ∧ asks name then some (value name) else none := by
  suffices h : ∀ out : StringMap β, (instances.foldl (fun (out : StringMap β) inst =>
      if asks inst.name then out.insert inst.name (value inst.name) else out) out)[name]? =
      if name ∈ instances.map (·.name) ∧ asks name then some (value name) else out[name]? by
    simpa using h ∅
  induction instances with
  | nil => simp
  | cons inst instances ih =>
    intro out
    rw [List.foldl_cons, ih]
    by_cases hname : inst.name = name
    · by_cases hasks : asks name <;> simp [hname, hasks]
    · by_cases hasks : asks inst.name <;>
        simp [hasks, hname, Ne.symm hname, Std.ExtTreeMap.getElem?_insert]

theorem mem_remaining (instances : List InstanceObservation) (name : String) :
    name ∈ instances.foldl (fun (out : StringMap InstanceObservation) inst =>
      out.insert inst.name inst) ∅ ↔ name ∈ instances.map (·.name) := by
  suffices h : ∀ out : StringMap InstanceObservation, name ∈ instances.foldl (fun out inst =>
      out.insert inst.name inst) out ↔ name ∈ instances.map (·.name) ∨ name ∈ out by
    simpa using h ∅
  induction instances with
  | nil => simp
  | cons inst instances ih =>
    intro out
    rw [List.foldl_cons, ih, Std.ExtTreeMap.mem_insert]
    simp only [List.map_cons, List.mem_cons, Std.compare_eq_iff_eq, @eq_comm _ name]
    tauto

/-! ## 5. The call -/

/-- The probe of an instance fails for a reason that is the monitor's own. -/
def ConfigurationFailure (opened : Except String (Except String Recovery))
    (inst : InstanceObservation) : Prop :=
  ∃ err, directProbe opened inst = .error err ∧ monitorProbeConfigurationError err = true

/-- A status says so exactly when that is the case: the password is redacted in what follows
the words `monitorStatusIsConfigurationFailure` looks for, never in them. -/
theorem configurationFailure_checkInstance (creds : Credentials String)
    (opened : Except String (Except String Recovery)) (inst : InstanceObservation) :
    monitorStatusIsConfigurationFailure (checkInstance creds opened inst) = true ↔
      ConfigurationFailure opened inst := by
  unfold checkInstance ConfigurationFailure monitorStatusIsConfigurationFailure
  rcases directProbe opened inst with err | -
  · by_cases hconf : monitorProbeConfigurationError err = true
    · simp [hconf]
    · simp [hconf]
  · simp

/-- Some ready instance's probe is such a failure. -/
def Job.Misconfigured (job : Job) : Prop :=
  ∃ pods creds, job.pods = .ok pods ∧ job.credentials = .ok creds ∧
    ∃ inst ∈ enabledInstances job.resource job.instances, readyPods pods inst.name ≠ 0 ∧
      ConfigurationFailure (job.opened inst) inst

/-- `out` says of every enabled instance, and of nothing else, what its pods and its own probe
came to. -/
structure Job.Reports (job : Job) (pods : List Pod) (out : StringMap HealthStatus) : Prop where
  keys : ∀ name, name ∈ out ↔ name ∈ (enabledInstances job.resource job.instances).map (·.name)
  unready : ∀ inst ∈ enabledInstances job.resource job.instances,
    readyPods pods inst.name = 0 → out[inst.name]? = some (notReady 0)
  ready : ∀ inst ∈ enabledInstances job.resource job.instances, readyPods pods inst.name ≠ 0 →
    ∃ creds, job.credentials = .ok creds ∧
      out[inst.name]? = some { checkInstance creds (job.opened inst) inst with
        readyReplicas := Int32.ofNat (readyPods pods inst.name) }

/-- The instances a job probes. -/
def Job.probed (job : Job) (pods : List Pod) : List InstanceObservation :=
  (enabledInstances job.resource job.instances).filter fun inst => readyPods pods inst.name ≠ 0

/-- The statuses it starts from. -/
def Job.unready (job : Job) (pods : List Pod) : StringMap HealthStatus :=
  (enabledInstances job.resource job.instances).foldl (fun out inst =>
    if readyPods pods inst.name = 0 then
      out.insert inst.name (notReady (Int32.ofNat (readyPods pods inst.name)))
    else out) ∅

def Job.batch (job : Job) (pods : List Pod) (creds : Credentials String) : Batch where
  ready := job.probed pods
  check inst := checkInstance creds (job.opened inst) inst
  readyReplicas name := Int32.ofNat (readyPods pods name)

def Job.pool (job : Job) (pods : List Pod) : Pool where
  pending := job.probed pods
  workers := List.replicate (job.workers (job.probed pods).length) .idle
  remaining := (job.probed pods).foldl (fun out inst => out.insert inst.name inst) ∅
  out := job.unready pods

theorem start_unready (job : Job) {pods : List Pod} (hpods : job.pods = .ok pods)
    (h : job.probed pods = []) : job.start = .returned (.ok (job.unready pods)) := by
  simp only [Job.start, hpods, readyPodsByInstance_getD]
  exact if_pos h

theorem start_without_credentials (job : Job) {pods : List Pod} (hpods : job.pods = .ok pods)
    (h : job.probed pods ≠ []) {err : String} (herr : job.credentials = .error err) :
    job.start = .returned (.error err) := by
  simp only [Job.start, hpods, readyPodsByInstance_getD, herr]
  exact if_neg h

theorem start_pooled (job : Job) {pods : List Pod} (hpods : job.pods = .ok pods)
    (h : job.probed pods ≠ []) {creds : Credentials String} (hcreds : job.credentials = .ok creds) :
    job.start = .pooled (job.batch pods creds) (job.pool pods) := by
  simp only [Job.start, hpods, readyPodsByInstance_getD, hcreds]
  exact if_neg h

theorem unready_getElem? (job : Job) (pods : List Pod) (name : String) :
    (job.unready pods)[name]? =
      if name ∈ (enabledInstances job.resource job.instances).map (·.name) ∧
        readyPods pods name = 0 then some (notReady (Int32.ofNat (readyPods pods name))) else none :=
  foldl_insert_getElem? (fun name => readyPods pods name = 0)
    (fun name => notReady (Int32.ofNat (readyPods pods name))) _ name

section Jobs

variable {job : Job} {pods : List Pod} {creds : Credentials String}

theorem probed_nodup (h : (job.instances.map (·.name)).Nodup) :
    ((job.probed pods).map (·.name)).Nodup := by
  have hsub : (job.probed pods).Sublist job.instances :=
    List.filter_sublist.trans List.filter_sublist
  exact h.sublist (hsub.map _)

theorem inv_pool : (job.batch pods creds).Inv (job.unready pods) (job.pool pods) where
  pending _ h := h
  workers w hw := by
    rw [List.eq_of_mem_replicate hw]
    trivial
  results _ h := by cases h
  collected :=
    { ready := fun inst hinst hdone =>
        absurd ((mem_remaining _ _).mpr (List.mem_map_of_mem hinst)) hdone
      others := fun _ _ => rfl }
  returned _ h := by cases h

theorem room_pool : (job.batch pods creds).Room (job.pool pods) := by
  simp [Batch.Room, Job.pool, Job.batch, Worker.busy]

/-- A filled map is a report. -/
theorem reports_of_filled (hpods : job.pods = .ok pods) {out : StringMap HealthStatus}
    (hcreds : job.probed pods ≠ [] → job.credentials = .ok creds)
    (h : (job.batch pods creds).Filled (job.unready pods) (fun _ => True) out) :
    job.Reports pods out ∧ ¬ job.Misconfigured := by
  have hmem : ∀ inst ∈ enabledInstances job.resource job.instances,
      readyPods pods inst.name ≠ 0 → inst ∈ job.probed pods := fun inst hinst hne =>
    List.mem_filter.mpr ⟨hinst, by simpa using hne⟩
  have hready : ∀ inst ∈ enabledInstances job.resource job.instances,
      readyPods pods inst.name ≠ 0 →
      (job.batch pods creds).Clean inst ∧
        out[inst.name]? = some ((job.batch pods creds).final inst) := fun inst hinst hne =>
    h.ready inst (hmem inst hinst hne) trivial
  have hothers : ∀ name, readyPods pods name = 0 ∨
      name ∉ (enabledInstances job.resource job.instances).map (·.name) →
      out[name]? = (job.unready pods)[name]? := by
    intro name hname
    refine h.others name fun hprobed => ?_
    obtain ⟨inst, hinst, rfl⟩ := List.mem_map.mp hprobed
    obtain ⟨henabled, hne⟩ := List.mem_filter.mp hinst
    rcases hname with hzero | habsent
    · simp [hzero] at hne
    · exact habsent (List.mem_map_of_mem henabled)
  refine ⟨⟨fun name => ?_, fun inst hinst hzero => ?_, fun inst hinst hne => ?_⟩, ?_⟩
  · rw [Std.ExtTreeMap.mem_iff_isSome_getElem?]
    by_cases hname : name ∈ (enabledInstances job.resource job.instances).map (·.name)
    · by_cases hzero : readyPods pods name = 0
      · simp [hothers name (.inl hzero), unready_getElem?, hname, hzero]
      · obtain ⟨inst, hinst, rfl⟩ := List.mem_map.mp hname
        simp [hready inst hinst hzero, hname]
    · simp [hothers name (.inr hname), unready_getElem?, hname]
  · rw [hothers inst.name (.inl hzero), unready_getElem?,
      if_pos ⟨List.mem_map_of_mem hinst, hzero⟩, hzero]
    rfl
  · exact ⟨creds, hcreds (List.ne_nil_of_mem (hmem inst hinst hne)), (hready inst hinst hne).2⟩
  · rintro ⟨pods', creds', hpods', hcreds', inst, hinst, hne, hfailure⟩
    cases hpods.symm.trans hpods'
    have hclean := (hready inst hinst hne).1
    cases (hcreds (List.ne_nil_of_mem (hmem inst hinst hne))).symm.trans hcreds'
    have hstatus := (configurationFailure_checkInstance creds _ _).mpr hfailure
    exact Bool.false_ne_true (hclean.symm.trans hstatus)

end Jobs

/-- A map that `Check` returns is a report, and then no probe was a configuration failure. -/
theorem reports_of_returns {job : Job} (hnames : (job.instances.map (·.name)).Nodup)
    {out : StringMap HealthStatus} (h : job.Returns (.ok out)) :
    (∃ pods, job.pods = .ok pods ∧ job.Reports pods out) ∧ ¬ job.Misconfigured := by
  unfold Job.Returns at h
  cases hpods : job.pods with
  | error err => simp [Job.start, hpods] at h
  | ok pods =>
    by_cases hnone : job.probed pods = []
    · -- nobody is ready, and `Check` returns what it starts from
      rw [start_unready job hpods hnone] at h
      cases h
      have hfilled : (job.batch pods ⟨"", ""⟩).Filled (job.unready pods) (fun _ => True)
          (job.unready pods) :=
        ⟨fun inst hinst => absurd hinst (by simp [Job.batch, hnone]), fun _ _ => rfl⟩
      obtain ⟨hreports, hclean⟩ := reports_of_filled hpods (fun hne => absurd hnone hne) hfilled
      exact ⟨⟨pods, rfl, hreports⟩, hclean⟩
    · cases hcreds : job.credentials with
      | error err =>
        rw [start_without_credentials job hpods hnone hcreds] at h
        cases h
      | ok creds =>
        rw [start_pooled job hpods hnone hcreds] at h
        obtain ⟨actions, s, hrun, hs⟩ := h
        have hinv : (job.batch pods creds).Inv (job.unready pods) s :=
          hrun.invariant (fun _ _ _ hI hstep => hI.step (probed_nodup hnames) (step_moves hstep))
            inv_pool
        obtain ⟨hreports, hclean⟩ := reports_of_filled hpods (fun _ => hcreds) (hinv.returned out hs)
        exact ⟨⟨pods, rfl, hreports⟩, hclean⟩

theorem comesBack (job : Job) : job.ComesBack ∧ ∃ result, job.Returns result := by
  unfold Job.ComesBack Job.Returns
  cases hpods : job.pods with
  | error err => simp [Job.start, hpods]
  | ok pods =>
    by_cases hnone : job.probed pods = []
    · simp [start_unready job hpods hnone]
    · cases hcreds : job.credentials with
      | error err => simp [start_without_credentials job hpods hnone hcreds]
      | ok creds =>
        rw [start_pooled job hpods hnone hcreds]
        have hmeasure : ∀ s a s', (job.batch pods creds).step s a = some s' →
            s'.measure < s.measure := fun s a s' h => measure_lt (step_moves h)
        have hblocked : ∀ actions s,
            Machine.Leads (job.batch pods creds).step (job.pool pods) actions s →
            Machine.Blocked (job.batch pods creds).step s → s.returned.isSome := by
          intro actions s hrun hs
          have hroom : (job.batch pods creds).Room s :=
            hrun.invariant (fun _ _ _ hI hstep => hI.step (step_moves hstep)) room_pool
          exact returned_of_blocked hroom hs
        refine ⟨⟨⟨_, fun actions s hrun => hrun.length_le hmeasure⟩, hblocked⟩, ?_⟩
        have hends : Machine.Ends (job.batch pods creds).step (job.pool pods) :=
          Machine.Ends.of_measure (I := fun _ => True)
            (fun s a s' _ h => ⟨trivial, hmeasure s a s' h⟩) trivial
        obtain ⟨actions, s, hrun, hs⟩ := hends.exists_blocked
        obtain ⟨result, hresult⟩ := Option.isSome_iff_exists.mp (hblocked actions s hrun hs)
        exact ⟨result, actions, s, hrun, hresult⟩

/-- **The pool loses and mixes nothing.**  Under every scheduling `Check` returns; a map it
returns has the enabled instances as its keys, each with its own outcome, and if any probe is a
configuration failure it returns an error instead. -/
theorem check_loses_and_mixes_nothing (job : Job) (hnames : (job.instances.map (·.name)).Nodup) :
    (∀ out, job.Returns (.ok out) →
        (∃ pods, job.pods = .ok pods ∧ job.Reports pods out) ∧ ¬ job.Misconfigured) ∧
      (job.Misconfigured → ∀ result, job.Returns result → ∃ err, result = .error err) ∧
      job.ComesBack ∧ ∃ result, job.Returns result := by
  refine ⟨fun out h => reports_of_returns hnames h, fun hmis result h => ?_, comesBack job⟩
  cases result with
  | error err => exact ⟨err, rfl⟩
  | ok out => exact absurd hmis (reports_of_returns hnames h).2

def examplePod (name : String) (ready : Bool) : Pod :=
  { labels := (∅ : StringMap String).insert labelInstance name, ready := ready }

def examplePods : List Pod :=
  [examplePod "db-1" true, examplePod "db-2" true, examplePod "db-3" false]

/-- Two ready instances, of which one refuses the password, and one that is not ready. -/
def exampleJob : Job where
  resource := { name := "db" }
  instances := [{ name := "db-1", role := .writer }, { name := "db-2", role := .reader },
    { name := "db-3", role := .reader }]
  pods := .ok examplePods
  credentials := .ok ⟨"svc", "pw"⟩
  opened inst :=
    if inst.name = "db-2" then .ok (.error "password authentication failed for user svc")
    else .ok (.ok { inRecovery := false, transactionReadOnly := false })

theorem exampleJob_errs : ∃ err, exampleJob.Returns (.error err) := by
  have hnames : (exampleJob.instances.map (·.name)).Nodup := by decide
  obtain ⟨-, herr, -, result, hresult⟩ := check_loses_and_mixes_nothing exampleJob hnames
  have hmis : exampleJob.Misconfigured :=
    ⟨_, _, rfl, rfl, { name := "db-2", role := .reader }, by decide, by decide +kernel, _, rfl,
      by decide +kernel⟩
  obtain ⟨err, rfl⟩ := herr hmis result hresult
  exact ⟨err, hresult⟩

end Monitor

end AuroraOperator

/-
# The deadline of a monitor job

A monitor job gets one deadline, and each of its probes a timeout of its own.  The workers take the
ready instances in rounds, so the probes of a cluster that is down take as many timeouts as there
are rounds.  If the deadline comes first, the whole job is cancelled: `Check` returns an error, the
scheduler plans with the health it had, and no backend is ever found unhealthy.

`Timing.lean` shows that a deadline after the last round cancels nothing.  `jobTimeout` does allow
one timeout for each round and two seconds more.  It counts the rounds of all enabled instances,
which are at least those of the ready ones (`rounds_workers`, `rounds_mono`).  But then it cuts the
result to thirty seconds, whatever the timeout is, so the deadline covers the probes exactly as long
as they fit into thirty seconds (`deadline_covers_iff`).  Before the cut the product is formed in 64
bits; a timeout of years makes it wrap around.
-/
import AuroraOperator.Monitor.Timing

namespace AuroraOperator

namespace Monitor

open Planner Render

/-! ## 1. `jobTimeout` -/

/-- The value of a Go expression of type `int` or `time.Duration`. -/
def int64 (x : Int) : Int := x.bmod (2 ^ 64)

def monitorProbeTimeout (resource : PgBouncerAurora) : Int :=
  if 0 < resource.spec.monitor.timeout then resource.spec.monitor.timeout else 3 * second

def clampDuration (value minValue maxValue : Int) : Int :=
  if value < minValue then minValue else if maxValue < value then maxValue else value

/-- `configured` is the field `JobTimeout`. -/
def Job.jobTimeout (job : Job) (configured : Int) (instanceCount : Nat) : Int :=
  if 0 < configured then configured
  else
    let timeout := monitorProbeTimeout job.resource
    let concurrency := job.workers instanceCount
    let batches : Int :=
      if 0 < instanceCount ∧ 0 < concurrency then
        (int64 (instanceCount + concurrency - 1)).tdiv concurrency
      else 1
    clampDuration (int64 (int64 (batches * timeout) + 2 * second)) (8 * second) (30 * second)

/-! ## 2. Rounds -/

def Job.workerLimit (job : Job) : Nat :=
  if job.workersPerCR ≤ 0 then defaultWorkersPerCR else job.workersPerCR.toNat

theorem workerLimit_pos (job : Job) : 0 < job.workerLimit := by
  unfold Job.workerLimit
  split
  · decide
  · omega

theorem workers_eq (job : Job) {n : Nat} (hn : 0 < n) : job.workers n = min n job.workerLimit := by
  unfold Job.workers
  change (if 0 < n ∧ n < job.workerLimit then n else job.workerLimit) = _
  split <;> omega

theorem rounds_mono {n m : Nat} (h : n ≤ m) (w : Nat) : rounds n w ≤ rounds m w :=
  Nat.div_le_div_right (by omega)

/-- Workers beyond the number of jobs would not save a round. -/
theorem rounds_workers (job : Job) {n : Nat} (hn : 0 < n) :
    rounds n (job.workers n) = rounds n job.workerLimit := by
  have hlimit := workerLimit_pos job
  rw [workers_eq job hn]
  rcases Nat.le_total job.workerLimit n with h | h
  · rw [min_eq_right h]
  · have hone : ∀ w, n ≤ w → rounds n w = 1 := fun w hw =>
      Nat.div_eq_of_lt_le (by omega) (by omega)
    rw [min_eq_left h, hone n le_rfl, hone _ h]

theorem monitorProbeTimeout_pos (resource : PgBouncerAurora) : 0 < monitorProbeTimeout resource := by
  unfold monitorProbeTimeout second
  split <;> omega

/-! ## 3. What the deadline covers -/

theorem int64_eq_self {x : Int} (h : 0 ≤ x) : int64 x = x ↔ x < 2 ^ 63 := by
  unfold int64
  constructor
  · intro heq
    have := @Int.bmod_lt x (2 ^ 64) (by decide)
    omega
  · intro hlt
    exact Int.bmod_eq_of_le (by omega) (by omega)

/-- None of the intermediate results of `jobTimeout` leaves the range of its type. -/
structure Job.Exact (job : Job) (instanceCount : Nat) : Prop where
  jobs : int64 (instanceCount + job.workers instanceCount - 1) =
    instanceCount + job.workers instanceCount - 1
  product : int64 (rounds instanceCount (job.workers instanceCount) *
      monitorProbeTimeout job.resource) =
    rounds instanceCount (job.workers instanceCount) * monitorProbeTimeout job.resource
  sum : int64 (rounds instanceCount (job.workers instanceCount) *
      monitorProbeTimeout job.resource + 2 * second) =
    rounds instanceCount (job.workers instanceCount) * monitorProbeTimeout job.resource + 2 * second

theorem exact_iff_lt (job : Job) {n : Nat} (hn : 0 < n) :
    job.Exact n ↔ (n : Int) + min n job.workerLimit ≤ 2 ^ 63 ∧
      rounds n job.workerLimit * monitorProbeTimeout job.resource + 2 * second < 2 ^ 63 := by
  have hT := monitorProbeTimeout_pos job.resource
  have hlimit := workerLimit_pos job
  have hproduct : 0 ≤ (rounds n job.workerLimit : Int) * monitorProbeTimeout job.resource :=
    mul_nonneg (Int.natCast_nonneg _) hT.le
  have hworkers : ((job.workers n : Nat) : Int) = min (n : Int) job.workerLimit := by
    rw [workers_eq job hn, Nat.cast_min]
  have hsecond : second = 1000000000 := rfl
  constructor
  · rintro ⟨hjobs, -, hsum⟩
    rw [rounds_workers job hn, int64_eq_self (by omega)] at hsum
    rw [int64_eq_self (by omega)] at hjobs
    exact ⟨by omega, hsum⟩
  · rintro ⟨hjobs, hsum⟩
    constructor
    · rw [int64_eq_self (by omega)]
      omega
    · rw [rounds_workers job hn, int64_eq_self hproduct]
      omega
    · rw [rounds_workers job hn, int64_eq_self (by omega)]
      exact hsum

/-- Without overflow, what is cut is one timeout for each round and two seconds. -/
theorem jobTimeout_eq (job : Job) {n : Nat} (hn : 0 < n) (h : job.Exact n) :
    job.jobTimeout 0 n = clampDuration
      (rounds n job.workerLimit * monitorProbeTimeout job.resource + 2 * second) (8 * second)
      (30 * second) := by
  have hworkers : 0 < job.workers n := by
    rw [workers_eq job hn]
    exact lt_min hn (workerLimit_pos job)
  have hbatches : ((n : Int) + job.workers n - 1).tdiv (job.workers n) =
      (rounds n (job.workers n) : Int) := by
    rw [Int.tdiv_eq_ediv_of_nonneg (by omega), rounds, Int.natCast_div]
    congr 1
    omega
  rw [Job.jobTimeout, if_neg (by decide)]
  dsimp only
  rw [if_pos ⟨hn, hworkers⟩, h.jobs, hbatches, h.product, h.sum, rounds_workers job hn]

theorem clampDuration_le {value minValue maxValue : Int} (h : minValue ≤ maxValue) :
    clampDuration value minValue maxValue ≤ maxValue := by
  unfold clampDuration
  split
  · exact h
  · split <;> omega

theorem le_clampDuration {x value minValue maxValue : Int} (h : x ≤ value) (hmax : x ≤ maxValue) :
    x ≤ clampDuration value minValue maxValue := by
  unfold clampDuration
  split
  · omega
  · split <;> omega

theorem jobTimeout_le (job : Job) (n : Nat) : job.jobTimeout 0 n ≤ 30 * second := by
  rw [Job.jobTimeout, if_neg (by decide)]
  exact clampDuration_le (by decide)

/-- The deadline is computed without overflow and leaves time for every round of probes to run into
its timeout, if and only if the rounds of the ready instances take at most thirty seconds and the
numbers stay below `2 ^ 63`. -/
theorem covers_iff (job : Job) {ready enabled : Nat} (hn : 0 < ready) (hle : ready ≤ enabled) :
    (job.Exact enabled ∧ rounds ready (job.workers ready) * monitorProbeTimeout job.resource ≤
        job.jobTimeout 0 enabled) ↔
      rounds ready job.workerLimit * monitorProbeTimeout job.resource ≤ 30 * second ∧
        (enabled : Int) + min enabled job.workerLimit ≤ 2 ^ 63 ∧
        rounds enabled job.workerLimit * monitorProbeTimeout job.resource + 2 * second < 2 ^ 63 := by
  have hT := monitorProbeTimeout_pos job.resource
  rw [rounds_workers job hn, exact_iff_lt job (hn.trans_le hle)]
  constructor
  · rintro ⟨hexact, hcovers⟩
    exact ⟨hcovers.trans (jobTimeout_le job enabled), hexact⟩
  · rintro ⟨hshort, hexact⟩
    refine ⟨hexact, ?_⟩
    -- the enabled instances take no fewer rounds than the ready ones
    have hrounds : (rounds ready job.workerLimit : Int) * monitorProbeTimeout job.resource ≤
        rounds enabled job.workerLimit * monitorProbeTimeout job.resource :=
      mul_le_mul_of_nonneg_right (by exact_mod_cast rounds_mono hle job.workerLimit) hT.le
    rw [jobTimeout_eq job (hn.trans_le hle) ((exact_iff_lt job (hn.trans_le hle)).mpr hexact)]
    exact le_clampDuration (hrounds.trans (le_add_of_nonneg_right (by decide))) hshort

/-- **What the deadline covers.**  Let some instance be ready.  The deadline is computed without
overflow and leaves time for every round of probes to run into its timeout, if and only if the
rounds of the ready instances take at most thirty seconds and the numbers stay below `2 ^ 63`.  And
if the deadline is later than that, whatever `Check` returns is a report on every instance. -/
theorem deadline_covers_iff (job : Job) (pods : List Pod) (hready : job.probed pods ≠ []) :
    let enabled := (enabledInstances job.resource job.instances).length
    let ready := (job.probed pods).length
    let workers := (job.pool pods).workers.length
    let timeout := monitorProbeTimeout job.resource
    ((job.Exact enabled ∧ rounds ready workers * timeout ≤ job.jobTimeout 0 enabled) ↔
        rounds ready job.workerLimit * timeout ≤ 30 * second ∧
          (enabled : Int) + min enabled job.workerLimit ≤ 2 ^ 63 ∧
          rounds enabled job.workerLimit * timeout + 2 * second < 2 ^ 63) ∧
      (rounds ready workers * timeout < job.jobTimeout 0 enabled →
        (job.instances.map (·.name)).Nodup → job.pods = .ok pods → ¬ job.Misconfigured →
        ∀ creds, job.credentials = .ok creds → ∀ t,
          Relation.ReflTransGen
            (Timed.Step (job.batch pods creds) timeout (job.jobTimeout 0 enabled))
            (job.timed pods) t →
          ∀ result, t.pool.returned = some result →
            ∃ out, result = .ok out ∧ job.Reports pods out) := by
  intro enabled ready workers timeout
  have hpool : workers = job.workers ready := List.length_replicate ..
  refine ⟨?_, fun hlate hnames hpods hclean creds hcreds t hrun => ?_⟩
  · rw [hpool]
    exact covers_iff job (List.length_pos_of_ne_nil hready) (List.length_filter_le ..)
  · exact (reported_before_deadline hnames hpods hcreds hclean
      (monitorProbeTimeout_pos job.resource) hlate hrun).2

/-- The default timeout, and two of three instances ready. -/
theorem exampleJob_covered : exampleJob.Exact 3 ∧
    rounds 2 2 * monitorProbeTimeout exampleJob.resource ≤ exampleJob.jobTimeout 0 3 := by
  have hready : exampleJob.probed examplePods ≠ [] := by decide +kernel
  exact (deadline_covers_iff exampleJob examplePods hready).1.mpr (by decide +kernel)

/-- One ready instance that does not answer, and a timeout of forty seconds. -/
def slowJob : Job where
  resource := { name := "db", spec := { monitor := { timeout := 40 * second } } }
  instances := [{ name := "db-1", role := .writer }]
  pods := .ok [examplePod "db-1" true]
  credentials := .ok ⟨"svc", "pw"⟩
  opened _ := .ok (.error "dial tcp: i/o timeout")

/-- The job while its only probe is running: the feeder is through. -/
def slowPool : Pool :=
  { (slowJob.pool [examplePod "db-1" true]).setWorker 0 (.probing { name := "db-1", role := .writer }) with
    pending := []
    jobsClosed := true }

/-- Its probe would end after forty seconds; the job is cancelled after thirty, and with it goes the
report. -/
theorem slow_probe_cancels :
    slowJob.jobTimeout 0 1 = 30 * second ∧ monitorProbeTimeout slowJob.resource = 40 * second ∧
      ∃ t, Relation.ReflTransGen
          (Timed.Step (slowJob.batch [examplePod "db-1" true] ⟨"svc", "pw"⟩) (40 * second)
            (slowJob.jobTimeout 0 1)) (slowJob.timed [examplePod "db-1" true]) t ∧
        t.pool.returned = some (.error "monitor job canceled: context deadline exceeded") := by
  have hdeadline : slowJob.jobTimeout 0 1 = 30 * second := by decide +kernel
  refine ⟨hdeadline, rfl, ?_⟩
  rw [hdeadline]
  -- the probe is under way and the jobs are closed, so nothing happens before the deadline
  have hquiet : ∀ a, Prompt slowPool a →
      (slowJob.batch [examplePod "db-1" true] ⟨"svc", "pw"⟩).step slowPool a = none := by
    intro a ha
    cases a with
    | cancel cause => exact ha.elim
    | work i =>
      cases i with
      | zero => exact absurd rfl (ha _)
      | succ i => rfl
    | _ => rfl
  have hends : ∀ (i : Nat) (inst : InstanceObservation),
      slowPool.workers[i]? = some (.probing inst) → i = 0 := by
    intro i inst hi
    cases i with
    | zero => rfl
    | succ i => cases hi
  refine ⟨_, (((Relation.ReflTransGen.single (.prompt (.feed 0) _ trivial rfl)).tail
    (.prompt .closeJobs slowPool trivial rfl)).tail
    (.wait (30 * second) (by decide) hquiet ?_)).tail
    (.cancel "context deadline exceeded" _ (by decide) rfl) |>.tail
    (.prompt .giveUp _ trivial rfl), rfl⟩
  intro i inst hi
  rw [hends i inst hi]
  decide

end Monitor

end AuroraOperator

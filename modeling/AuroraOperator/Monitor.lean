/-
# The probe monitor

`internal/monitor/probe.go`.  `ProbeMonitor.Check` asks every ready instance, over a direct
connection, whether it is what discovery says it is.  It splits the instances by the readiness
of their pods, and hands the ready ones to a pool: a feeder, a bounded number of workers and a
goroutine that closes the results once all workers are gone, with `Check` itself collecting.

The pool is a machine whose steps may be blocked.  An `Action` names the goroutine that takes
the step and, where a `select` has several cases ready, the case it takes; a step of several
statements touches shared memory in the last of them only, so every scheduling of the source
is a list of actions.  The job's context may be cancelled between any two steps.
-/
import AuroraOperator.Lib.Machine
import AuroraOperator.Discovery
import AuroraOperator.Planner
import AuroraOperator.Postgres
import AuroraOperator.Render.Names

namespace AuroraOperator

namespace Monitor

open Discovery Planner Render
open Postgres (Credentials)

/-! ## 1. One probe -/

/-- What a database answers to the two questions of `roleProbe`. -/
structure Recovery where
  inRecovery : Bool
  transactionReadOnly : Bool
  deriving DecidableEq, Repr

def roleProbe (answer : Except String Recovery) : Except String Role := do
  let recovery ← answer
  if recovery.inRecovery then
    if !recovery.transactionReadOnly then
      .error "role sanity mismatch: pg_is_in_recovery=true transaction_read_only=false"
    else .ok .reader
  else if recovery.transactionReadOnly then
    .error "role sanity mismatch: pg_is_in_recovery=false transaction_read_only=true"
  else .ok .writer

/-- `directProbe`, given what opening the connection and the query on it come to. -/
def directProbe (opened : Except String (Except String Recovery)) (inst : InstanceObservation) :
    Except String Unit := do
  let db ← opened
  let role ← roleProbe db
  if role ≠ inst.role then
    .error ("role mismatch: discovery=" ++ inst.role.text ++ " monitor=" ++ role.text)

def configurationPatterns : List String :=
  ["password authentication failed", "authentication failed", "no pg_hba.conf entry",
    "certificate", "tls", "ssl"]

/-- The patterns are ASCII, so that `lowerChar` is as good as `strings.ToLower`. -/
def monitorProbeConfigurationError (err : String) : Bool :=
  configurationPatterns.any fun pattern =>
    containsText (String.ofList (err.toList.map lowerChar)) pattern

def redactCredentialValue (message secret : String) : String :=
  if secret = "" then message else replaceAll message secret "[redacted]"

def checkInstance (creds : Credentials String) (opened : Except String (Except String Recovery))
    (inst : InstanceObservation) : HealthStatus :=
  match directProbe opened inst with
  | .error err =>
    if monitorProbeConfigurationError err then
      { healthy := false
        reason := "monitor configuration failed: " ++ redactCredentialValue err creds.password }
    else
      { healthy := false
        reason := "direct db probe failed: " ++ redactCredentialValue err creds.password }
  | .ok () => { healthy := true, reason := "healthy" }

def monitorStatusIsConfigurationFailure (status : HealthStatus) : Bool :=
  "monitor configuration failed:".toList.isPrefixOf status.reason.toList

/-! ## 2. The pool -/

structure ProbeResult where
  name : String
  answer : Except String HealthStatus

/-- Where a worker is in its loop. -/
inductive Worker where
  /-- waiting for a job -/
  | idle
  | probing (inst : InstanceObservation)
  /-- the probe is back, the context not yet looked at -/
  | checked (inst : InstanceObservation) (status : HealthStatus)
  /-- about to send an error and return -/
  | failing (result : ProbeResult)
  /-- in the `select` that sends a status -/
  | reporting (result : ProbeResult)
  | gone

def Worker.isGone : Worker → Bool
  | .gone => true
  | _ => false

/-- What the goroutines of one `Check` share and do not change. -/
structure Batch where
  ready : List InstanceObservation
  check : InstanceObservation → HealthStatus
  readyReplicas : String → Int32

structure Pool where
  /-- `jobCtx.Err()` -/
  canceled : Option String := none
  /-- what the feeder has left -/
  pending : List InstanceObservation
  jobsClosed : Bool := false
  workers : List Worker
  /-- the buffered channel, oldest first -/
  results : List ProbeResult := []
  resultsClosed : Bool := false
  remaining : StringMap InstanceObservation
  out : StringMap HealthStatus
  returned : Option (Except String (StringMap HealthStatus)) := none

inductive Action where
  /-- the deadline of the job, or whatever cancels its parent -/
  | cancel (cause : String)
  /-- the feeder hands a job to a worker -/
  | feed (worker : Nat)
  /-- the feeder is through, or sees the job cancelled -/
  | closeJobs
  /-- the next step of a worker -/
  | work (worker : Nat)
  /-- a worker sees the job cancelled while it sends a status -/
  | abandon (worker : Nat)
  | closeResults
  /-- `Check` receives, or leaves its loop -/
  | collect
  /-- `Check` sees the job cancelled -/
  | giveUp

def canceledError (cause : String) : String := "monitor job canceled: " ++ cause

/-- `Check` returns, and its deferred `cancel` runs. -/
def Pool.finish (s : Pool) (result : Except String (StringMap HealthStatus)) : Pool :=
  { s with returned := some result, canceled := some (s.canceled.getD "context canceled") }

def Pool.setWorker (s : Pool) (i : Nat) (worker : Worker) : Pool :=
  { s with workers := s.workers.set i worker }

/-- What a worker makes of a finished probe. -/
def Batch.judge (b : Batch) (canceled : Option String) (inst : InstanceObservation)
    (status : HealthStatus) : Worker :=
  match canceled with
  | some cause => .failing ⟨inst.name, .error (canceledError cause)⟩
  | none =>
    if monitorStatusIsConfigurationFailure status then
      .failing ⟨inst.name, .error (inst.name ++ ": " ++ status.reason)⟩
    else .reporting ⟨inst.name, .ok { status with readyReplicas := b.readyReplicas inst.name }⟩

/-- A worker's next step. -/
def Batch.work (b : Batch) (s : Pool) (i : Nat) : Worker → Option Pool
  | .idle => if s.jobsClosed then some (s.setWorker i .gone) else none
  | .probing inst => some (s.setWorker i (.checked inst (b.check inst)))
  | .checked inst status => some (s.setWorker i (b.judge s.canceled inst status))
  | .failing result =>
    if s.results.length < b.ready.length then
      some { s.setWorker i .gone with results := s.results ++ [result] }
    else none
  | .reporting result =>
    if s.results.length < b.ready.length then
      some { s.setWorker i .idle with results := s.results ++ [result] }
    else none
  | .gone => none

/-- A round of the loop that collects. -/
def Pool.collect (s : Pool) : Option Pool :=
  if s.remaining.isEmpty then some (s.finish (.ok s.out))
  else match s.results with
    | { name, answer := .ok status } :: results =>
      some { s with results := results
                    out := s.out.insert name status
                    remaining := s.remaining.erase name }
    | { name := _, answer := .error err } :: results =>
      some ({ s with results := results }.finish (.error err))
    | [] =>
      if s.resultsClosed then
        some (s.finish (.error ("monitor job finished before " ++ toString s.remaining.size ++
          " probe result(s) were collected")))
      else none

/-- A step of the pool, if the action is possible. -/
def Batch.step (b : Batch) (s : Pool) : Action → Option Pool
  | .cancel cause => if s.canceled.isNone then some { s with canceled := some cause } else none
  | .feed i =>
    match s.jobsClosed, s.pending, s.workers[i]? with
    | false, inst :: pending, some .idle =>
      some { s.setWorker i (.probing inst) with pending := pending }
    | _, _, _ => none
  | .closeJobs =>
    if !s.jobsClosed && (s.pending.isEmpty || s.canceled.isSome) then
      some { s with jobsClosed := true }
    else none
  | .work i => s.workers[i]?.bind (b.work s i)
  | .abandon i =>
    match s.canceled, s.workers[i]? with
    | some _, some (.reporting _) => some (s.setWorker i .gone)
    | _, _ => none
  | .closeResults =>
    if !s.resultsClosed && s.workers.all (·.isGone) then
      some { s with resultsClosed := true }
    else none
  | .collect => if s.returned.isNone then s.collect else none
  | .giveUp =>
    match s.returned, s.canceled with
    | none, some cause =>
      if s.remaining.isEmpty then none else some (s.finish (.error (canceledError cause)))
    | _, _ => none

/-! ## 3. `Check` -/

/-- What one call of `Check` is given, and what the world answers to it. -/
structure Job where
  resource : PgBouncerAurora
  instances : List InstanceObservation
  /-- `ProbeMonitor.WorkersPerCR` -/
  workersPerCR : Int := 0
  pods : Except String (List Pod)
  credentials : Except String (Credentials String)
  /-- opening the connection to an instance, and then the query -/
  opened : InstanceObservation → Except String (Except String Recovery)

def defaultWorkersPerCR : Nat := 10

def Job.workers (job : Job) (readyCount : Nat) : Nat :=
  let limit := if job.workersPerCR ≤ 0 then defaultWorkersPerCR else job.workersPerCR.toNat
  if 0 < readyCount ∧ readyCount < limit then readyCount else limit

/-- The instances that are not switched off by an override. -/
def enabledInstances (resource : PgBouncerAurora) (instances : List InstanceObservation) :
    List InstanceObservation :=
  instances.filter fun inst => !instanceDisabled resource.spec.pgbouncer inst.name

def isPodReady (pod : Pod) : Bool := !pod.deleting && pod.ready

def readyPodsByInstance (pods : List Pod) : StringMap Nat :=
  pods.foldl (fun out pod =>
    if isPodReady pod then
      let name := pod.labels[labelInstance]?.getD ""
      out.insert name (out[name]?.getD 0 + 1)
    else out) ∅

def notReady (readyReplicas : Int32) : HealthStatus :=
  { healthy := false, reason := "pod not ready", readyReplicas := readyReplicas }

/-- `Check` up to the goroutines: it has returned, or its pool has started. -/
inductive Started where
  | returned (result : Except String (StringMap HealthStatus))
  | pooled (batch : Batch) (pool : Pool)

def Job.start (job : Job) : Started :=
  let instances := enabledInstances job.resource job.instances
  match job.pods with
  | .error err => .returned (.error err)
  | .ok pods =>
    let readyByInstance : String → Nat := fun name => (readyPodsByInstance pods)[name]?.getD 0
    let out : StringMap HealthStatus := instances.foldl (fun out inst =>
      if readyByInstance inst.name = 0 then
        out.insert inst.name (notReady (Int32.ofNat (readyByInstance inst.name)))
      else out) ∅
    let readyInstances := instances.filter fun inst => readyByInstance inst.name ≠ 0
    if readyInstances = [] then .returned (.ok out)
    else match job.credentials with
      | .error err => .returned (.error err)
      | .ok creds =>
        .pooled
          { ready := readyInstances
            check := fun inst => checkInstance creds (job.opened inst) inst
            readyReplicas := fun name => Int32.ofNat (readyByInstance name) }
          { pending := readyInstances
            workers := List.replicate (job.workers readyInstances.length) .idle
            remaining := readyInstances.foldl (fun out inst => out.insert inst.name inst) ∅
            out := out }

/-- `Check` can return `result`: at once, or under some scheduling of its pool. -/
def Job.Returns (job : Job) (result : Except String (StringMap HealthStatus)) : Prop :=
  match job.start with
  | .returned answer => answer = result
  | .pooled batch pool =>
    ∃ actions s, Machine.Leads batch.step pool actions s ∧ s.returned = some result

/-- `Check` returns under every scheduling: no run of its pool goes on for ever, and one that
cannot go on has returned. -/
def Job.ComesBack (job : Job) : Prop :=
  match job.start with
  | .returned _ => True
  | .pooled batch pool =>
    (∃ bound, ∀ actions s, Machine.Leads batch.step pool actions s → actions.length ≤ bound) ∧
      ∀ actions s, Machine.Leads batch.step pool actions s → Machine.Blocked batch.step s →
        s.returned.isSome

end Monitor

end AuroraOperator

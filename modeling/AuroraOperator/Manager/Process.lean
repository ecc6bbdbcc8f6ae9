/-
# The operator as a process

An operator looks after all resources of a namespace that it watches.  Its process has three
parts that run side by side.

* The **scheduler** lists the resources at every tick and starts a goroutine for each job that is
  due, unless one of that kind is under way for the resource: `inFlight` says which are.
* A **job** reads its resource, works, commits, sends an event to the controller and takes its
  name out of `inFlight`.  The goroutines move in any order, and each of their stages is a step.
* The **controller** has a queue of names.  Events, watches and timers put a name in, a worker
  takes it out and runs a Reconcile, in two halves as in `Interleaving`.  A Reconcile that comes too
  early is put off, one that fails is tried again.

The queue is that of the controller runtime: a name that waits is not queued twice, a name that a
worker has is given to no other, and what is to come back later waits in `timers`.  The clock of
the process only goes forward; the times that jobs write come from the wall clock, and are the
business of whoever takes the step.
-/
import AuroraOperator.WatchNames
import AuroraOperator.Controller.Interleaving

namespace AuroraOperator

namespace Manager

open Controller

/-! ## 1. Jobs -/

/-- What the process was started with. -/
structure Operator where
  nameSpace : String
  watchName : String := "*"
  reconcileMinInterval : Int := 0

inductive JobKind
  | discovery | monitor
  deriving DecidableEq, Repr

def JobKind.text : JobKind → String
  | .discovery => "discovery"
  | .monitor => "monitor"

/-- `key.String()` puts a slash between the namespace and the name. -/
def inFlightID (kind : JobKind) (nameSpace name : String) : String :=
  kind.text ++ ":" ++ (nameSpace ++ "/" ++ name)

/-- What a job of a kind brings to its commit. -/
abbrev JobKind.Work : JobKind → Type
  | .discovery => DiscoveryWork
  | .monitor => MonitorWork

/-- The first half of a job. -/
def JobKind.take (discover : Discover) (check : Check) (checkedAt now : Int) :
    (kind : JobKind) → PgBouncerAurora → Option kind.Work
  | .discovery => takeDiscovery discover checkedAt now
  | .monitor => takeMonitor check checkedAt now

def JobKind.commit : (kind : JobKind) → kind.Work → PgBouncerAurora → Option Status
  | .discovery => DiscoveryWork.commit
  | .monitor => MonitorWork.commit

/-- Where a goroutine is. -/
inductive Stage (W : Type)
  | started
  | working (work : W)
  /-- the status is committed, the event not yet sent -/
  | reporting
  /-- all that is left is the deferred `clearInFlight` -/
  | leaving

structure Job where
  kind : JobKind
  name : String
  stage : Stage kind.Work

abbrev Job.key (job : Job) : JobKind × String := (job.kind, job.name)

def Job.id (op : Operator) (job : Job) : String := inFlightID job.kind op.nameSpace job.name

/-! ## 2. The process -/

/-- A resource, and what was written on its behalf. -/
structure Entry where
  stored : StoredResource
  writes : List Write := []

/-- What a reader of the operator's log can tell. -/
inductive Happening
  /-- a job has written what it found out -/
  | committed (name : String)
  /-- the event of a job found the channel full -/
  | dropped (name : String)
  /-- the throttle has let a Reconcile through -/
  | passed (name : String) (time : Int)
  /-- it found no resource -/
  | missing (name : String)
  /-- it has done all but the commit of its status -/
  | prepared (name : String)
  | finished (name : String)
  deriving DecidableEq, Repr

structure Process where
  resources : StringMap Entry := ∅
  cluster : Cluster := {}
  /-- what the scheduler's loop has yet to go through -/
  pending : List (JobKind × String) := []
  inFlight : StringMap Unit := ∅
  jobs : List Job := []
  /-- the channel from the jobs to the controller, oldest first -/
  events : List String := []
  queue : List String := []
  timers : List (Int × String) := []
  /-- the Reconciles between their halves -/
  prepared : StringMap Prepared := ∅
  lastReconcileStarted : StringMap Int := ∅
  clock : Int := 0
  /-- newest first -/
  journal : List Happening := []

/-- The buffer of the channel that `main` makes. -/
def eventCapacity : Nat := 1024

namespace Process

variable (op : Operator) (s : Process)

/-- The world that a job or a Reconcile of a resource works in. -/
def world (entry : Entry) (faults : List (Option Fault)) : World :=
  { stored := entry.stored, cluster := s.cluster, faults := faults, writes := entry.writes }

/-- What becomes of it. -/
@[simps] def store (name : String) (w : World) : Process :=
  { s with resources := s.resources.insert name { stored := w.stored, writes := w.writes }
           cluster := w.cluster }

@[simps] def note (happening : Happening) : Process :=
  { s with journal := happening :: s.journal }

/-! ## 3. The scheduler -/

/-- The jobs that `enqueueDueJobs` asks for, in the order of its loop. -/
def dueJobs (now : Int) : List (JobKind × String) :=
  s.resources.toList.flatMap fun entry =>
    let resource := entry.2.stored.resource
    if matchesWatchNames op.watchName entry.1 then
      (if discoveryDue resource now then [(JobKind.discovery, entry.1)] else []) ++
        (if monitorDue resource now && !resource.status.lastKnownTopology.isEmpty then
          [(JobKind.monitor, entry.1)] else [])
    else []

/-- The answer is whether the job may start. -/
def markInFlight (id : String) : Bool × StringMap Unit :=
  if id ∈ s.inFlight then (false, s.inFlight) else (true, s.inFlight.insert id ())

def clearInFlight (id : String) : StringMap Unit := s.inFlight.erase id

/-- A second job of the kind is not started. -/
@[simps] def enqueueJob (kind : JobKind) (name : String) : Process :=
  let marked := s.markInFlight (inFlightID kind op.nameSpace name)
  { s with
    inFlight := marked.2
    jobs := s.jobs ++
      if marked.1 then [{ kind := kind, name := name, stage := .started }] else [] }

/-! ## 4. A goroutine -/

@[simps] def setStage (i : Nat) (kind : JobKind) (name : String) (stage : Stage kind.Work) :
    Process :=
  { s with jobs := s.jobs.set i { kind := kind, name := name, stage := stage } }

/-- The stage after the first half.  Without a resource, or with one that is not due, the job is
over; so it is when the read fails. -/
def taken (kind : JobKind) (name : String) (discover : Discover) (check : Check)
    (checkedAt now : Int) (failed : Bool) : Stage kind.Work :=
  match s.resources[name]? with
  | none => .leaving
  | some entry =>
    if failed || !matchesWatchNames op.watchName name then .leaving
    else match kind.take discover check checkedAt now entry.stored.resource with
      | none => .leaving
      | some work => .working work

/-- The second half.  A commit that turned out to be stale is as good as one that was written. -/
def commitJob (i : Nat) (kind : JobKind) (name : String) (work : kind.Work)
    (faults : List (Option Fault)) : Process :=
  match s.resources[name]? with
  | none => s.setStage i kind name .leaving
  | some entry =>
    match commitStatus (kind.commit work) (s.world entry faults) with
    | .ok _ w => ((s.store name w).note (.committed name)).setStage i kind name .reporting
    | .error _ w => (s.store name w).setStage i kind name .leaving

/-- The send does not wait: an event that finds the channel full is lost. -/
def enqueueReconcile (name : String) : Process :=
  if s.events.length < eventCapacity then { s with events := s.events ++ [name] }
  else s.note (.dropped name)

/-! ## 5. The controller -/

/-- A name that waits already is not queued twice. -/
@[simps] def request (name : String) : Process :=
  { s with queue := if name ∈ s.queue then s.queue else s.queue ++ [name] }

/-- Come back to a name later. -/
@[simps] def later (delay : Int) (name : String) : Process :=
  { s with timers := s.timers ++ [(s.clock + delay, name)] }

/-- How long a Reconcile has to wait, and when the last one started after this one has asked. -/
def reconcileThrottleRemaining (name : String) : Int × StringMap Int :=
  if op.reconcileMinInterval ≤ 0 then (0, s.lastReconcileStarted)
  else match s.lastReconcileStarted[name]? with
    | none => (0, s.lastReconcileStarted.insert name s.clock)
    | some last =>
      if s.clock - last < op.reconcileMinInterval then
        (op.reconcileMinInterval - (s.clock - last), s.lastReconcileStarted)
      else (0, s.lastReconcileStarted.insert name s.clock)

@[simps] def forgetReconcileThrottle (name : String) : Process :=
  { s with lastReconcileStarted := s.lastReconcileStarted.erase name }

/-- The first half of a Reconcile that has passed the throttle. -/
def prepareReconcile (name : String) (now : Int) (faults : List (Option Fault)) (backoff : Nat) :
    Process :=
  match s.resources[name]? with
  | none => (s.forgetReconcileThrottle name).note (.missing name)
  | some entry =>
    match prepare .scheduled now (s.world entry faults) with
    | .ok prepared w =>
      { (s.store name w).note (.prepared name) with prepared := s.prepared.insert name prepared }
    | .error _ w => (s.store name w).later backoff name

/-- `Reconcile`, up to its commit. -/
def reconcile (name : String) (now : Int) (faults : List (Option Fault)) (backoff : Nat) :
    Process :=
  if !matchesWatchNames op.watchName name then s
  else
    let throttle := reconcileThrottleRemaining op s name
    if throttle.1 > 0 then s.later throttle.1 name
    else
      let passed := { s with lastReconcileStarted := throttle.2 }
      prepareReconcile (passed.note (.passed name s.clock)) name now faults backoff

/-- `updateStatus`, and the end of the Reconcile. -/
def finishReconcile (name : String) (prepared : Prepared) (faults : List (Option Fault))
    (backoff : Nat) : Process :=
  match s.resources[name]? with
  | none => s.later backoff name
  | some entry =>
    match commitStatus prepared.commit (s.world entry faults) with
    | .ok _ w => (s.store name w).note (.finished name)
    | .error _ w => (s.store name w).later backoff name

/-! ## 6. Everybody else -/

@[simps] def createResource (name : String) (spec : PgBouncerAuroraSpec) : Process :=
  { s with resources := s.resources.insert name { stored := StoredResource.create name spec } }

@[simps] def editResource (name : String) (entry : Entry) (spec : PgBouncerAuroraSpec) : Process :=
  { s with
    resources := s.resources.insert name { entry with stored := entry.stored.editSpec spec } }

end Process

/-! ## 7. Steps -/

inductive Step
  /-- the scheduler lists the resources -/
  | list (now : Int) (failed : Bool)
  /-- and goes through what is due, one at a time -/
  | enqueue
  | take (i : Nat) (discover : Discover) (check : Check) (checkedAt now : Int) (failed : Bool)
  | commit (i : Nat) (faults : List (Option Fault))
  | report (i : Nat)
  | leave (i : Nat)
  /-- an event reaches the queue -/
  | deliver
  /-- a watch asks for a resource -/
  | request (name : String)
  | wait (time : Nat)
  /-- a timer runs out -/
  | fire (i : Nat)
  /-- a worker takes a name from the queue -/
  | start (name : String) (now : Int) (faults : List (Option Fault)) (backoff : Nat)
  | finish (name : String) (faults : List (Option Fault)) (backoff : Nat)
  | create (name : String) (spec : PgBouncerAuroraSpec)
  | editSpec (name : String) (spec : PgBouncerAuroraSpec)
  | delete (name : String)
  | environment (cluster : Cluster)

/-- A step that is not possible leaves the process as it is. -/
def Process.next (op : Operator) (s : Process) : Step → Process
  | .list now failed =>
    if failed || !s.pending.isEmpty || trimSpace op.nameSpace = "" then s
    else { s with pending := s.dueJobs op now }
  | .enqueue =>
    match s.pending with
    | [] => s
    | (kind, name) :: rest => { s.enqueueJob op kind name with pending := rest }
  | .take i discover check checkedAt now failed =>
    match s.jobs[i]? with
    | some ⟨kind, name, .started⟩ =>
      s.setStage i kind name (s.taken op kind name discover check checkedAt now failed)
    | _ => s
  | .commit i faults =>
    match s.jobs[i]? with
    | some ⟨kind, name, .working work⟩ => s.commitJob i kind name work faults
    | _ => s
  | .report i =>
    match s.jobs[i]? with
    | some ⟨kind, name, .reporting⟩ => (s.enqueueReconcile name).setStage i kind name .leaving
    | _ => s
  | .leave i =>
    match s.jobs[i]? with
    | some ⟨kind, name, .leaving⟩ =>
      { s with inFlight := s.clearInFlight (inFlightID kind op.nameSpace name)
               jobs := s.jobs.eraseIdx i }
    | _ => s
  | .deliver =>
    match s.events with
    | [] => s
    | name :: rest => Process.request { s with events := rest } name
  | .request name => s.request name
  | .wait time => { s with clock := s.clock + time }
  | .fire i =>
    match s.timers[i]? with
    | some (due, name) =>
      if due ≤ s.clock then Process.request { s with timers := s.timers.eraseIdx i } name else s
    | none => s
  | .start name now faults backoff =>
    if name ∈ s.queue && s.prepared[name]?.isNone then
      Process.reconcile op { s with queue := s.queue.erase name } name now faults backoff
    else s
  | .finish name faults backoff =>
    match s.prepared[name]? with
    | some prepared =>
      Process.finishReconcile { s with prepared := s.prepared.erase name } name prepared faults
        backoff
    | none => s
  | .create name spec => if s.resources[name]?.isNone then s.createResource name spec else s
  | .editSpec name spec =>
    match s.resources[name]? with
    | some entry => s.editResource name entry spec
    | none => s
  | .delete name => { s with resources := s.resources.erase name }
  | .environment cluster => { s with cluster := cluster }

/-- Whether it is. -/
def Process.possible (op : Operator) (s : Process) : Step → Bool
  | .list _ failed => !failed && s.pending.isEmpty && trimSpace op.nameSpace ≠ ""
  | .enqueue => !s.pending.isEmpty
  | .take i .. => match s.jobs[i]? with
    | some ⟨_, _, .started⟩ => true
    | _ => false
  | .commit i _ => match s.jobs[i]? with
    | some ⟨_, _, .working _⟩ => true
    | _ => false
  | .report i => match s.jobs[i]? with
    | some ⟨_, _, .reporting⟩ => true
    | _ => false
  | .leave i => match s.jobs[i]? with
    | some ⟨_, _, .leaving⟩ => true
    | _ => false
  | .deliver => !s.events.isEmpty
  | .fire i => match s.timers[i]? with
    | some (due, _) => due ≤ s.clock
    | none => false
  | .start name .. => name ∈ s.queue && s.prepared[name]?.isNone
  | .finish name .. => s.prepared[name]?.isSome
  | .create name _ => s.resources[name]?.isNone
  | .editSpec name _ => s.resources[name]?.isSome
  | .request _ | .wait _ | .delete _ | .environment _ => true

/-! ## 8. What a step can do -/

/-- The Reconcile has not to wait. -/
def Process.Passes (op : Operator) (s : Process) (name : String) : Prop :=
  (s.reconcileThrottleRemaining op name).1 ≤ 0

/-- The process after the throttle has let a Reconcile through. -/
@[simps] def Process.passed (op : Operator) (s : Process) (name : String) : Process :=
  { s with queue := s.queue.erase name
           lastReconcileStarted := (s.reconcileThrottleRemaining op name).2
           journal := .passed name s.clock :: s.journal }

theorem getElem?_insert_ne {α : Type} {m : StringMap α} {k k' : String} {v : α} (h : k' ≠ k) :
    (m.insert k v)[k']? = m[k']? := by
  rw [Std.ExtTreeMap.getElem?_insert, if_neg (by simpa using h.symm)]

theorem getElem?_erase_ne {α : Type} {m : StringMap α} {k k' : String} (h : k' ≠ k) :
    (m.erase k)[k']? = m[k']? := by
  rw [Std.ExtTreeMap.getElem?_erase, if_neg (by simpa using h.symm)]

theorem mem_queue_request {s : Process} {name name' : String} (h : name' ∈ s.queue) :
    name' ∈ (s.request name).queue := by
  rw [Process.request_queue]
  split
  · exact h
  · exact List.mem_append_left _ h

theorem mem_queue_request_self {s : Process} {name : String} : name ∈ (s.request name).queue := by
  rw [Process.request_queue]
  split
  · assumption
  · exact List.mem_append_right _ (List.mem_singleton_self _)

/-- Every way a possible step can go, with what it needs. -/
inductive Acts (op : Operator) (s : Process) : Step → Process → Prop
  | listed {now : Int} {failed : Bool} (through : s.pending = []) :
      Acts op s (.list now failed) { s with pending := s.dueJobs op now }
  | enqueued {kind : JobKind} {name : String} {rest : List (JobKind × String)}
      (next : s.pending = (kind, name) :: rest) :
      Acts op s .enqueue { s.enqueueJob op kind name with pending := rest }
  | took {i : Nat} {kind : JobKind} {name : String} {discover : Discover} {check : Check}
      {checkedAt now : Int} {failed : Bool} (job : s.jobs[i]? = some ⟨kind, name, .started⟩) :
      Acts op s (.take i discover check checkedAt now failed)
        (s.setStage i kind name (s.taken op kind name discover check checkedAt now failed))
  | orphaned {i : Nat} {kind : JobKind} {name : String} {work : kind.Work}
      {faults : List (Option Fault)} (job : s.jobs[i]? = some ⟨kind, name, .working work⟩)
      (gone : s.resources[name]? = none) :
      Acts op s (.commit i faults) (s.setStage i kind name .leaving)
  | committed {i : Nat} {kind : JobKind} {name : String} {work : kind.Work}
      {faults : List (Option Fault)} {entry : Entry} {answer : Bool} {w : World}
      (job : s.jobs[i]? = some ⟨kind, name, .working work⟩)
      (there : s.resources[name]? = some entry)
      (run : commitStatus (kind.commit work) (s.world entry faults) = .ok answer w) :
      Acts op s (.commit i faults)
        (((s.store name w).note (.committed name)).setStage i kind name .reporting)
  | uncommitted {i : Nat} {kind : JobKind} {name : String} {work : kind.Work}
      {faults : List (Option Fault)} {entry : Entry} {e : ApiError} {w : World}
      (job : s.jobs[i]? = some ⟨kind, name, .working work⟩)
      (there : s.resources[name]? = some entry)
      (run : commitStatus (kind.commit work) (s.world entry faults) = .error e w) :
      Acts op s (.commit i faults) ((s.store name w).setStage i kind name .leaving)
  | sent {i : Nat} {kind : JobKind} {name : String}
      (job : s.jobs[i]? = some ⟨kind, name, .reporting⟩)
      (room : s.events.length < eventCapacity) :
      Acts op s (.report i)
        (Process.setStage { s with events := s.events ++ [name] } i kind name .leaving)
  | dropped {i : Nat} {kind : JobKind} {name : String}
      (job : s.jobs[i]? = some ⟨kind, name, .reporting⟩)
      (full : eventCapacity ≤ s.events.length) :
      Acts op s (.report i) ((s.note (.dropped name)).setStage i kind name .leaving)
  | left {i : Nat} {kind : JobKind} {name : String}
      (job : s.jobs[i]? = some ⟨kind, name, .leaving⟩) :
      Acts op s (.leave i)
        { s with inFlight := s.clearInFlight (inFlightID kind op.nameSpace name)
                 jobs := s.jobs.eraseIdx i }
  | delivered {name : String} {rest : List String} (next : s.events = name :: rest) :
      Acts op s .deliver (Process.request { s with events := rest } name)
  | requested {name : String} : Acts op s (.request name) (s.request name)
  | waited {time : Nat} : Acts op s (.wait time) { s with clock := s.clock + time }
  | fired {i : Nat} {due : Int} {name : String} (timer : s.timers[i]? = some (due, name))
      (late : due ≤ s.clock) :
      Acts op s (.fire i) (Process.request { s with timers := s.timers.eraseIdx i } name)
  | unwatched {name : String} {now : Int} {faults : List (Option Fault)} {backoff : Nat}
      (queued : name ∈ s.queue) (watch : matchesWatchNames op.watchName name = false) :
      Acts op s (.start name now faults backoff) { s with queue := s.queue.erase name }
  | throttled {name : String} {now : Int} {faults : List (Option Fault)} {backoff : Nat}
      (queued : name ∈ s.queue) (free : s.prepared[name]? = none)
      (early : 0 < (s.reconcileThrottleRemaining op name).1) :
      Acts op s (.start name now faults backoff)
        (Process.later { s with queue := s.queue.erase name }
          (s.reconcileThrottleRemaining op name).1 name)
  | vanished {name : String} {now : Int} {faults : List (Option Fault)} {backoff : Nat}
      (queued : name ∈ s.queue) (free : s.prepared[name]? = none) (passes : s.Passes op name)
      (gone : s.resources[name]? = none) :
      Acts op s (.start name now faults backoff)
        (((s.passed op name).forgetReconcileThrottle name).note (.missing name))
  | began {name : String} {now : Int} {faults : List (Option Fault)} {backoff : Nat}
      {entry : Entry} {p : Prepared} {w : World}
      (queued : name ∈ s.queue) (watch : matchesWatchNames op.watchName name = true)
      (free : s.prepared[name]? = none) (passes : s.Passes op name)
      (there : s.resources[name]? = some entry)
      (run : prepare .scheduled now (s.world entry faults) = .ok p w) :
      Acts op s (.start name now faults backoff)
        { ((s.passed op name).store name w).note (.prepared name) with
          prepared := s.prepared.insert name p }
  | broke {name : String} {now : Int} {faults : List (Option Fault)} {backoff : Nat}
      {entry : Entry} {e : ApiError} {w : World}
      (queued : name ∈ s.queue) (watch : matchesWatchNames op.watchName name = true)
      (free : s.prepared[name]? = none) (passes : s.Passes op name)
      (there : s.resources[name]? = some entry)
      (run : prepare .scheduled now (s.world entry faults) = .error e w) :
      Acts op s (.start name now faults backoff) (((s.passed op name).store name w).later backoff name)
  | bereft {name : String} {faults : List (Option Fault)} {backoff : Nat} {p : Prepared}
      (job : s.prepared[name]? = some p) (gone : s.resources[name]? = none) :
      Acts op s (.finish name faults backoff)
        (Process.later { s with prepared := s.prepared.erase name } backoff name)
  | finished {name : String} {faults : List (Option Fault)} {backoff : Nat} {p : Prepared}
      {entry : Entry} {answer : Bool} {w : World}
      (job : s.prepared[name]? = some p) (there : s.resources[name]? = some entry)
      (run : commitStatus p.commit (s.world entry faults) = .ok answer w) :
      Acts op s (.finish name faults backoff)
        ((Process.store { s with prepared := s.prepared.erase name } name w).note (.finished name))
  | unfinished {name : String} {faults : List (Option Fault)} {backoff : Nat} {p : Prepared}
      {entry : Entry} {e : ApiError} {w : World}
      (job : s.prepared[name]? = some p) (there : s.resources[name]? = some entry)
      (run : commitStatus p.commit (s.world entry faults) = .error e w) :
      Acts op s (.finish name faults backoff)
        ((Process.store { s with prepared := s.prepared.erase name } name w).later backoff name)
  | created {name : String} {spec : PgBouncerAuroraSpec} (free : s.resources[name]? = none) :
      Acts op s (.create name spec) (s.createResource name spec)
  | edited {name : String} {spec : PgBouncerAuroraSpec} {entry : Entry}
      (there : s.resources[name]? = some entry) :
      Acts op s (.editSpec name spec) (s.editResource name entry spec)
  | deleted {name : String} :
      Acts op s (.delete name) { s with resources := s.resources.erase name }
  | moved {cluster : Cluster} : Acts op s (.environment cluster) { s with cluster := cluster }

/-- The journal only grows. -/
theorem Acts.journal {op : Operator} {s s' : Process} {step : Step} (h : Acts op s step s') :
    ∃ new, s'.journal = new ++ s.journal := by
  cases h with
  | vanished queued free passes gone => exact ⟨[_, _], rfl⟩
  | began queued watch free passes there run => exact ⟨[_, _], rfl⟩
  | committed job there run | dropped job full | broke queued watch free passes there run
  | finished job there run => exact ⟨[_], rfl⟩
  | _ => exact ⟨[], rfl⟩

theorem reconcile_acts {op : Operator} {s : Process} {name : String} (queued : name ∈ s.queue)
    (free : s.prepared[name]? = none) (now : Int) (faults : List (Option Fault)) (backoff : Nat) :
    Acts op s (.start name now faults backoff)
      (Process.reconcile op { s with queue := s.queue.erase name } name now faults backoff) := by
  unfold Process.reconcile
  dsimp only
  split
  · rename_i hwatch
    exact .unwatched queued (by simpa using hwatch)
  · rename_i hwatch
    have hwatched : matchesWatchNames op.watchName name = true := by simpa using hwatch
    split
    · rename_i hearly
      exact .throttled queued free hearly
    · rename_i hpasses
      have passes : s.Passes op name := not_lt.mp hpasses
      unfold Process.prepareReconcile
      split
      · rename_i hgone
        exact .vanished queued free passes hgone
      · rename_i entry hthere
        split
        · rename_i p w hrun
          exact .began queued hwatched free passes hthere hrun
        · rename_i e w hrun
          exact .broke queued hwatched free passes hthere hrun

theorem finishReconcile_acts {op : Operator} {s : Process} {name : String} {p : Prepared}
    (job : s.prepared[name]? = some p) (faults : List (Option Fault)) (backoff : Nat) :
    Acts op s (.finish name faults backoff)
      (Process.finishReconcile { s with prepared := s.prepared.erase name } name p faults
        backoff) := by
  unfold Process.finishReconcile
  split
  · rename_i hgone
    exact .bereft job hgone
  · rename_i entry hthere
    split
    · rename_i answer w hrun
      exact .finished job hthere hrun
    · rename_i e w hrun
      exact .unfinished job hthere hrun

theorem commitJob_acts {op : Operator} {s : Process} {i : Nat} {kind : JobKind} {name : String}
    {work : kind.Work} (job : s.jobs[i]? = some ⟨kind, name, .working work⟩)
    (faults : List (Option Fault)) :
    Acts op s (.commit i faults) (s.commitJob i kind name work faults) := by
  unfold Process.commitJob
  split
  · rename_i hgone
    exact .orphaned job hgone
  · rename_i entry hthere
    split
    · rename_i answer w hrun
      exact .committed job hthere hrun
    · rename_i e w hrun
      exact .uncommitted job hthere hrun

/-- **A possible step is an act.** -/
theorem next_acts {op : Operator} {s : Process} {step : Step} (h : s.possible op step = true) :
    Acts op s step (s.next op step) := by
  cases step with
  | list now failed =>
    simp only [Process.possible, Bool.and_eq_true, Bool.not_eq_true', decide_eq_true_eq] at h
    obtain ⟨⟨hfailed, hpending⟩, hspace⟩ := h
    simp only [Process.next, hfailed, hpending, hspace]
    exact .listed (by simpa using hpending)
  | enqueue =>
    dsimp only [Process.next]
    split
    · rename_i hnil
      simp [Process.possible, hnil] at h
    · rename_i kind name rest hnext
      exact .enqueued hnext
  | take i discover check checkedAt now failed =>
    dsimp only [Process.next, Process.possible] at h ⊢
    split at h
    · rename_i hi
      simp only [hi]
      exact .took hi
    · cases h
  | commit i faults =>
    dsimp only [Process.next, Process.possible] at h ⊢
    split at h
    · rename_i hi
      simp only [hi]
      exact commitJob_acts hi faults
    · cases h
  | report i =>
    dsimp only [Process.next, Process.possible] at h ⊢
    split at h
    · rename_i hi
      simp only [hi, Process.enqueueReconcile]
      split
      · rename_i hroom
        exact .sent hi hroom
      · rename_i hfull
        exact .dropped hi (not_lt.mp hfull)
    · cases h
  | leave i =>
    dsimp only [Process.next, Process.possible] at h ⊢
    split at h
    · rename_i hi
      simp only [hi]
      exact .left hi
    · cases h
  | deliver =>
    dsimp only [Process.next]
    split
    · rename_i hnil
      simp [Process.possible, hnil] at h
    · rename_i hnext
      exact .delivered hnext
  | request name => exact .requested
  | wait time => exact .waited
  | fire i =>
    dsimp only [Process.next, Process.possible] at h ⊢
    split at h
    · rename_i due name htimer
      simp only [if_pos (of_decide_eq_true h)]
      exact .fired htimer (of_decide_eq_true h)
    · cases h
  | start name now faults backoff =>
    have hboth : name ∈ s.queue ∧ s.prepared[name]? = none := by
      simpa [Process.possible] using h
    have hcond : (name ∈ s.queue && s.prepared[name]?.isNone) = true := h
    simp only [Process.next, hcond, if_true]
    exact reconcile_acts hboth.1 hboth.2 now faults backoff
  | finish name faults backoff =>
    obtain ⟨p, hp⟩ := Option.isSome_iff_exists.mp h
    simp only [Process.next, hp]
    exact finishReconcile_acts hp faults backoff
  | create name spec =>
    have hfree : s.resources[name]?.isNone = true := h
    simp only [Process.next, hfree, if_true]
    exact .created (Option.isNone_iff_eq_none.mp hfree)
  | editSpec name spec =>
    obtain ⟨entry, hentry⟩ := Option.isSome_iff_exists.mp h
    simp only [Process.next, hentry]
    exact .edited hentry
  | delete name => exact .deleted
  | environment cluster => exact .moved

theorem next_of_not_possible {op : Operator} {s : Process} {step : Step}
    (h : s.possible op step = false) : s.next op step = s := by
  cases step with
  | list now failed =>
    dsimp only [Process.next]
    split
    · rfl
    · rename_i hcond
      simp_all [Process.possible]
  | enqueue =>
    have hnil : s.pending = [] := by simpa [Process.possible] using h
    simp only [Process.next, hnil]
  | commit i faults =>
    dsimp only [Process.next, Process.possible] at h ⊢
    split at h
    · cases h
    · split
      · rename_i hother _ _ _ _ hi
        exact absurd hi (hother _ _ _)
      · rfl
  | take i discover check checkedAt now failed | report i | leave i =>
    dsimp only [Process.next, Process.possible] at h ⊢
    split at h
    · cases h
    · split
      · rename_i hother _ _ _ hi
        exact absurd hi (hother _ _)
      · rfl
  | deliver =>
    have hnil : s.events = [] := by simpa [Process.possible] using h
    simp only [Process.next, hnil]
  | fire i =>
    dsimp only [Process.next, Process.possible] at h ⊢
    split at h
    · simp only [if_neg (of_decide_eq_false h)]
    · rfl
  | start name now faults backoff =>
    have hcond : (name ∈ s.queue && s.prepared[name]?.isNone) = false := h
    simp [Process.next, hcond]
  | finish name faults backoff =>
    have hnone : s.prepared[name]? = none := Option.isSome_eq_false_iff.mp h |>
      Option.isNone_iff_eq_none.mp
    simp only [Process.next, hnone]
  | create name spec =>
    have hthere : s.resources[name]?.isNone = false := h
    simp [Process.next, hthere]
  | editSpec name spec =>
    have hnone : s.resources[name]? = none := Option.isSome_eq_false_iff.mp h |>
      Option.isNone_iff_eq_none.mp
    simp only [Process.next, hnone]
  | request name => cases h
  | wait time => cases h
  | delete name => cases h
  | environment cluster => cases h

/-- The rule for one step: it changes nothing, or is an act. -/
theorem next_induction {op : Operator} {s : Process} {P : Process → Prop} (hs : P s) {step : Step}
    (hacts : ∀ s', Acts op s step s' → P s') : P (s.next op step) := by
  cases h : s.possible op step with
  | true => exact hacts _ (next_acts h)
  | false => rwa [next_of_not_possible h]

end Manager

end AuroraOperator

/-
# The operator comes to rest

Between two ticks of its clock the process can do many things, in any order: start goroutines,
move them on, deliver events, run Reconciles that fail or come too early.  Every such step takes
something from a bounded load, because what fails or comes too early waits for a time that has not
come.

But a Reconcile also feeds itself.  The controller watches the objects that it owns and the pods
that it labels, so that everything it writes there comes back as a request for the resource; only a
write of the status does not, since it leaves the generation as it is.  An `Echoing` process has
these requests.  What keeps them from going round for ever is the throttle: a resource is let through
once until time goes by, and whoever is not let through writes nothing.

* `comes_to_rest`: no run of the process and its echoes goes on for ever, and the length of each is
  bounded by the load and the writes.  When no step is left, every commit has been put into effect
  or waits for a timer that has not run out.
-/
import AuroraOperator.Controller.Deletion
import AuroraOperator.Manager.Throttle
import AuroraOperator.Manager.Wakeups
import Mathlib.Data.Finset.Card
import Mathlib.Data.Prod.Lex

namespace AuroraOperator

namespace Manager

open Controller Keyed

/-! ## 1. Weights -/

/-- Where a goroutine reports it makes an event, and is not over yet. -/
@[simp] def Stage.weight {W : Type} : Stage W → Nat
  | .started => 7
  | .working _ => 6
  | .reporting => 5
  | .leaving => 1

@[simp] def Job.weight (job : Job) : Nat := job.stage.weight

/-- A timer that has not run out weighs nothing. -/
def timerWeight (clock : Int) (timer : Int × String) : Nat := if timer.1 ≤ clock then 3 else 0

/-- What the process has yet to do at this time. -/
def Process.load (s : Process) : Nat :=
  8 * s.pending.length + weigh Job.weight s.jobs + 3 * s.events.length + 2 * s.queue.length +
    weigh (timerWeight s.clock) s.timers + s.prepared.size

/-! ## 2. Steps of its own -/

/-- The steps that need nobody else.  What has failed is not tried again at once. -/
def Step.own : Step → Bool
  | .enqueue | .take .. | .commit .. | .report _ | .leave _ | .deliver | .fire _ => true
  | .start _ _ _ backoff | .finish _ _ backoff => 0 < backoff
  | _ => false

/-- A step of its own, where it is possible. -/
def Process.move (op : Operator) (s : Process) (step : Step) : Option Process :=
  if step.own && s.possible op step then some (s.next op step) else none

section Load

variable {op : Operator} {s s' : Process}

theorem taken_weight (op : Operator) (s : Process) (kind : JobKind) (name : String)
    (discover : Discover) (check : Check)
    (checkedAt now : Int) (failed : Bool) :
    (s.taken op kind name discover check checkedAt now failed).weight ≤ 6 := by
  unfold Process.taken
  split
  · simp
  · split
    · simp
    · split
      · simp
      · simp

theorem enqueueJob_weight (op : Operator) (s : Process) (kind : JobKind) (name : String) :
    weigh Job.weight (s.enqueueJob op kind name).jobs ≤ weigh Job.weight s.jobs + 7 := by
  rw [Process.enqueueJob_jobs, weigh_append]
  refine Nat.add_le_add_left ?_ _
  split
  · exact Nat.le_of_eq (weigh_singleton _ _)
  · exact Nat.zero_le _

theorem request_load (s : Process) (name : String) :
    (s.request name).queue.length ≤ s.queue.length + 1 := by
  rw [Process.request_queue]
  split
  · exact Nat.le_succ _
  · rw [List.length_append, List.length_singleton]

/-- What is put off weighs nothing until its time. -/
theorem timerWeight_later {clock delay : Int} (h : 0 < delay) (name : String) :
    timerWeight clock (clock + delay, name) = 0 := by
  unfold timerWeight
  rw [if_neg (by omega)]

theorem length_erase_add_one {name : String} (h : name ∈ s.queue) :
    (s.queue.erase name).length + 1 = s.queue.length := by
  rw [List.length_erase_of_mem h]
  have := List.length_pos_of_mem h
  omega

theorem size_erase {name : String} {p : Prepared} (h : s.prepared[name]? = some p) :
    (s.prepared.erase name).size + 1 = s.prepared.size := by
  have hmem : s.prepared.contains name = true := by
    rw [Std.ExtTreeMap.contains_eq_isSome_getElem?, h, Option.isSome_some]
  have hpos : s.prepared.size ≠ 0 := fun hzero => by
    rw [Std.ExtTreeMap.eq_empty_iff_size_eq_zero.mpr hzero] at hmem
    simp at hmem
  rw [Std.ExtTreeMap.size_erase, if_pos hmem]
  omega

/-- A worker has taken a name, and has put it off at most. -/
theorem dequeued_load {name : String} (hqueued : name ∈ s.queue)
    (hpending : s'.pending = s.pending) (hjobs : s'.jobs = s.jobs) (hevents : s'.events = s.events)
    (hqueue : s'.queue = s.queue.erase name)
    (htimers : weigh (timerWeight s'.clock) s'.timers = weigh (timerWeight s.clock) s.timers)
    (hprepared : s'.prepared.size ≤ s.prepared.size + 1) : s'.load < s.load := by
  have hlength := length_erase_add_one hqueued
  simp only [Process.load, hpending, hjobs, hevents, hqueue, htimers]
  omega

/-- A Reconcile has ended, and has been put off at most. -/
theorem ended_load {name : String} {p : Prepared} (hjob : s.prepared[name]? = some p)
    (hpending : s'.pending = s.pending) (hjobs : s'.jobs = s.jobs) (hevents : s'.events = s.events)
    (hqueue : s'.queue = s.queue)
    (htimers : weigh (timerWeight s'.clock) s'.timers = weigh (timerWeight s.clock) s.timers)
    (hprepared : s'.prepared = s.prepared.erase name) : s'.load < s.load := by
  have hsize := size_erase hjob
  simp only [Process.load, hpending, hjobs, hevents, hqueue, htimers, hprepared]
  omega

/-- A goroutine has moved on. -/
theorem moved_load {i : Nat} {kind : JobKind} {name : String} {stage stage' : Stage kind.Work}
    (hi : s.jobs[i]? = some ⟨kind, name, stage⟩)
    (hpending : s'.pending = s.pending) (hjobs : s'.jobs = s.jobs.set i ⟨kind, name, stage'⟩)
    (hqueue : s'.queue = s.queue) (htimers : s'.timers = s.timers) (hclock : s'.clock = s.clock)
    (hprepared : s'.prepared = s.prepared)
    (hless : Job.weight ⟨kind, name, stage'⟩ + 3 * s'.events.length
      < Job.weight ⟨kind, name, stage⟩ + 3 * s.events.length) : s'.load < s.load := by
  have hset := weigh_set Job.weight ⟨kind, name, stage'⟩ hi
  simp only [Process.load, hpending, hjobs, hqueue, htimers, hclock, hprepared]
  omega

/-- **One step.** -/
theorem acts_load {step : Step} (h : Acts op s step s') (hown : step.own = true) :
    s'.load < s.load := by
  cases h with
  | @enqueued kind name rest next =>
    have hjobs := enqueueJob_weight op s kind name
    have hpending : s.pending.length = rest.length + 1 := by rw [next, List.length_cons]
    simp only [Process.load, Process.enqueueJob_events, Process.enqueueJob_queue,
      Process.enqueueJob_timers, Process.enqueueJob_clock, Process.enqueueJob_prepared]
    omega
  | @took i kind name discover check checkedAt now failed job =>
    refine moved_load job rfl rfl rfl rfl rfl rfl ?_
    have hweight := taken_weight op s kind name discover check checkedAt now failed
    exact Nat.add_lt_add_right (Nat.lt_succ_of_le hweight) _
  | sent job room =>
    refine moved_load job rfl rfl rfl rfl rfl rfl ?_
    simp only [Process.setStage_events, List.length_append, List.length_singleton, Job.weight,
      Stage.weight]
    omega
  | orphaned job gone | committed job there run | uncommitted job there run | dropped job full =>
    exact moved_load job rfl rfl rfl rfl rfl rfl (Nat.add_lt_add_right (by simp) _)
  | left job =>
    have herase := weigh_eraseIdx Job.weight job
    simp only [Job.weight, Stage.weight] at herase
    simp only [Process.load]
    omega
  | @delivered name rest next =>
    have hqueue := request_load { s with events := rest } name
    have hevents : s.events.length = rest.length + 1 := by rw [next, List.length_cons]
    simp only [Process.load, Process.request_pending, Process.request_jobs,
      Process.request_events, Process.request_timers, Process.request_clock,
      Process.request_prepared] at hqueue ⊢
    omega
  | @fired i due name timer late =>
    have hqueue := request_load { s with timers := s.timers.eraseIdx i } name
    have herase := weigh_eraseIdx (timerWeight s.clock) timer
    have hweight : timerWeight s.clock (due, name) = 3 := if_pos late
    simp only [Process.load, Process.request_pending, Process.request_jobs,
      Process.request_events, Process.request_timers, Process.request_clock,
      Process.request_prepared] at hqueue ⊢
    omega
  | throttled queued free early =>
    refine dequeued_load queued rfl rfl rfl rfl ?_ (Nat.le_succ _)
    simp [timerWeight_later early]
  | unwatched queued watch | vanished queued free passes gone =>
    exact dequeued_load queued rfl rfl rfl rfl rfl (Nat.le_succ _)
  | began queued watch free passes there run =>
    exact dequeued_load queued rfl rfl rfl rfl rfl Std.ExtTreeMap.size_insert_le
  | @broke name now faults backoff entry e w queued watch free passes there run =>
    refine dequeued_load queued rfl rfl rfl rfl ?_ (Nat.le_succ _)
    have hpositive : (0 : Int) < backoff := by simpa [Step.own] using hown
    simp [timerWeight_later hpositive]
  | finished job there run => exact ended_load job rfl rfl rfl rfl rfl rfl
  | @bereft name faults backoff p job gone
  | @unfinished name faults backoff p entry e w job there run =>
    refine ended_load job rfl rfl rfl rfl ?_ rfl
    have hpositive : (0 : Int) < backoff := by simpa [Step.own] using hown
    simp [timerWeight_later hpositive]
  | listed through | requested | waited | created free | edited there | deleted | moved =>
    cases hown

theorem move_eq_some {step : Step} (h : s.move op step = some s') :
    step.own = true ∧ s.possible op step = true ∧ s' = s.next op step := by
  unfold Process.move at h
  split at h
  · rename_i hcond
    obtain ⟨hown, hpossible⟩ := Bool.and_eq_true_iff.mp hcond
    exact ⟨hown, hpossible, (Option.some.inj h).symm⟩
  · cases h

end Load

/-! ## 3. Echoes -/

/-- How much was written on behalf of a resource where a watch sees it. -/
def Process.noticed (s : Process) (name : String) : Nat :=
  s.resources[name]?.elim 0 fun entry => (entry.writes.filter (!·.isStatus)).length

/-- The requests that a step calls for: one for each write that a watch sees. -/
def Process.called (s : Process) (step : Step) (s' : Process) : List String :=
  match step with
  | .start name _ _ _ => List.replicate (s'.noticed name - s.noticed name) name
  | _ => []

/-- A process and the requests that its own writes call for. -/
structure Echoing where
  process : Process
  /-- those that have not reached the queue -/
  echoes : List String := []
  /-- all of them -/
  raised : List String := []

/-- What goes on without anybody's doing. -/
inductive Unaided
  | own (step : Step)
  /-- a watch asks for a resource -/
  | notice (name : String)

def Echoing.move (op : Operator) (e : Echoing) : Unaided → Option Echoing
  | .own step => (e.process.move op step).map fun s =>
    { process := s
      echoes := e.echoes ++ e.process.called step s
      raised := e.raised ++ e.process.called step s }
  | .notice name =>
    if name ∈ e.echoes then
      some { e with process := e.process.request name, echoes := e.echoes.erase name }
    else none

section Echoes

variable {op : Operator} {s s' : Process}

theorem noticed_congr (h : s'.resources = s.resources) (name : String) :
    s'.noticed name = s.noticed name := by
  unfold Process.noticed
  rw [h]

theorem noticed_stored {name : String} {stored : StoredResource} {writes : List Write}
    (h : s'.resources = s.resources.insert name ⟨stored, writes⟩) :
    s'.noticed name = (writes.filter (!·.isStatus)).length := by
  unfold Process.noticed
  rw [h, Std.ExtTreeMap.getElem?_insert_self]
  rfl

theorem noticed_of_ne {name name' : String} {entry : Entry} (hne : name' ≠ name)
    (h : s'.resources = s.resources.insert name entry) : s'.noticed name' = s.noticed name' := by
  unfold Process.noticed
  rw [h, getElem?_insert_ne hne]

theorem noticed_of_some {name : String} {entry : Entry} (h : s.resources[name]? = some entry) :
    s.noticed name = (entry.writes.filter (!·.isStatus)).length := by
  unfold Process.noticed
  rw [h]
  rfl

/-- A commit writes nothing that a watch sees. -/
theorem noticed_committed {name : String} {entry : Entry} {faults : List (Option Fault)}
    {commit : PgBouncerAurora → Option Status} (there : s.resources[name]? = some entry)
    (h : s'.resources = s.resources.insert name
      ⟨(Program.final (commitStatus commit) (s.world entry faults)).stored,
        (Program.final (commitStatus commit) (s.world entry faults)).writes⟩) (name' : String) :
    s'.noticed name' = s.noticed name' := by
  by_cases hname : name' = name
  · rw [hname, noticed_stored h, noticed_of_some there]
    exact congrArg (fun v => v.2.length) (commitStatus_keeps commit (s.world entry faults))
  · exact noticed_of_ne hname h

/-- What the first half of a Reconcile writes is called for. -/
theorem noticed_prepared {name : String} {now : Int} {faults : List (Option Fault)} {backoff : Nat}
    {entry : Entry} (there : s.resources[name]? = some entry)
    (h : s'.resources = s.resources.insert name
      ⟨(Program.final (prepare .scheduled now) (s.world entry faults)).stored,
        (Program.final (prepare .scheduled now) (s.world entry faults)).writes⟩) (name' : String) :
    s'.noticed name' =
      s.noticed name' + (s.called (.start name now faults backoff) s').count name' := by
  unfold Process.called
  by_cases hname : name' = name
  · have hmore : s.noticed name ≤ s'.noticed name := by
      obtain ⟨new, hnew, -⟩ := prepare_deletes (s.world entry faults) now
      rw [noticed_stored h, noticed_of_some there, hnew, List.filter_append, List.length_append]
      exact Nat.le_add_left _ _
    rw [hname, List.count_replicate_self]
    omega
  · rw [noticed_of_ne hname h, List.count_replicate]
    simp [Ne.symm hname]

/-- A Reconcile that is not let through calls for nothing. -/
theorem called_of_same {step : Step} (h : s'.resources = s.resources) : s.called step s' = [] := by
  unfold Process.called
  split
  · rw [noticed_congr h, Nat.sub_self]
    rfl
  · rfl

theorem noticed_of_same {step : Step} (h : s'.resources = s.resources) (name : String) :
    s'.noticed name = s.noticed name + (s.called step s').count name := by
  rw [called_of_same h, List.count_nil]
  exact noticed_congr h name

/-- **Nothing is written unnoticed.** -/
theorem acts_noticed {step : Step} (h : Acts op s step s') (hown : step.own = true)
    (name : String) : s'.noticed name = s.noticed name + (s.called step s').count name := by
  cases h with
  | committed job there run | finished job there run =>
    exact noticed_committed there (by rw [Program.final_of_ok run]; rfl) name
  | uncommitted job there run | unfinished job there run =>
    exact noticed_committed there (by rw [Program.final_of_error run]; rfl) name
  | began queued watch free passes there run =>
    exact noticed_prepared there (by rw [Program.final_of_ok run]; rfl) name
  | broke queued watch free passes there run =>
    exact noticed_prepared there (by rw [Program.final_of_error run]; rfl) name
  | created free | edited there | deleted | moved => cases hown
  | _ =>
    apply noticed_of_same
    rfl

end Echoes

/-! ## 4. Who may still pass -/

instance (op : Operator) (s : Process) (name : String) : Decidable (s.Passes op name) :=
  inferInstanceAs (Decidable ((s.reconcileThrottleRemaining op name).1 ≤ 0))

/-- The resources `names` are those there are. -/
def Process.Has (s : Process) (names : Finset String) : Prop :=
  ∀ name, name ∈ names ↔ s.resources[name]? ≠ none

/-- How many of them would be let through. -/
def Process.passable (op : Operator) (s : Process) (names : Finset String) : Nat :=
  (names.filter fun name => s.Passes op name).card

section Passable

variable {op : Operator} {s s' : Process} {names : Finset String}

theorem has_keys (s : Process) : s.Has s.resources.keys.toFinset := by
  intro name
  rw [List.mem_toFinset, Std.ExtTreeMap.mem_keys, ← Option.isSome_iff_ne_none,
    Std.ExtTreeMap.isSome_getElem?_iff_mem]

theorem Process.Has.insert (h : s.Has names) {name : String} {entry entry' : Entry}
    (there : s.resources[name]? = some entry)
    (hresources : s'.resources = s.resources.insert name entry') : s'.Has names := by
  intro name'
  rw [h name', hresources]
  by_cases hname : name' = name
  · rw [hname, Std.ExtTreeMap.getElem?_insert_self, there]
    simp
  · rw [getElem?_insert_ne hname]

/-- Nothing that the process does of its own makes or removes a resource. -/
theorem Process.Has.acts (h : s.Has names) {step : Step} (hacts : Acts op s step s')
    (hown : step.own = true) : s'.Has names := by
  cases hacts with
  | committed job there run | uncommitted job there run | finished job there run
  | unfinished job there run | began queued watch free passes there run
  | broke queued watch free passes there run => exact h.insert there rfl
  | created free | edited there | deleted => cases hown
  | _ => exact h

theorem passes_congr {name : String}
    (htable : s'.lastReconcileStarted[name]? = s.lastReconcileStarted[name]?)
    (hclock : s'.clock = s.clock) : s'.Passes op name ↔ s.Passes op name := by
  have hsame : (s'.reconcileThrottleRemaining op name).1
      = (s.reconcileThrottleRemaining op name).1 := by
    unfold Process.reconcileThrottleRemaining
    rw [htable, hclock]
    split
    · rfl
    · split
      · rfl
      · split
        · rfl
        · rfl
  unfold Process.Passes
  rw [hsame]

/-- Whoever has been let through is not let through again at this time. -/
theorem not_passes_of_passed {name : String} (hinterval : 0 < op.reconcileMinInterval)
    (hpass : s.Passes op name)
    (htable : s'.lastReconcileStarted = (s.reconcileThrottleRemaining op name).2)
    (hclock : s'.clock = s.clock) : ¬s'.Passes op name := by
  have hlast : s'.lastReconcileStarted[name]? = some s.clock := by
    rw [htable, table_self hinterval hpass]
  unfold Process.Passes
  rw [remaining_of_some hinterval hlast, hclock]
  omega

/-- Once a resource is let through, there is one less. -/
theorem passable_passed {name : String} (hinterval : 0 < op.reconcileMinInterval)
    (hname : name ∈ names) (hpass : s.Passes op name)
    (htable : s'.lastReconcileStarted = (s.reconcileThrottleRemaining op name).2)
    (hclock : s'.clock = s.clock) : s'.passable op names < s.passable op names := by
  have hnot := not_passes_of_passed hinterval hpass htable hclock
  refine Finset.card_lt_card (Finset.ssubset_iff_of_subset ?_ |>.mpr
    ⟨name, Finset.mem_filter.mpr ⟨hname, hpass⟩, fun hin => hnot (Finset.mem_filter.mp hin).2⟩)
  refine Finset.monotone_filter_right _ fun name' _ hpass' => ?_
  have hne : name' ≠ name := by
    rintro rfl
    exact hnot hpass'
  exact (passes_congr (by rw [htable, table_ne hne]) hclock).mp hpass'

theorem passable_kept (h : ∀ name ∈ names, s'.lastReconcileStarted[name]? = s.lastReconcileStarted[name]?)
    (hclock : s'.clock = s.clock) : s'.passable op names = s.passable op names := by
  unfold Process.passable
  rw [Finset.filter_congr fun name hname => passes_congr (h name hname) hclock]

/-- **A step that calls for something lets a resource through**; the others lower the load. -/
theorem acts_passable (hinterval : 0 < op.reconcileMinInterval) (h : s.Has names) {step : Step}
    (hacts : Acts op s step s') (hown : step.own = true) :
    s'.passable op names < s.passable op names ∨
      s'.passable op names = s.passable op names ∧ s.called step s' = [] := by
  have hthere {name : String} {entry : Entry} (there : s.resources[name]? = some entry) :
      name ∈ names := (h name).mpr (by rw [there]; nofun)
  cases hacts with
  | began queued watch free passes there run | broke queued watch free passes there run =>
    exact Or.inl (passable_passed hinterval (hthere there) passes rfl rfl)
  | @vanished name now faults backoff queued free passes gone =>
    refine Or.inr ⟨passable_kept (fun name' hname' => ?_) rfl, called_of_same rfl⟩
    have hne : name' ≠ name := by
      rintro rfl
      exact (h name').mp hname' gone
    exact (getElem?_erase_ne hne).trans (table_ne hne)
  | unwatched queued watch | throttled queued free early => exact Or.inr ⟨rfl, called_of_same rfl⟩
  | waited => cases hown
  | _ => exact Or.inr ⟨rfl, rfl⟩

end Passable

/-! ## 5. Every run ends -/

/-- What an echoing process has yet to do, if it calls for nothing more. -/
def Echoing.load (e : Echoing) : Nat := e.process.load + 3 * e.echoes.length

section Ends

variable {op : Operator} {e e' : Echoing} {names : Finset String}

/-- What a turn can be. -/
theorem Echoing.move_cases {turn : Unaided} (h : e.move op turn = some e') :
    (∃ step s, step.own = true ∧ Acts op e.process step s ∧
      e' = { process := s, echoes := e.echoes ++ e.process.called step s,
             raised := e.raised ++ e.process.called step s }) ∨
      ∃ name ∈ e.echoes,
        e' = { e with process := e.process.request name, echoes := e.echoes.erase name } := by
  cases turn with
  | own step =>
    obtain ⟨s, hs, rfl⟩ := Option.map_eq_some_iff.mp h
    obtain ⟨hown, hpossible, rfl⟩ := move_eq_some hs
    exact Or.inl ⟨step, _, hown, next_acts hpossible, rfl⟩
  | notice name =>
    simp only [Echoing.move] at h
    split at h
    · rename_i hin
      exact Or.inr ⟨name, hin, (Option.some.inj h).symm⟩
    · cases h

/-- A request that reaches the queue weighs less there. -/
theorem noticed_load {name : String} (h : name ∈ e.echoes) :
    Echoing.load { e with process := e.process.request name, echoes := e.echoes.erase name }
      < e.load := by
  have hqueue := request_load e.process name
  have hpos := List.length_pos_of_mem h
  have hechoes := List.length_erase_of_mem h
  simp only [Echoing.load, Process.load, Process.request_pending, Process.request_jobs,
    Process.request_events, Process.request_timers, Process.request_clock,
    Process.request_prepared, hechoes]
  omega

/-- What a turn adds to the load was called for. -/
theorem Echoing.move_load (e : Echoing) (turn : Unaided) (e' : Echoing)
    (h : e.move op turn = some e') :
    e'.load + 3 * e.raised.length < e.load + 3 * e'.raised.length := by
  rcases Echoing.move_cases h with ⟨step, s, hown, hacts, rfl⟩ | ⟨name, hname, rfl⟩
  · have hless := acts_load hacts hown
    simp only [Echoing.load, List.length_append]
    omega
  · exact Nat.add_lt_add_right (noticed_load hname) _

/-- All that was written has been called for. -/
def Echoing.Accounts (before : Process) (e : Echoing) : Prop :=
  ∀ name, e.process.noticed name = before.noticed name + e.raised.count name

theorem Echoing.Accounts.move {before : Process} (h : e.Accounts before) {turn : Unaided}
    (hmove : e.move op turn = some e') : e'.Accounts before := by
  intro name
  rcases Echoing.move_cases hmove with ⟨step, s, hown, hacts, rfl⟩ | ⟨name, hname, rfl⟩
  · dsimp only
    rw [acts_noticed hacts hown name, h name, List.count_append, Nat.add_assoc]
  · exact h _

/-- What every turn lowers: the resources that may still pass, and then the load. -/
def Echoing.measure (op : Operator) (names : Finset String) (e : Echoing) : ℕ ×ₗ ℕ :=
  toLex (e.process.passable op names, e.load)

theorem Echoing.move_measure (hinterval : 0 < op.reconcileMinInterval) (h : e.process.Has names)
    {turn : Unaided} (hmove : e.move op turn = some e') :
    e'.process.Has names ∧ e'.measure op names < e.measure op names := by
  simp only [Echoing.measure, Prod.Lex.toLex_lt_toLex]
  rcases Echoing.move_cases hmove with ⟨step, s, hown, hacts, rfl⟩ | ⟨name, hname, rfl⟩
  · refine ⟨h.acts hacts hown, ?_⟩
    refine (acts_passable hinterval h hacts hown).imp_right fun ⟨hsame, hnone⟩ => ⟨hsame, ?_⟩
    have hless := acts_load hacts hown
    simp only [Echoing.load, hnone, List.append_nil]
    omega
  · exact ⟨h, Or.inr ⟨passable_kept (fun _ _ => rfl) rfl, noticed_load hname⟩⟩

theorem Echoing.ends (hinterval : 0 < op.reconcileMinInterval) (e : Echoing) :
    Machine.Ends (Echoing.move op) e :=
  Machine.Ends.of_measure (I := fun u : Echoing => u.process.Has e.process.resources.keys.toFinset)
    (fun _ _ _ h hmove => Echoing.move_measure hinterval h hmove) (has_keys e.process)

end Ends

/-! ## 6. At rest -/

/-- All that is left are timers that have not run out. -/
structure Process.Rests (s : Process) : Prop where
  pending : s.pending = []
  jobs : s.jobs = []
  events : s.events = []
  queue : s.queue = []
  prepared : ∀ name : String, s.prepared[name]? = none
  timers : ∀ timer ∈ s.timers, s.clock < timer.1

/-- A goroutine always has a next step. -/
theorem exists_job_step (op : Operator) {s : Process} {job : Job} (h : s.jobs[0]? = some job) :
    ∃ step : Step, step.own = true ∧ s.possible op step = true := by
  obtain ⟨kind, name, stage⟩ := job
  cases stage with
  | started =>
    exact ⟨.take 0 discoverA (fun _ _ => .ok ∅) 0 0 false, rfl, by simp [Process.possible, h]⟩
  | working work => exact ⟨.commit 0 [], rfl, by simp [Process.possible, h]⟩
  | reporting => exact ⟨.report 0, rfl, by simp [Process.possible, h]⟩
  | leaving => exact ⟨.leave 0, rfl, by simp [Process.possible, h]⟩

/-- **Where no step is left, the process rests.** -/
theorem rests_of_blocked {op : Operator} {s : Process} (h : Machine.Blocked (Process.move op) s) :
    s.Rests := by
  have hstuck (step : Step) (hown : step.own = true) : s.possible op step = false := by
    cases hpossible : s.possible op step with
    | false => rfl
    | true =>
      have hnone := h step
      simp [Process.move, hown, hpossible] at hnone
  have hprepared (name : String) : s.prepared[name]? = none := by
    have hfinish := hstuck (.finish name [] 1) rfl
    exact Option.isNone_iff_eq_none.mp (Option.isSome_eq_false_iff.mp hfinish)
  constructor
  case pending => simpa [Process.possible] using hstuck .enqueue rfl
  case jobs =>
    rcases hjobs : s.jobs with _ | ⟨job, rest⟩
    · rfl
    · have hfirst : s.jobs[0]? = some job := by rw [hjobs]; rfl
      obtain ⟨step, hown, hpossible⟩ := exists_job_step op hfirst
      rw [hstuck step hown] at hpossible
      cases hpossible
  case events => simpa [Process.possible] using hstuck .deliver rfl
  case queue =>
    rcases hqueue : s.queue with _ | ⟨name, rest⟩
    · rfl
    · have hstart := hstuck (.start name 0 [] 1) rfl
      simp [Process.possible, hqueue, hprepared] at hstart
  case prepared => exact hprepared
  case timers =>
    intro timer htimer
    obtain ⟨i, hi⟩ := List.mem_iff_getElem?.mp htimer
    have hfire := hstuck (.fire i) rfl
    obtain ⟨due, name⟩ := timer
    simpa [Process.possible, hi] using hfire

theorem process_blocked {op : Operator} {e : Echoing} (h : Machine.Blocked (Echoing.move op) e) :
    Machine.Blocked (Process.move op) e.process :=
  fun step => Option.map_eq_none_iff.mp (h (.own step))

theorem echoes_of_blocked {op : Operator} {e : Echoing} (h : Machine.Blocked (Echoing.move op) e) :
    e.echoes = [] := by
  refine List.eq_nil_iff_forall_not_mem.mpr fun name hname => ?_
  have hnone := h (.notice name)
  rw [Echoing.move, if_pos hname] at hnone
  cases hnone

theorem attentive_move {op : Operator} {e e' : Echoing} (h : Attentive op e.process)
    {turn : Unaided} (hmove : e.move op turn = some e') : Attentive op e'.process := by
  cases turn with
  | own step =>
    obtain ⟨s, hs, rfl⟩ := Option.map_eq_some_iff.mp hmove
    obtain ⟨-, -, rfl⟩ := move_eq_some hs
    exact h.next step
  | notice name =>
    simp only [Echoing.move, Option.ite_none_right_eq_some, Option.some.injEq] at hmove
    obtain ⟨-, rfl⟩ := hmove
    exact h.next (.request name)

/-- Whoever rests has nothing on its way but what waits for a timer. -/
theorem Process.Rests.awaited {s : Process} (h : s.Rests) {name : String} {since : List Happening}
    (hawaited : Awaited s name since) : ∃ due, (due, name) ∈ s.timers ∧ s.clock < due := by
  cases hawaited with
  | reporting job =>
    rw [h.jobs] at job
    cases job
  | event sent =>
    rw [h.events] at sent
    cases sent
  | queued waits =>
    rw [h.queue] at waits
    cases waits
  | @timer due waits => exact ⟨due, waits, h.timers _ waits⟩
  | running busy began => exact absurd (h.prepared name) busy

/-- **The operator comes to rest.**  Take any run, and let requests be on their way.  In whatever
order the process then takes steps of its own, with whatever failures, and the watches bring back
what it writes, no run goes on for ever; its length is bounded by the load and the writes.  At the
end no request is on its way, and every commit has been put into effect or waits for its time. -/
theorem comes_to_rest (op : Operator) (hinterval : 0 < op.reconcileMinInterval) (steps : List Step)
    (echoes : List String) :
    let s := Machine.run (Process.next op) {} steps
    let e : Echoing := { process := s, echoes := echoes }
    (∀ turns e', Machine.Leads (Echoing.move op) e turns e' →
        turns.length ≤ s.load + 3 * (echoes.length + e'.raised.length) ∧
        ∀ name, e'.process.noticed name = s.noticed name + e'.raised.count name) ∧
      (¬∃ run : Nat → Echoing, run 0 = e ∧
        ∀ n, ∃ turn, Echoing.move op (run n) turn = some (run (n + 1))) ∧
      (∃ turns e', Machine.Leads (Echoing.move op) e turns e' ∧
        Machine.Blocked (Echoing.move op) e') ∧
      ∀ turns e', Machine.Leads (Echoing.move op) e turns e' →
        Machine.Blocked (Echoing.move op) e' →
        e'.echoes = [] ∧ ∀ name since earlier,
          e'.process.journal = since ++ .committed name :: earlier →
            Settled name since ∨ ∃ due, (due, name) ∈ e'.process.timers ∧ e'.process.clock < due := by
  intro s e
  have hends := e.ends hinterval
  refine ⟨fun turns e' hleads => ⟨?_, ?_⟩, hends.not_forever, hends.exists_blocked, ?_⟩
  · have hle := hleads.length_add_le (p := fun e => 3 * e.raised.length) Echoing.move_load
    simp only [e, Echoing.load, List.length_nil] at hle
    omega
  · exact hleads.invariant (I := Echoing.Accounts s) (fun _ _ _ h hmove => h.move hmove)
      fun _ => rfl
  · intro turns e' hleads hblocked
    refine ⟨echoes_of_blocked hblocked, fun name since earlier hcommit => ?_⟩
    have hattentive : Attentive op e'.process :=
      hleads.invariant (I := fun e => Attentive op e.process)
        (fun _ _ _ h hmove => attentive_move h hmove) (attentive_run op steps)
    rcases hattentive.attended name since earlier hcommit with hawaited | hsettled
    · exact Or.inr ((rests_of_blocked (process_blocked hblocked)).awaited hawaited)
    · exact Or.inl hsettled

/-- The first Reconcile after a discovery makes five objects, and each of them asks for another; that
comes to an end. -/
theorem first_reconcile_rests :
    let op : Operator := { nameSpace := "ns", reconcileMinInterval := 10 }
    let steps := jobUnderWay "db" ++ [.commit 0 [], .report 0, .leave 0, .deliver]
    let e : Echoing := { process := Machine.run (Process.next op) {} steps }
    (e.move op (.own (.start "db" 0 [] 1))).map Echoing.echoes = some (List.replicate 5 "db") ∧
      (¬∃ run : Nat → Echoing, run 0 = e ∧
        ∀ n, ∃ turn, Echoing.move op (run n) turn = some (run (n + 1))) ∧
      ∃ turns e', Machine.Leads (Echoing.move op) e turns e' ∧
        Machine.Blocked (Echoing.move op) e' := by
  intro op steps e
  obtain ⟨-, hends, hblocked, -⟩ := comes_to_rest op (by decide) steps []
  exact ⟨by decide +kernel, hends, hblocked⟩

end Manager

end AuroraOperator

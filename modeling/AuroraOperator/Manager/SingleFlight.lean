/-
# One job of a kind for a resource

The jobs of `Interleaving` come at most one of a kind, because a turn that would start a second is
taken to do nothing.  Here that is a theorem about the process, which starts goroutines and keeps
a table of the names it has started them for.

* `single_flight`: whatever the goroutines do, the table has exactly the names of those that live,
  no two of them are of one kind and for one resource, and a job that is due is started unless
  one is under way.
* `process_refines`: what the process does to one of its resources is a run of turns.  This holds
  from the creation of the resource on if no job is left over from a predecessor with the same
  name; a job looks its resource up again by name before it commits (`job_outlives_resource`).
-/
import AuroraOperator.Lib.Keyed
import AuroraOperator.Controller.Success
import AuroraOperator.Manager.Process

namespace AuroraOperator

namespace Manager

open Controller Program

/-! ## 1. The table -/

theorem inFlightID_inj {nameSpace : String} {kind kind' : JobKind} {name name' : String}
    (h : inFlightID kind nameSpace name = inFlightID kind' nameSpace name') :
    kind = kind' ∧ name = name' := by
  have hchars := congrArg String.toList h
  simp only [inFlightID, String.toList_append] at hchars
  cases kind <;> cases kind' <;> simp [JobKind.text, String.ext_iff] at hchars ⊢
  · exact hchars
  · exact hchars

/-- What a step can do to the goroutines and to the table. -/
inductive JobMove (op : Operator) (s s' : Process) : Prop
  | same (jobs : s'.jobs = s.jobs) (table : s'.inFlight = s.inFlight)
  | spawned {kind : JobKind} {name : String} (free : inFlightID kind op.nameSpace name ∉ s.inFlight)
      (jobs : s'.jobs = s.jobs ++ [{ kind := kind, name := name, stage := .started }])
      (table : s'.inFlight = s.inFlight.insert (inFlightID kind op.nameSpace name) ())
  | moved {i : Nat} {job : Job} {stage : Stage job.kind.Work} (place : s.jobs[i]? = some job)
      (jobs : s'.jobs = s.jobs.set i { job with stage := stage })
      (table : s'.inFlight = s.inFlight)
  | left {i : Nat} {job : Job} (place : s.jobs[i]? = some job) (jobs : s'.jobs = s.jobs.eraseIdx i)
      (table : s'.inFlight = s.inFlight.erase (job.id op))

theorem enqueueJob_move (op : Operator) (s : Process) (kind : JobKind) (name : String) :
    JobMove op s (s.enqueueJob op kind name) := by
  by_cases hid : inFlightID kind op.nameSpace name ∈ s.inFlight
  · exact .same (by simp [Process.markInFlight, hid]) (by simp [Process.markInFlight, hid])
  · exact .spawned hid (by simp [Process.markInFlight, hid])
      (by simp [Process.markInFlight, hid])

theorem Acts.jobMove {op : Operator} {s s' : Process} {step : Step} (h : Acts op s step s') :
    JobMove op s s' := by
  cases h with
  | enqueued next =>
    rename_i kind name rest
    cases enqueueJob_move op s kind name with
    | same jobs table => exact .same jobs table
    | spawned free jobs table => exact .spawned free jobs table
    | moved place jobs table => exact .moved place jobs table
    | left place jobs table => exact .left place jobs table
  | took job | orphaned job gone | committed job there run | uncommitted job there run
  | sent job room | dropped job full => exact .moved job rfl rfl
  | left job => exact .left job rfl rfl
  | _ => exact .same rfl rfl

/-- The goroutines are distinct, and the table has their names. -/
structure SingleFlight (op : Operator) (s : Process) : Prop where
  distinct : Keyed.Distinct Job.key s.jobs
  table : ∀ id, id ∈ s.inFlight ↔ ∃ job ∈ s.jobs, job.id op = id

theorem Job.key_eq_of_id {op : Operator} {job job' : Job} (h : job.id op = job'.id op) :
    job.key = job'.key := by
  obtain ⟨hkind, hname⟩ := inFlightID_inj h
  exact Prod.ext hkind hname

theorem Job.id_eq_of_key {op : Operator} {job job' : Job} (h : job.key = job'.key) :
    job.id op = job'.id op := by
  obtain ⟨hkind, hname⟩ := Prod.ext_iff.mp h
  exact congrArg₂ (fun kind name => inFlightID kind op.nameSpace name) hkind hname

/-- **One move.**  The last stage of a goroutine takes out its own name and no other's, because
the names tell kinds and resources apart. -/
theorem SingleFlight.move {op : Operator} {s s' : Process} (h : SingleFlight op s)
    (hmove : JobMove op s s') : SingleFlight op s' := by
  cases hmove with
  | same jobs table =>
    constructor
    · rw [jobs]
      exact h.distinct
    · rw [jobs, table]
      exact h.table
  | @spawned kind name free jobs table =>
    constructor
    · rw [jobs]
      exact h.distinct.concat fun job hjob hkey =>
        free ((h.table _).mpr ⟨job, hjob, Job.id_eq_of_key hkey⟩)
    · intro id
      rw [jobs, table, Std.ExtTreeMap.mem_insert, h.table, Std.LawfulEqCmp.compare_eq_iff_eq]
      constructor
      · rintro (rfl | ⟨job, hjob, hid⟩)
        · exact ⟨_, List.mem_append_right _ (List.mem_singleton_self _), rfl⟩
        · exact ⟨job, List.mem_append_left _ hjob, hid⟩
      · rintro ⟨job, hjob, hid⟩
        rcases List.mem_append.mp hjob with hjob | hjob
        · exact Or.inr ⟨job, hjob, hid⟩
        · rw [List.mem_singleton.mp hjob] at hid
          exact Or.inl hid
  | @moved i job stage place jobs table =>
    constructor
    · rw [jobs]
      exact h.distinct.set place rfl
    · intro id
      rw [jobs, table, h.table]
      constructor
      · rintro ⟨other, hother, hid⟩
        by_cases hkey : other.key = job.key
        · refine ⟨_, (h.distinct.mem_set place).mpr (Or.inl rfl), ?_⟩
          exact (Job.id_eq_of_key hkey.symm).trans hid
        · exact ⟨other, (h.distinct.mem_set place).mpr (Or.inr ⟨hother, hkey⟩), hid⟩
      · rintro ⟨other, hother, hid⟩
        rcases (h.distinct.mem_set place).mp hother with rfl | ⟨hother, -⟩
        · exact ⟨job, List.mem_of_getElem? place, hid⟩
        · exact ⟨other, hother, hid⟩
  | @left i job place jobs table =>
    constructor
    · rw [jobs]
      exact h.distinct.eraseIdx place
    · intro id
      rw [jobs, table, Std.ExtTreeMap.mem_erase, h.table, ne_eq, Std.LawfulEqCmp.compare_eq_iff_eq]
      constructor
      · rintro ⟨hne, other, hother, hid⟩
        refine ⟨other, (h.distinct.mem_eraseIdx place).mpr ⟨hother, fun hkey => ?_⟩, hid⟩
        exact hne ((Job.id_eq_of_key hkey.symm).trans hid)
      · rintro ⟨other, hother, hid⟩
        obtain ⟨hother, hkey⟩ := (h.distinct.mem_eraseIdx place).mp hother
        exact ⟨fun heq => hkey (Job.key_eq_of_id (hid.trans heq.symm)), other, hother, hid⟩

theorem SingleFlight.next {op : Operator} {s : Process} (h : SingleFlight op s) (step : Step) :
    SingleFlight op (s.next op step) :=
  next_induction h fun _ hacts => h.move hacts.jobMove

theorem singleFlight_initial (op : Operator) : SingleFlight op {} where
  distinct := List.nodup_nil
  table id := by simp

theorem singleFlight_run (op : Operator) (steps : List Step) :
    SingleFlight op (Machine.run (Process.next op) {} steps) :=
  Machine.invariant (fun _ step h => h.next step) (singleFlight_initial op) steps

/-- **Single flight.**  After any run no two goroutines are of one kind and for one resource, the
table has the names of those that live and no others, and the next job of the scheduler's loop,
if there is one, will have a goroutine of its kind: a new one, or the one under way. -/
theorem single_flight (op : Operator) (steps : List Step) :
    let s := Machine.run (Process.next op) {} steps
    (s.jobs.map Job.key).Nodup ∧
      (∀ id, id ∈ s.inFlight ↔ ∃ job ∈ s.jobs, job.id op = id) ∧
      ∀ kind name, s.pending.head? = some (kind, name) →
        ∃ job ∈ (s.next op .enqueue).jobs, job.key = (kind, name) := by
  intro s
  have h : SingleFlight op s := singleFlight_run op steps
  refine ⟨h.distinct, h.table, fun kind name hnext => ?_⟩
  obtain ⟨rest, hpending⟩ := List.head?_eq_some_iff.mp hnext
  simp only [Process.next, hpending]
  by_cases hid : inFlightID kind op.nameSpace name ∈ s.inFlight
  · obtain ⟨job, hjob, heq⟩ := (h.table _).mp hid
    refine ⟨job, ?_, ?_⟩
    · exact List.mem_append_left _ hjob
    · obtain ⟨hkind, hname⟩ := inFlightID_inj heq
      exact Prod.ext hkind hname
  · refine ⟨⟨kind, name, .started⟩, ?_, rfl⟩
    simp [Process.markInFlight, hid]

/-! ## 2. One resource of the process

Seen from one resource the process is a `Flight`: its jobs are the goroutines between their
halves, and what the other resources do to the cluster is the environment. -/

section Kinds

def flightWork (f : Flight) : (kind : JobKind) → Option kind.Work
  | .discovery => f.discovery
  | .monitor => f.monitor

def takeTurn (discover : Discover) (check : Check) (checkedAt now : Int) : JobKind → Turn
  | .discovery => .takeDiscovery discover checkedAt now
  | .monitor => .takeMonitor check checkedAt now

def commitTurn (faults : List (Option Fault)) : JobKind → Turn
  | .discovery => .commitDiscovery faults
  | .monitor => .commitMonitor faults

variable (f : Flight) (kind : JobKind)

theorem commitTurn_world (faults : List (Option Fault)) :
    (f.next (commitTurn faults kind)).world
      = f.world.land kind.commit faults (flightWork f kind) := by
  cases kind <;> rfl

theorem commitTurn_work (faults : List (Option Fault)) (kind' : JobKind) :
    flightWork (f.next (commitTurn faults kind)) kind'
      = if kind' = kind then none else flightWork f kind' := by
  cases kind <;> cases kind' <;> rfl

theorem commitTurn_reconcile (faults : List (Option Fault)) :
    (f.next (commitTurn faults kind)).reconcile = f.reconcile := by
  cases kind <;> rfl

variable {f kind}

/-- A job that can start does. -/
theorem takeTurn_next (discover : Discover) (check : Check) (checkedAt now : Int)
    (h : flightWork f kind = none) :
    (f.next (takeTurn discover check checkedAt now kind)).world = f.world ∧
      (f.next (takeTurn discover check checkedAt now kind)).reconcile = f.reconcile ∧
      flightWork (f.next (takeTurn discover check checkedAt now kind)) kind
        = kind.take discover check checkedAt now f.world.stored.resource ∧
      ∀ kind', kind' ≠ kind →
        flightWork (f.next (takeTurn discover check checkedAt now kind)) kind'
          = flightWork f kind' := by
  cases kind with
  | discovery =>
    have hnone : f.discovery = none := h
    simp only [takeTurn, Flight.next, hnone]
    refine ⟨rfl, rfl, rfl, fun kind' hne => ?_⟩
    cases kind' with
    | discovery => exact absurd rfl hne
    | monitor => rfl
  | monitor =>
    have hnone : f.monitor = none := h
    simp only [takeTurn, Flight.next, hnone]
    refine ⟨rfl, rfl, rfl, fun kind' hne => ?_⟩
    cases kind' with
    | discovery => rfl
    | monitor => exact absurd rfl hne

end Kinds

/-- The process shows a resource as the flight does. -/
structure Process.View (s : Process) (name : String) (f : Flight) : Prop where
  world : ∃ entry, s.resources[name]? = some entry ∧
    f.world.visible = (entry.stored, s.cluster, entry.writes)
  work : ∀ kind work, flightWork f kind = some work ↔ ⟨kind, name, .working work⟩ ∈ s.jobs
  reconcile : f.reconcile = s.prepared[name]?

section View

variable {op : Operator} {s s' : Process} {name : String} {f : Flight}

/-- The world of a view, with the failures to come. -/
theorem Process.View.meet (h : s.View name f) {entry : Entry}
    (hentry : s.resources[name]? = some entry) (faults : List (Option Fault)) :
    f.world.meet faults = s.world entry faults := by
  obtain ⟨entry', hentry', hvisible⟩ := h.world
  rw [hentry] at hentry'
  cases hentry'
  have hsame : f.world.visible = (s.world entry faults).visible := hvisible
  exact meet_congr hsame faults

theorem Process.View.stored (h : s.View name f) {entry : Entry}
    (hentry : s.resources[name]? = some entry) : f.world.stored = entry.stored :=
  congrArg World.stored (h.meet hentry [])

/-- A step that does not concern the resource, except that the cluster may have moved. -/
theorem Process.View.aside (h : s.View name f) (hresource : s'.resources[name]? = s.resources[name]?)
    (hjobs : ∀ kind work, ⟨kind, name, .working work⟩ ∈ s'.jobs ↔ ⟨kind, name, .working work⟩ ∈ s.jobs)
    (hprepared : s'.prepared[name]? = s.prepared[name]?) :
    ∃ turns, s'.View name (Machine.run Flight.next f turns) := by
  refine ⟨[.environment s'.cluster], ?_⟩
  obtain ⟨entry, hentry, hvisible⟩ := h.world
  have hparts : f.world.stored = entry.stored ∧ f.world.cluster = s.cluster ∧
      f.world.writes = entry.writes := by
    simpa [World.visible] using hvisible
  refine ⟨⟨entry, hresource.trans hentry, ?_⟩, fun kind work => ?_, ?_⟩
  · simp [Flight.next, World.next, World.visible, hparts]
  · rw [hjobs, ← h.work]
    cases kind <;> rfl
  · rw [hprepared]
    exact h.reconcile

/-- The goroutine at a position is the only one of its kind for its resource. -/
theorem working_iff (h : SingleFlight op s) {i : Nat} {kind : JobKind} {stage : Stage kind.Work}
    (hi : s.jobs[i]? = some ⟨kind, name, stage⟩) {work : kind.Work} :
    ⟨kind, name, .working work⟩ ∈ s.jobs ↔ stage = .working work := by
  constructor
  · intro hmem
    have heq := h.distinct.eq_of_key (List.mem_of_getElem? hi) hmem rfl
    cases heq
    rfl
  · rintro rfl
    exact List.mem_of_getElem? hi

theorem working_set_self (h : SingleFlight op s) {i : Nat} {kind : JobKind}
    {stage stage' : Stage kind.Work} (hi : s.jobs[i]? = some ⟨kind, name, stage⟩)
    {work : kind.Work} :
    ⟨kind, name, .working work⟩ ∈ s.jobs.set i ⟨kind, name, stage'⟩ ↔ stage' = .working work := by
  rw [h.distinct.mem_set hi]
  constructor
  · rintro (heq | ⟨-, hne⟩)
    · cases heq
      rfl
    · exact absurd rfl hne
  · rintro rfl
    exact Or.inl rfl

theorem working_set_ne (h : SingleFlight op s) {i : Nat} {kind kind' : JobKind} {name' : String}
    {stage stage' : Stage kind.Work} (hi : s.jobs[i]? = some ⟨kind, name', stage⟩)
    (hne : (kind', name) ≠ (kind, name')) {work : kind'.Work} :
    ⟨kind', name, .working work⟩ ∈ s.jobs.set i ⟨kind, name', stage'⟩ ↔
      ⟨kind', name, .working work⟩ ∈ s.jobs := by
  rw [h.distinct.mem_set hi]
  constructor
  · rintro (heq | ⟨hmem, -⟩)
    · cases heq
      exact absurd rfl hne
    · exact hmem
  · exact fun hmem => Or.inr ⟨hmem, hne⟩

/-- The first half of a job of the resource. -/
theorem Process.View.took (h : s.View name f) (hflight : SingleFlight op s) {i : Nat}
    {kind : JobKind} (hi : s.jobs[i]? = some ⟨kind, name, .started⟩) (discover : Discover)
    (check : Check) (checkedAt now : Int) (failed : Bool) :
    ∃ turns, (s.setStage i kind name
      (s.taken op kind name discover check checkedAt now failed)).View name
        (Machine.run Flight.next f turns) := by
  obtain ⟨entry, hentry, hvisible⟩ := h.world
  have hidle : flightWork f kind = none := by
    rw [Option.eq_none_iff_forall_ne_some]
    intro work hwork
    have hstage := (working_iff hflight hi).mp ((h.work kind work).mp hwork)
    cases hstage
  cases hstage : s.taken op kind name discover check checkedAt now failed with
  | working work =>
    have htake : kind.take discover check checkedAt now f.world.stored.resource = some work := by
      rw [h.stored hentry]
      simp only [Process.taken, hentry] at hstage
      split at hstage
      · cases hstage
      · split at hstage
        · cases hstage
        · rename_i work' hwork
          cases hstage
          exact hwork
    obtain ⟨hworld, hreconcile, hself, hothers⟩ := takeTurn_next discover check checkedAt now hidle
    refine ⟨[takeTurn discover check checkedAt now kind], ⟨entry, hentry, ?_⟩, fun kind' work' => ?_, ?_⟩
    · exact (congrArg World.visible hworld).trans hvisible
    · show flightWork (f.next _) kind' = _ ↔ _ ∈ s.jobs.set i _
      by_cases hkind : kind' = kind
      · subst hkind
        rw [hself, htake, working_set_self hflight hi, Option.some.injEq, Stage.working.injEq]
      · rw [hothers kind' hkind, h.work,
          working_set_ne hflight hi fun heq => hkind (Prod.ext_iff.mp heq).1]
    · exact hreconcile.trans h.reconcile
  | started | reporting | leaving =>
    refine h.aside rfl (fun kind' work => ?_) rfl
    show _ ∈ s.jobs.set i _ ↔ _
    by_cases hkind : kind' = kind
    · subst hkind
      refine (working_set_self hflight hi).trans (Iff.trans ?_ (working_iff hflight hi).symm)
      exact iff_of_false (fun heq => by cases heq) (fun heq => by cases heq)
    · exact working_set_ne hflight hi fun heq => hkind (Prod.ext_iff.mp heq).1

/-- The second half, whether it returns or fails. -/
theorem Process.View.committed (h : s.View name f) (hflight : SingleFlight op s) {i : Nat}
    {kind : JobKind} {work : kind.Work} (hi : s.jobs[i]? = some ⟨kind, name, .working work⟩)
    {entry : Entry} (hentry : s.resources[name]? = some entry) {faults : List (Option Fault)}
    {w : World} (hfinal : final (commitStatus (kind.commit work)) (s.world entry faults) = w)
    {stage : Stage kind.Work} (hstage : ∀ work, stage ≠ .working work)
    (hresources : s'.resources = s.resources.insert name ⟨w.stored, w.writes⟩)
    (hcluster : s'.cluster = w.cluster) (hjobs : s'.jobs = s.jobs.set i ⟨kind, name, stage⟩)
    (hprepared : s'.prepared = s.prepared) :
    ∃ turns, s'.View name (Machine.run Flight.next f turns) := by
  have hwork : flightWork f kind = some work := (h.work kind work).mpr (List.mem_of_getElem? hi)
  have hworld : (f.next (commitTurn faults kind)).world = w := by
    rw [commitTurn_world, hwork, World.land, h.meet hentry, hfinal]
  refine ⟨[commitTurn faults kind],
    ⟨_, by rw [hresources]; exact Std.ExtTreeMap.getElem?_insert_self, ?_⟩,
    fun kind' work' => ?_, ?_⟩
  · rw [hcluster]
    exact congrArg World.visible hworld
  · show flightWork (f.next _) kind' = _ ↔ _
    rw [commitTurn_work, hjobs]
    by_cases hkind : kind' = kind
    · subst hkind
      rw [if_pos rfl, working_set_self hflight hi]
      simp [hstage work']
    · rw [if_neg hkind, h.work,
        working_set_ne hflight hi fun heq => hkind (Prod.ext_iff.mp heq).1]
  · rw [hprepared]
    exact (commitTurn_reconcile f kind faults).trans h.reconcile

/-- A half of a Reconcile of the resource, and the turn that it is. -/
theorem Process.View.turned (h : s.View name f) {turn : Turn} {w : World}
    {reconcile : Option Prepared}
    (hnext : f.next turn = { f with world := w, reconcile := reconcile })
    (hresources : s'.resources = s.resources.insert name ⟨w.stored, w.writes⟩)
    (hcluster : s'.cluster = w.cluster) (hjobs : s'.jobs = s.jobs)
    (hprepared : s'.prepared[name]? = reconcile) :
    ∃ turns, s'.View name (Machine.run Flight.next f turns) := by
  refine ⟨[turn], ?_⟩
  rw [Machine.run_cons, Machine.run_nil, hnext]
  refine ⟨⟨_, by rw [hresources]; exact Std.ExtTreeMap.getElem?_insert_self, ?_⟩, ?_,
    hprepared.symm⟩
  · rw [hcluster]
    rfl
  · intro kind work
    rw [hjobs, ← h.work]
    cases kind <;> rfl

/-- The commit of a Reconcile, whether it returns or fails. -/
theorem Process.View.finished (h : s.View name f) {p : Prepared} (hjob : s.prepared[name]? = some p)
    {entry : Entry} (hentry : s.resources[name]? = some entry) {faults : List (Option Fault)} :
    f.next (.commitReconcile faults) = { f with
      world := final (commitStatus p.commit) (s.world entry faults), reconcile := none } := by
  simp only [Flight.next, h.reconcile, hjob, World.land, h.meet hentry]

theorem Process.View.edited (h : s.View name f) {entry : Entry}
    (hentry : s.resources[name]? = some entry) (spec : PgBouncerAuroraSpec) :
    ∃ turns, (s.editResource name entry spec).View name (Machine.run Flight.next f turns) := by
  obtain ⟨entry', hentry', hvisible⟩ := h.world
  rw [hentry] at hentry'
  cases hentry'
  have hparts : f.world.stored = entry.stored ∧ f.world.cluster = s.cluster ∧
      f.world.writes = entry.writes := by
    simpa [World.visible] using hvisible
  refine ⟨[.editSpec spec], ⟨_, Std.ExtTreeMap.getElem?_insert_self, ?_⟩, fun kind work => ?_,
    h.reconcile⟩
  · simp [Flight.next, World.next, World.visible, hparts]
  · exact Iff.trans (by cases kind <;> rfl) (h.work kind work)

/-- **One step.**  Unless it deletes the resource, what a step of the process does to it is some
turns. -/
theorem Process.View.acts (h : s.View name f) (hflight : SingleFlight op s) {step : Step}
    (hacts : Acts op s step s') (hkept : step ≠ .delete name) :
    ∃ turns, s'.View name (Machine.run Flight.next f turns) := by
  -- a goroutine that is not working, before and after
  have hstill {i : Nat} {kind : JobKind} {name' : String} {stage stage' : Stage kind.Work}
      (hi : s.jobs[i]? = some ⟨kind, name', stage⟩) (hbefore : ∀ work, stage ≠ .working work)
      (hafter : ∀ work, stage' ≠ .working work) (kind' : JobKind) (work : kind'.Work) :
      ⟨kind', name, .working work⟩ ∈ s.jobs.set i ⟨kind, name', stage'⟩ ↔
        ⟨kind', name, .working work⟩ ∈ s.jobs := by
    by_cases hkey : (kind', name) = (kind, name')
    · obtain ⟨rfl, rfl⟩ := Prod.ext_iff.mp hkey
      exact (working_set_self hflight hi).trans
        (iff_of_false (hafter work) fun hmem => hbefore work ((working_iff hflight hi).mp hmem))
    · exact working_set_ne hflight hi hkey
  -- one for another resource
  have hother {i : Nat} {kind : JobKind} {name' : String} {stage stage' : Stage kind.Work}
      (hi : s.jobs[i]? = some ⟨kind, name', stage⟩) (hname : ¬ name' = name) (kind' : JobKind)
      (work : kind'.Work) : ⟨kind', name, .working work⟩ ∈ s.jobs.set i ⟨kind, name', stage'⟩ ↔
        ⟨kind', name, .working work⟩ ∈ s.jobs :=
    working_set_ne hflight hi fun heq => hname (Prod.ext_iff.mp heq).2.symm
  obtain ⟨entry₀, hentry₀, -⟩ := h.world
  cases hacts with
  | @enqueued kind name' rest next =>
    refine h.aside rfl (fun kind' work => ?_) rfl
    show _ ∈ s.jobs ++ _ ↔ _
    rw [List.mem_append, or_iff_left]
    split
    · intro hmem
      cases List.mem_singleton.mp hmem
    · exact List.not_mem_nil
  | @took i kind name' discover check checkedAt now failed job =>
    by_cases hname : name' = name
    · subst hname
      exact h.took hflight job discover check checkedAt now failed
    · exact h.aside rfl (hother job hname) rfl
  | @orphaned i kind name' work faults job gone =>
    by_cases hname : name' = name
    · subst hname
      rw [hentry₀] at gone
      cases gone
    · exact h.aside rfl (hother job hname) rfl
  | @committed i kind name' work faults entry answer w job there run =>
    by_cases hname : name' = name
    · subst hname
      exact h.committed hflight job there (final_of_ok run) (by simp) rfl rfl rfl rfl
    · exact h.aside (getElem?_insert_ne (Ne.symm hname)) (hother job hname) rfl
  | @uncommitted i kind name' work faults entry e w job there run =>
    by_cases hname : name' = name
    · subst hname
      exact h.committed hflight job there (final_of_error run) (by simp) rfl rfl rfl rfl
    · exact h.aside (getElem?_insert_ne (Ne.symm hname)) (hother job hname) rfl
  | sent job room | dropped job full => exact h.aside rfl (hstill job (by simp) (by simp)) rfl
  | @left i kind name' job =>
    refine h.aside rfl (fun kind' work => ?_) rfl
    show _ ∈ s.jobs.eraseIdx i ↔ _
    rw [hflight.distinct.mem_eraseIdx job]
    refine and_iff_left_of_imp fun hmem hkey => ?_
    have heq := hflight.distinct.eq_of_key (List.mem_of_getElem? job) hmem hkey.symm
    cases heq
  | @began name' now faults backoff entry p w queued watch free passes there run =>
    by_cases hname : name' = name
    · subst hname
      have hnext : f.next (.prepare now faults) = { f with world := w, reconcile := some p } := by
        simp only [Flight.next, h.reconcile, free, h.meet there, run]
        rfl
      exact h.turned hnext rfl rfl rfl Std.ExtTreeMap.getElem?_insert_self
    · exact h.aside (getElem?_insert_ne (Ne.symm hname)) (fun _ _ => Iff.rfl)
        (getElem?_insert_ne (Ne.symm hname))
  | @broke name' now faults backoff entry e w queued watch free passes there run =>
    by_cases hname : name' = name
    · subst hname
      have hnext : f.next (.prepare now faults) = { f with world := w } := by
        simp only [Flight.next, h.reconcile, free, h.meet there, run]
        rfl
      exact h.turned hnext rfl rfl rfl h.reconcile.symm
    · exact h.aside (getElem?_insert_ne (Ne.symm hname)) (fun _ _ => Iff.rfl) rfl
  | @bereft name' faults backoff p job gone =>
    by_cases hname : name' = name
    · subst hname
      rw [hentry₀] at gone
      cases gone
    · exact h.aside rfl (fun _ _ => Iff.rfl) (getElem?_erase_ne (Ne.symm hname))
  | @finished name' faults backoff p entry answer w job there run =>
    by_cases hname : name' = name
    · subst hname
      exact h.turned (final_of_ok run ▸ h.finished job there) rfl rfl rfl
        Std.ExtTreeMap.getElem?_erase_self
    · exact h.aside (getElem?_insert_ne (Ne.symm hname)) (fun _ _ => Iff.rfl)
        (getElem?_erase_ne (Ne.symm hname))
  | @unfinished name' faults backoff p entry e w job there run =>
    by_cases hname : name' = name
    · subst hname
      exact h.turned (final_of_error run ▸ h.finished job there) rfl rfl rfl
        Std.ExtTreeMap.getElem?_erase_self
    · exact h.aside (getElem?_insert_ne (Ne.symm hname)) (fun _ _ => Iff.rfl)
        (getElem?_erase_ne (Ne.symm hname))
  | @created name' spec free =>
    refine h.aside (getElem?_insert_ne fun hname => ?_) (fun _ _ => Iff.rfl) rfl
    rw [← hname, hentry₀] at free
    cases free
  | @edited name' spec entry there =>
    by_cases hname : name' = name
    · subst hname
      exact h.edited there spec
    · exact h.aside (getElem?_insert_ne (Ne.symm hname)) (fun _ _ => Iff.rfl) rfl
  | @deleted name' =>
    refine h.aside (getElem?_erase_ne fun hname => ?_) (fun _ _ => Iff.rfl) rfl
    exact hkept (by rw [hname])
  | listed through | delivered next | requested | waited | fired timer late
  | unwatched queued watch | throttled queued free early | vanished queued free passes gone
  | moved => exact h.aside rfl (fun _ _ => Iff.rfl) rfl

end View

/-- A resource that was just created, with no work left over from an earlier one of its name. -/
theorem view_create {s : Process} {name : String} (hnew : s.resources[name]? = none)
    (hidle : ∀ kind work, ⟨kind, name, .working work⟩ ∉ s.jobs) (hfree : s.prepared[name]? = none)
    (op : Operator) (spec : PgBouncerAuroraSpec) :
    (s.next op (.create name spec)).View name { world := World.initial name spec s.cluster } := by
  have hnext : s.next op (.create name spec) = s.createResource name spec := by
    simp only [Process.next, hnew, Option.isNone_none, if_true]
  rw [hnext]
  refine ⟨⟨_, Std.ExtTreeMap.getElem?_insert_self, rfl⟩, fun kind work => ?_, hfree.symm⟩
  refine iff_of_false (fun hwork => ?_) (hidle kind work)
  cases kind <;> cases hwork

/-- A run that does not delete the resource is, for the resource, a run of turns. -/
theorem Process.View.run {op : Operator} {s : Process} {name : String} {f : Flight}
    (h : s.View name f) (hflight : SingleFlight op s) {steps : List Step}
    (hkept : .delete name ∉ steps) :
    ∃ turns, (Machine.run (Process.next op) s steps).View name
      (Machine.run Flight.next f turns) := by
  have hstep (s : Process) (step : Step) (f : Flight) (h : SingleFlight op s ∧ s.View name f)
      (hstep : step ≠ .delete name) : ∃ turns, SingleFlight op (s.next op step) ∧
        (s.next op step).View name (Machine.run Flight.next f turns) := by
    obtain ⟨turns, hturns⟩ := next_induction
      (P := fun s' => ∃ turns, s'.View name (Machine.run Flight.next f turns)) ⟨[], h.2⟩
      fun _ hacts => h.2.acts h.1 hacts hstep
    exact ⟨turns, h.1.next step, hturns⟩
  have halong : Machine.Along (Process.next op) (fun _ step => step ≠ .delete name) s steps := by
    refine Machine.along_of_forall (fun step hmem _ => ?_) _
    rintro rfl
    exact hkept hmem
  obtain ⟨turns, -, hturns⟩ := Machine.Along.simulate hstep ⟨hflight, h⟩ halong
  exact ⟨turns, hturns⟩

/-- **The process refines the turns.**  Take any run of the process, in which a resource is created
whose name no working goroutine and no Reconcile is busy with, and go on with any steps that do
not delete it: other resources, goroutines in any order, failures, edits.  What the process then
shows of the resource, the work under way included, is what some run of turns from a new resource
leads to. -/
theorem process_refines (op : Operator) (name : String) (spec : PgBouncerAuroraSpec)
    (before after : List Step)
    (hnew : (Machine.run (Process.next op) {} before).resources[name]? = none)
    (hidle : ∀ kind work,
      ⟨kind, name, .working work⟩ ∉ (Machine.run (Process.next op) {} before).jobs)
    (hfree : (Machine.run (Process.next op) {} before).prepared[name]? = none)
    (hkept : .delete name ∉ after) :
    ∃ turns, (Machine.run (Process.next op) {} (before ++ .create name spec :: after)).View name
      (Machine.run Flight.next
        { world := World.initial name spec (Machine.run (Process.next op) {} before).cluster }
        turns) := by
  rw [Machine.run_append, Machine.run_cons]
  have hview := view_create hnew hidle hfree op spec
  exact hview.run ((singleFlight_run op before).next (.create name spec)) hkept

/-- A trusted discovery of one writer. -/
def discoverA : Discover := fun _ =>
  .ok { trusted := true, instances := [{ name := "a", role := .writer }] }

/-- A resource is listed, and its discovery job gets as far as the commit. -/
def jobUnderWay (name : String) : List Step :=
  [.create name {}, .list 0 false, .enqueue, .take 0 discoverA (fun _ _ => .ok ∅) 0 0 false]

/-- Two resources side by side: the job of one is under way when the other is created. -/
theorem other_refines :
    ∃ turns, (Machine.run (Process.next { nameSpace := "ns" }) {}
        (jobUnderWay "other" ++ .create "db" {} :: [.commit 0 [], .report 0, .leave 0])).View "db"
      (Machine.run Flight.next
        { world := World.initial "db" {}
            (Machine.run (Process.next { nameSpace := "ns" }) {} (jobUnderWay "other")).cluster }
        turns) := by
  have hjobs : ∀ job ∈ (Machine.run (Process.next { nameSpace := "ns" }) {}
      (jobUnderWay "other")).jobs, job.name = "other" := by
    decide +kernel
  refine process_refines _ "db" {} _ _ (by decide +kernel) (fun kind work hmem => ?_)
    (by decide +kernel) (by simp)
  exact absurd (hjobs _ hmem) (by simp)

/-- **A job outlives its resource.**  The resource is deleted and created anew while the job is
under way; the commit finds the name again, and the new resource gets what the job has found out
about the old one, unless it is stale. -/
theorem job_outlives_resource (op : Operator) {s : Process} {i : Nat} {kind : JobKind}
    {name : String} {work : kind.Work} (hjob : s.jobs[i]? = some ⟨kind, name, .working work⟩)
    (hgone : s.resources[name]? = none) (spec : PgBouncerAuroraSpec) {status : Status}
    (hbrings : kind.commit work (StoredResource.create name spec).resource = some status) :
    (Machine.run (Process.next op) s [.create name spec, .commit i []]).resources[name]?.map
      Entry.stored = some ((StoredResource.create name spec).updateStatus status) := by
  have hcreate : s.next op (.create name spec) = s.createResource name spec := by
    simp only [Process.next, hgone, Option.isNone_none, if_true]
  set entry : Entry := { stored := StoredResource.create name spec } with hentry
  obtain ⟨committed, w, hrun, -⟩ :=
    commitStatus_succeeds (kind.commit work) ((s.createResource name spec).world entry []) rfl
  have hstored : w.stored = (StoredResource.create name spec).updateStatus status := by
    have hensures := commitStatus_ensures _ hrun
    simp only [Process.world, hentry, hbrings] at hensures
    exact hensures.2
  have hthere : (s.createResource name spec).resources[name]? = some entry :=
    Std.ExtTreeMap.getElem?_insert_self
  have hworking : (s.createResource name spec).jobs[i]? = some ⟨kind, name, .working work⟩ := hjob
  rw [Machine.run_cons, Machine.run_cons, Machine.run_nil, hcreate]
  simp only [Process.next, hworking, Process.commitJob, hthere, hrun, Process.setStage_resources,
    Process.note_resources, Process.store_resources, Std.ExtTreeMap.getElem?_insert_self,
    Option.map_some, hstored]

example : ((Machine.run (Process.next { nameSpace := "ns" }) {}
    (jobUnderWay "db" ++ [.delete "db", .create "db" {}, .commit 0 []])).resources["db"]?.map
      fun entry => entry.stored.resource.status.lastKnownTopology.map (·.instanceName))
    = some ["a"] := by
  decide +kernel

end Manager

end AuroraOperator

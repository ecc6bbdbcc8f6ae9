/-
# Several operators, and restarts

Several operators can share a namespace, each with a list of the resources it watches.  They have
the stored resources and the cluster in common, and nothing else; each may be restarted at any time,
and then has lost what it had in memory: its goroutines, its queue, its timers and the Reconciles
between their halves.

* `operators_apart`: if no two operators watch a resource of one name, no two of them are ever at
  work on one resource, none of them runs two jobs of one kind on a resource, and none changes a
  resource that it does not watch.
* `fleet_refines`: what a resource sees of all this is a run of its own turns, as if there were one
  operator that is never restarted: the others are its environment, and a restart is a commit that
  fails.  So whatever holds after all interleavings of turns holds here too.

The controller runtime asks for every resource when it starts, because its caches are filled anew.
-/
import AuroraOperator.Manager.Wakeups

namespace AuroraOperator

namespace Manager

open Controller

/-! ## 1. The fleet -/

/-- The operators of a namespace.  Each has a process of its own, but they share the resources and
the cluster: what the processes say of these is not looked at. -/
structure Fleet (ι : Type) where
  resources : StringMap Entry := ∅
  cluster : Cluster := {}
  members : ι → Process := fun _ => {}

/-- What is left of a process that is started anew, and what it will do first. -/
def Process.restarted (s : Process) : Process :=
  { resources := s.resources, cluster := s.cluster, clock := s.clock, journal := s.journal
    queue := s.resources.toList.map (·.1) }

inductive Move (ι : Type)
  | step (who : ι) (step : Step)
  | restart (who : ι)

section Fleet

variable {ι : Type}

/-- The process of an operator, with what it shares. -/
def Fleet.sees (f : Fleet ι) (who : ι) : Process :=
  { f.members who with resources := f.resources, cluster := f.cluster }

variable [DecidableEq ι]

def Fleet.set (f : Fleet ι) (who : ι) (s : Process) : Fleet ι :=
  { resources := s.resources, cluster := s.cluster, members := Function.update f.members who s }

def Fleet.next (ops : ι → Operator) (f : Fleet ι) : Move ι → Fleet ι
  | .step who step => f.set who ((f.sees who).next (ops who) step)
  | .restart who => f.set who (f.sees who).restarted

@[simp] theorem Fleet.set_sees_self (f : Fleet ι) (who : ι) (s : Process) :
    (f.set who s).sees who = s := by
  simp [Fleet.set, Fleet.sees]

theorem Fleet.set_sees_ne (f : Fleet ι) {who other : ι} (h : other ≠ who) (s : Process) :
    (f.set who s).sees other
      = { f.sees other with resources := s.resources, cluster := s.cluster } := by
  simp [Fleet.set, Fleet.sees, Function.update_of_ne h]

end Fleet

/-! ## 2. An operator minds its own resources -/

/-- Steps of the users, who are not bound by anybody's list. -/
def Step.isUsers : Step → Bool
  | .create .. | .editSpec .. | .delete .. => true
  | _ => false

/-- The operator has a job or a Reconcile of the resource under way. -/
def Process.WorksOn (s : Process) (name : String) : Prop :=
  (∃ job ∈ s.jobs, job.name = name) ∨ s.prepared[name]? ≠ none

structure Minds (op : Operator) (s : Process) : Prop where
  flight : SingleFlight op s
  watched : Watched op s
  prepared : ∀ name, s.prepared[name]? ≠ none → matchesWatchNames op.watchName name = true

section Minds

variable {op : Operator} {s s' : Process}

theorem minds_initial (op : Operator) : Minds op {} where
  flight := singleFlight_initial op
  watched := ⟨fun _ h => absurd h List.not_mem_nil, fun _ h => absurd h List.not_mem_nil,
    fun _ h => absurd h List.not_mem_nil⟩
  prepared name h := absurd (by simp) h

theorem Minds.worksOn (h : Minds op s) {name : String} (hworks : s.WorksOn name) :
    matchesWatchNames op.watchName name = true := by
  rcases hworks with ⟨job, hjob, rfl⟩ | hprepared
  · exact h.watched.jobs job hjob
  · exact h.prepared name hprepared

theorem Minds.acts (h : Minds op s) {step : Step} (hacts : Acts op s step s') : Minds op s' := by
  refine ⟨h.flight.move hacts.jobMove, h.watched.acts hacts, fun name hname => ?_⟩
  have herase {name' : String} (herased : (s.prepared.erase name')[name]? ≠ none) :
      matchesWatchNames op.watchName name = true := by
    by_cases heq : name = name'
    · subst heq
      exact absurd Std.ExtTreeMap.getElem?_erase_self herased
    · rw [getElem?_erase_ne heq] at herased
      exact h.prepared name herased
  cases hacts with
  | @began name' now faults backoff entry p w queued watch free passes there run =>
    by_cases heq : name = name'
    · rw [heq]
      exact watch
    · exact h.prepared name (by rwa [getElem?_insert_ne heq] at hname)
  | bereft job gone | finished job there run | unfinished job there run => exact herase hname
  | _ => exact h.prepared name hname

/-- **An operator changes only what it watches.** -/
theorem Minds.untouched (h : Minds op s) {step : Step} (hacts : Acts op s step s')
    (husers : step.isUsers = false) {name : String}
    (hname : matchesWatchNames op.watchName name = false) :
    s'.resources[name]? = s.resources[name]? := by
  have hne (name' : String) (hwatched : matchesWatchNames op.watchName name' = true) :
      name ≠ name' := by
    rintro rfl
    rw [hname] at hwatched
    cases hwatched
  cases hacts with
  | @committed i kind name' work faults entry answer w job there run
  | @uncommitted i kind name' work faults entry e w job there run =>
    exact getElem?_insert_ne (hne name'
      (h.watched.jobs ⟨kind, name', .working work⟩ (List.mem_of_getElem? job)))
  | @began name' now faults backoff entry p w queued watch free passes there run
  | @broke name' now faults backoff entry e w queued watch free passes there run =>
    exact getElem?_insert_ne (hne name' watch)
  | @finished name' faults backoff p entry answer w job there run
  | @unfinished name' faults backoff p entry e w job there run =>
    exact getElem?_insert_ne (hne name' (h.prepared name' (by simp [job])))
  | created free => cases husers
  | edited there => cases husers
  | deleted => cases husers
  | _ => rfl

theorem Minds.restarted (h : Minds op s) : Minds op s.restarted where
  flight := ⟨List.nodup_nil, fun id => by simp [Process.restarted]⟩
  watched := ⟨fun _ hjob => absurd hjob List.not_mem_nil, fun _ hjob => absurd hjob List.not_mem_nil,
    h.watched.committed⟩
  prepared name hname := absurd (by simp [Process.restarted]) hname

end Minds

section Fleet

variable {ι : Type} {ops : ι → Operator} {f : Fleet ι}

/-- What an operator minds is its own business. -/
theorem Minds.sees {who : ι} (h : Minds (ops who) (f.members who)) :
    Minds (ops who) (f.sees who) :=
  ⟨⟨h.flight.distinct, h.flight.table⟩,
    ⟨h.watched.pending, h.watched.jobs, h.watched.committed⟩, h.prepared⟩

variable [DecidableEq ι]

theorem fleet_next (h : ∀ who, Minds (ops who) (f.members who)) (move : Move ι) (who : ι) :
    Minds (ops who) ((f.next ops move).members who) := by
  have hset {other : ι} {s : Process} (hs : Minds (ops other) s) :
      Minds (ops who) ((f.set other s).members who) := by
    by_cases heq : who = other
    · subst heq
      simpa [Fleet.set] using hs
    · simpa [Fleet.set, Function.update_of_ne heq] using h who
  cases move with
  | step other step =>
    exact hset (next_induction (h other).sees fun _ hacts => (h other).sees.acts hacts)
  | restart other => exact hset (h other).sees.restarted

theorem fleet_run (ops : ι → Operator) (moves : List (Move ι)) (who : ι) :
    Minds (ops who) ((Machine.run (Fleet.next ops) {} moves).members who) :=
  Machine.invariant (I := fun f : Fleet ι => ∀ who, Minds (ops who) (f.members who))
    (fun _ move h => fleet_next h move) (fun who => minds_initial (ops who)) moves who

end Fleet

/-- **The operators are apart.** -/
theorem operators_apart {ι : Type} [DecidableEq ι] (ops : ι → Operator)
    (hapart : ∀ i j name, matchesWatchNames (ops i).watchName name = true →
      matchesWatchNames (ops j).watchName name = true → i = j) (moves : List (Move ι)) :
    let f := Machine.run (Fleet.next ops) {} moves
    (∀ i, ((f.members i).jobs.map Job.key).Nodup) ∧
      (∀ i j name, (f.members i).WorksOn name → (f.members j).WorksOn name → i = j) ∧
      ∀ i step name, step.isUsers = false →
        matchesWatchNames (ops i).watchName name = false →
        (f.next ops (.step i step)).resources[name]? = f.resources[name]? := by
  intro f
  have h := fleet_run ops moves
  refine ⟨fun i => (h i).flight.distinct, fun i j name hi hj => ?_, fun i step name husers hname => ?_⟩
  · exact hapart i j name ((h i).worksOn hi) ((h j).worksOn hj)
  · exact next_induction (P := fun s' : Process => s'.resources[name]? = f.resources[name]?) rfl
      fun _ hacts => (h i).sees.untouched hacts husers hname

/-- One operator watches one name, the other a second one. -/
def twoOperators (first : Bool) : Operator :=
  { nameSpace := "ns", watchName := if first then "db" else "orders" }

theorem watches_only {watchName : String} (hempty : trimSpace watchName ≠ "")
    (hparts : watchParts watchName = [watchName]) (hstar : watchName ≠ "*") {name : String}
    (hname : name ≠ "") (h : matchesWatchNames watchName name = true) : name = watchName := by
  rw [matchesWatchNames_iff watchName hname, hparts, List.mem_singleton, List.mem_singleton] at h
  rcases h with h | h | h
  · exact absurd h hempty
  · exact absurd h.symm hstar
  · exact h

theorem twoOperators_apart (i j : Bool) (name : String)
    (hi : matchesWatchNames (twoOperators i).watchName name = true)
    (hj : matchesWatchNames (twoOperators j).watchName name = true) : i = j := by
  by_cases hname : name = ""
  · subst hname
    cases i <;> exact absurd hi (by decide +kernel)
  · have honly : ∀ k, matchesWatchNames (twoOperators k).watchName name = true →
        name = (twoOperators k).watchName := by
      intro k hk
      refine watches_only ?_ ?_ ?_ hname hk <;> cases k <;> decide +kernel
    have hsame := (honly i hi).symm.trans (honly j hj)
    cases i <;> cases j <;> first | rfl | exact absurd hsame (by decide)

/-- Both have something to do. -/
def neighbours : List (Move Bool) :=
  [.step true (.create "db" {}), .step false (.create "orders" {}), .step true (.list 0 false),
    .step false (.list 0 false), .step true .enqueue, .step false .enqueue]

theorem neighbours_apart :
    let f := Machine.run (Fleet.next twoOperators) {} neighbours
    (f.members true).WorksOn "db" ∧ (f.members false).WorksOn "orders" ∧
      ¬ (f.members false).WorksOn "db" := by
  intro f
  have hdb : (f.members true).jobs.map (·.name) = ["db"] := by decide +kernel
  have horders : (f.members false).jobs.map (·.name) = ["orders"] := by decide +kernel
  have hworks : (f.members true).WorksOn "db" := Or.inl (List.mem_map.mp (by rw [hdb]; simp))
  refine ⟨hworks, Or.inl (List.mem_map.mp (by rw [horders]; simp)), fun hboth => ?_⟩
  have happart := (operators_apart twoOperators twoOperators_apart neighbours).2.1
  exact absurd (happart true false "db" hworks hboth) (by decide)

/-! ## 3. What a resource sees of it -/

section View

variable {s : Process} {name : String} {g : Flight}

def lost : List (Option Fault) := [some ⟨.other "context canceled", by simp⟩]

/-- A commit whose first call fails. -/
theorem land_lost {W : Type} (commit : W → PgBouncerAurora → Option Status) (w : World)
    (job : Option W) : (w.land commit lost job).visible = w.visible := by
  cases job <;> rfl

/-- For a resource a restart is as if what was under way had failed to commit. -/
theorem Process.View.restarted (h : s.View name g) :
    ∃ turns, s.restarted.View name (Machine.run Flight.next g turns) := by
  refine ⟨[.commitDiscovery lost, .commitMonitor lost, .commitReconcile lost], ?_,
    fun kind work => ?_, ?_⟩
  · obtain ⟨entry, hentry, hvisible⟩ := h.world
    refine ⟨entry, hentry, ?_⟩
    simp only [Machine.run_cons, Machine.run_nil, Flight.next]
    rw [land_lost, land_lost, land_lost]
    exact hvisible
  · refine iff_of_false (fun hwork => ?_) List.not_mem_nil
    cases kind <;> cases hwork
  · simp [Flight.next, Process.restarted]

variable {ι : Type} [DecidableEq ι] {ops : ι → Operator} {f : Fleet ι}

/-- It does not matter on whose account the users' steps go. -/
theorem users_step {who other : ι} {step : Step} (h : step.isUsers = true) (hne : who ≠ other) :
    (f.next ops (.step other step)).sees who = (f.sees who).next (ops who) step := by
  rw [Fleet.next, f.set_sees_ne hne]
  cases step with
  | create name spec =>
    cases hthere : f.resources[name]? <;> simp only [Process.next, Fleet.sees, hthere] <;> rfl
  | editSpec name spec =>
    cases hthere : f.resources[name]? with
    | none => simp only [Process.next, Fleet.sees, hthere]
    | some entry =>
      simp only [Process.next, Fleet.sees, hthere]
      rfl
  | delete name => rfl
  | _ => cases h

/-- **One move of the fleet.** -/
theorem Process.View.fleet {who : ι} (h : (f.sees who).View name g)
    (hminds : ∀ who, Minds (ops who) (f.members who))
    (hothers : ∀ other, other ≠ who → matchesWatchNames (ops other).watchName name = false)
    {move : Move ι} (hkept : ∀ other, move ≠ .step other (.delete name)) :
    ∃ turns, ((f.next ops move).sees who).View name (Machine.run Flight.next g turns) := by
  -- a step of the operator itself, or one that might as well be its own
  have hown {step : Step} (hstep : step ≠ .delete name) :
      ∃ turns, ((f.sees who).next (ops who) step).View name (Machine.run Flight.next g turns) :=
    next_induction (P := fun s' => ∃ turns, s'.View name (Machine.run Flight.next g turns)) ⟨[], h⟩
      fun _ hacts => h.acts (hminds who).sees.flight hacts hstep
  cases move with
  | step other step =>
    have hstep : step ≠ .delete name := fun heq => hkept other (by rw [heq])
    by_cases heq : who = other
    · subst heq
      rw [Fleet.next, Fleet.set_sees_self]
      exact hown hstep
    · cases husers : step.isUsers with
      | true =>
        rw [users_step husers heq]
        exact hown hstep
      | false =>
        rw [Fleet.next, f.set_sees_ne heq]
        refine h.aside ?_ (fun _ _ => Iff.rfl) rfl
        exact next_induction (P := fun s' : Process => s'.resources[name]? = f.resources[name]?) rfl
          fun _ hacts => (hminds other).sees.untouched hacts husers (hothers other (Ne.symm heq))
  | restart other =>
    by_cases heq : who = other
    · subst heq
      rw [Fleet.next, Fleet.set_sees_self]
      exact h.restarted
    · refine ⟨[], ?_⟩
      rw [Fleet.next, f.set_sees_ne heq]
      exact h

end View

/-- **Operators and restarts do not show.**  Let a resource be created in a namespace with any number
of operators, only one of which may watch its name, and which is not at work on a deleted resource of
that name.  Then let all of them do what they like, restarts included, and the users anything but
delete it.  What the operator then shows of the resource, work under way included, is what some run of
turns from a new resource leads to. -/
theorem fleet_refines {ι : Type} [DecidableEq ι] (ops : ι → Operator) (who : ι) (name : String)
    (spec : PgBouncerAuroraSpec)
    (hothers : ∀ other, other ≠ who → matchesWatchNames (ops other).watchName name = false)
    (before after : List (Move ι)) (user : ι)
    (hnew : (Machine.run (Fleet.next ops) {} before).resources[name]? = none)
    (hidle : ¬ ((Machine.run (Fleet.next ops) {} before).members who).WorksOn name)
    (hkept : ∀ other, .step other (.delete name) ∉ after) :
    ∃ turns, ((Machine.run (Fleet.next ops) {}
        (before ++ .step user (.create name spec) :: after)).sees who).View name
      (Machine.run Flight.next
        { world := World.initial name spec (Machine.run (Fleet.next ops) {} before).cluster }
        turns) := by
  have hminds := fleet_run ops before
  rw [Machine.run_append, Machine.run_cons]
  set f := Machine.run (Fleet.next ops) {} before with hf
  have hcreate : (f.next ops (.step user (.create name spec))).sees who
      = (f.sees who).next (ops who) (.create name spec) := by
    by_cases heq : who = user
    · rw [heq, Fleet.next, Fleet.set_sees_self]
    · exact users_step rfl heq
  have hview : ((f.next ops (.step user (.create name spec))).sees who).View name
      { world := World.initial name spec f.cluster } := by
    rw [hcreate]
    have hfree : (f.sees who).resources[name]? = none := hnew
    refine view_create hfree (fun kind work hmem => hidle (Or.inl ⟨_, hmem, rfl⟩)) ?_ (ops who) spec
    by_contra hprepared
    exact hidle (Or.inr hprepared)
  have halong : Machine.Along (Fleet.next ops)
      (fun _ move => ∀ other, move ≠ .step other (.delete name))
      (f.next ops (.step user (.create name spec))) after := by
    refine Machine.along_of_forall (fun move hmem _ other => ?_) _
    rintro rfl
    exact hkept other hmem
  have hstep (f : Fleet ι) (move : Move ι) (g : Flight)
      (h : (∀ who, Minds (ops who) (f.members who)) ∧ (f.sees who).View name g)
      (hmove : ∀ other, move ≠ .step other (.delete name)) :
      ∃ turns, (∀ who, Minds (ops who) ((f.next ops move).members who)) ∧
        ((f.next ops move).sees who).View name (Machine.run Flight.next g turns) := by
    obtain ⟨turns, hturns⟩ := h.2.fleet h.1 hothers hmove
    exact ⟨turns, fleet_next h.1 move, hturns⟩
  obtain ⟨turns, -, hturns⟩ := Machine.Along.simulate hstep ⟨fleet_next hminds _, hview⟩ halong
  exact ⟨turns, hturns⟩

def ordersFirst : List (Move Bool) :=
  [.step false (.create "orders" {}), .step false (.list 0 false), .step false .enqueue]

/-- The operator is restarted in the middle of a job, while its neighbour goes on. -/
theorem restarted_refines :
    ∃ turns, ((Machine.run (Fleet.next twoOperators) {}
        (ordersFirst ++ .step true (.create "db" {}) ::
          [.step true (.list 0 false), .step true .enqueue,
            .step true (.take 0 discoverA (fun _ _ => .ok ∅) 0 0 false), .restart true,
            .step false (.take 0 discoverA (fun _ _ => .ok ∅) 0 0 false),
            .step true (.start "db" 0 [] 1)])).sees true).View "db"
      (Machine.run Flight.next
        { world := World.initial "db" {}
            (Machine.run (Fleet.next twoOperators) {} ordersFirst).cluster } turns) := by
  refine fleet_refines twoOperators true "db" {} (fun other hne => ?_) _ _ true (by decide +kernel)
    (fun hworks => ?_) (by simp)
  · cases other with
    | true => exact absurd rfl hne
    | false => decide +kernel
  · rcases hworks with ⟨job, hjob, -⟩ | hprepared
    · have hnone : ((Machine.run (Fleet.next twoOperators) {} ordersFirst).members true).jobs.length
          = 0 := by
        decide +kernel
      rw [List.length_eq_zero_iff.mp hnone] at hjob
      cases hjob
    · exact hprepared (by decide +kernel)

end Manager

end AuroraOperator

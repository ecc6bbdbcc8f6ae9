/-
# The throttle

`reconcileMinInterval` keeps the Reconciles of one resource apart.  The controller remembers when
it last let one through, forgets it when the resource is gone, and puts off whoever comes too early.

* `reconciles_spaced`: between two Reconciles of a resource there is at least the interval, in any
  run, unless the resource was found missing in between.
* `put_off_passes`: a request that is put off waits for a timer, for the interval at most.  Until some
  Reconcile of the resource is let through, the request is not lost: it is with its timer, or the
  timer has run out and it is in the queue.  When the time has come, two steps let it through: the
  timer runs out, and a worker takes the name.
-/
import AuroraOperator.Lib.Keyed
import AuroraOperator.Manager.Process

namespace AuroraOperator

namespace Manager

open Controller

/-! ## 1. What the journal knows -/

/-- When Reconciles of a resource were let through since it was last found missing, newest first. -/
def passes (name : String) : List Happening → List Int
  | [] => []
  | .passed name' time :: rest => if name' = name then time :: passes name rest else passes name rest
  | .missing name' :: rest => if name' = name then [] else passes name rest
  | _ :: rest => passes name rest

/-- What a step does to the throttle. -/
inductive ThrottleMove (op : Operator) (s s' : Process) : Prop
  | kept (journal : ∀ name, passes name s'.journal = passes name s.journal)
      (table : s'.lastReconcileStarted = s.lastReconcileStarted) (clock : s.clock ≤ s'.clock)
  | passed {name : String} (pass : s.Passes op name)
      (own : passes name s'.journal = s.clock :: passes name s.journal)
      (others : ∀ name', name' ≠ name → passes name' s'.journal = passes name' s.journal)
      (table : s'.lastReconcileStarted = (s.reconcileThrottleRemaining op name).2)
      (clock : s'.clock = s.clock)
  | forgot {name : String} (own : passes name s'.journal = [])
      (others : ∀ name', name' ≠ name → passes name' s'.journal = passes name' s.journal)
      (table : s'.lastReconcileStarted = (s.reconcileThrottleRemaining op name).2.erase name)
      (clock : s'.clock = s.clock)

theorem Acts.throttleMove {op : Operator} {s s' : Process} {step : Step} (h : Acts op s step s') :
    ThrottleMove op s s' := by
  cases h with
  | @waited time => exact .kept (fun _ => rfl) rfl (by simp)
  | vanished queued free passes gone =>
    exact .forgot (by simp [Manager.passes])
      (fun name' hname => by simp [Manager.passes, Ne.symm hname]) rfl rfl
  | began queued watch free passes there run | broke queued watch free passes there run =>
    exact .passed passes (by simp [Manager.passes])
      (fun name' hname => by simp [Manager.passes, Ne.symm hname]) rfl rfl
  | _ => exact .kept (fun _ => rfl) rfl (le_refl _)

/-! ## 2. What the controller remembers -/

/-- The interval that counts; one that is not positive is none. -/
def Operator.interval (op : Operator) : Int := max op.reconcileMinInterval 0

section Remaining

variable {op : Operator} {s : Process} {name : String}

theorem remaining_of_none (h : s.lastReconcileStarted[name]? = none) :
    (s.reconcileThrottleRemaining op name).1 = 0 := by
  unfold Process.reconcileThrottleRemaining
  split
  · rfl
  · rw [h]

/-- How long somebody has to wait, if the last one was then. -/
theorem remaining_of_some {last : Int} (hpositive : 0 < op.reconcileMinInterval)
    (h : s.lastReconcileStarted[name]? = some last) :
    (s.reconcileThrottleRemaining op name).1
      = max (op.reconcileMinInterval - (s.clock - last)) 0 := by
  unfold Process.reconcileThrottleRemaining
  rw [if_neg (by omega), h]
  dsimp only
  split
  · omega
  · omega

/-- Whoever is let through leaves the time. -/
theorem table_self (hpositive : 0 < op.reconcileMinInterval) (hpass : s.Passes op name) :
    (s.reconcileThrottleRemaining op name).2[name]? = some s.clock := by
  unfold Process.Passes at hpass
  unfold Process.reconcileThrottleRemaining at hpass ⊢
  rw [if_neg (by omega)] at hpass ⊢
  cases hlast : s.lastReconcileStarted[name]? with
  | none => exact Std.ExtTreeMap.getElem?_insert_self
  | some last =>
    simp only [hlast] at hpass ⊢
    split at hpass
    · rename_i hearly
      dsimp only at hpass
      omega
    · rename_i hlate
      rw [if_neg hlate]
      exact Std.ExtTreeMap.getElem?_insert_self

/-- The others have nothing to do with it. -/
theorem table_ne {name' : String} (hname : name' ≠ name) :
    (s.reconcileThrottleRemaining op name).2[name']? = s.lastReconcileStarted[name']? := by
  unfold Process.reconcileThrottleRemaining
  split
  · rfl
  · split
    · exact getElem?_insert_ne hname
    · split
      · rfl
      · exact getElem?_insert_ne hname

end Remaining

/-- The table has the last pass of every resource, and passes are apart. -/
structure Spaced (op : Operator) (s : Process) : Prop where
  past : ∀ name, ∀ time ∈ passes name s.journal, time ≤ s.clock
  table : 0 < op.reconcileMinInterval →
    ∀ name, s.lastReconcileStarted[name]? = (passes name s.journal).head?
  apart : ∀ name, (passes name s.journal).Pairwise fun later earlier => earlier + op.interval ≤ later

section Spaced

variable {op : Operator} {s s' : Process}

/-- The last pass is the latest. -/
theorem Spaced.le_head (h : Spaced op s) {name : String} {time last : Int}
    (hlast : (passes name s.journal).head? = some last) (htime : time ∈ passes name s.journal) :
    time ≤ last := by
  have hinterval : 0 ≤ op.interval := le_max_right _ _
  obtain ⟨rest, hrest⟩ := List.head?_eq_some_iff.mp hlast
  have hapart := h.apart name
  rw [hrest] at hapart htime
  rcases List.mem_cons.mp htime with rfl | htime
  · exact le_refl _
  · have hle := (List.pairwise_cons.mp hapart).1 time htime
    omega

/-- Whoever is let through is late enough for all that were before. -/
theorem Spaced.pass (h : Spaced op s) {name : String} (hpass : s.Passes op name) {time : Int}
    (htime : time ∈ passes name s.journal) : time + op.interval ≤ s.clock := by
  by_cases hpositive : 0 < op.reconcileMinInterval
  · have hinterval : op.interval = op.reconcileMinInterval := max_eq_left (by omega)
    have htable := h.table hpositive name
    cases hlast : (passes name s.journal).head? with
    | none =>
      rw [List.head?_eq_none_iff.mp hlast] at htime
      cases htime
    | some last =>
      have hle := h.le_head hlast htime
      unfold Process.Passes at hpass
      rw [remaining_of_some hpositive (htable.trans hlast)] at hpass
      omega
  · have hinterval : op.interval = 0 := max_eq_right (by omega)
    have hpast := h.past name time htime
    omega

theorem Spaced.move (h : Spaced op s) (hmove : ThrottleMove op s s') : Spaced op s' := by
  cases hmove with
  | kept journal table clock =>
    constructor
    · intro name time htime
      rw [journal] at htime
      exact le_trans (h.past name time htime) clock
    · intro hpositive name
      rw [journal, table]
      exact h.table hpositive name
    · intro name
      rw [journal]
      exact h.apart name
  | @passed name pass own others table clock =>
    constructor
    · intro name' time htime
      rw [clock]
      by_cases hname : name' = name
      · rw [hname, own] at htime
        rcases List.mem_cons.mp htime with rfl | htime
        · exact le_refl _
        · exact h.past name time htime
      · rw [others name' hname] at htime
        exact h.past name' time htime
    · intro hpositive name'
      rw [table]
      by_cases hname : name' = name
      · rw [hname, own, table_self hpositive pass, List.head?_cons]
      · rw [others name' hname, table_ne hname]
        exact h.table hpositive name'
    · intro name'
      by_cases hname : name' = name
      · rw [hname, own]
        exact List.pairwise_cons.mpr ⟨fun time htime => h.pass pass htime, h.apart name⟩
      · rw [others name' hname]
        exact h.apart name'
  | @forgot name own others table clock =>
    constructor
    · intro name' time htime
      rw [clock]
      by_cases hname : name' = name
      · rw [hname, own] at htime
        cases htime
      · rw [others name' hname] at htime
        exact h.past name' time htime
    · intro hpositive name'
      rw [table]
      by_cases hname : name' = name
      · rw [hname, own, Std.ExtTreeMap.getElem?_erase_self, List.head?_nil]
      · rw [others name' hname, getElem?_erase_ne hname, table_ne hname]
        exact h.table hpositive name'
    · intro name'
      by_cases hname : name' = name
      · rw [hname, own]
        exact List.Pairwise.nil
      · rw [others name' hname]
        exact h.apart name'

end Spaced

theorem spaced_run (op : Operator) (steps : List Step) :
    Spaced op (Machine.run (Process.next op) {} steps) := by
  refine Machine.invariant (fun s step h => ?_) ?_ steps
  · exact next_induction h fun _ hacts => h.move hacts.throttleMove
  · exact ⟨fun _ => nofun, fun _ _ => by simp [passes], fun _ => List.Pairwise.nil⟩

/-! ## 3. Spacing, and waiting -/

/-- **Reconciles are apart.**  In any run, those of one resource that were let through since it was
last found missing are at least the interval apart, each from every other. -/
theorem reconciles_spaced (op : Operator) (steps : List Step) (name : String) :
    (passes name (Machine.run (Process.next op) {} steps).journal).Pairwise fun later earlier =>
      earlier + max op.reconcileMinInterval 0 ≤ later :=
  (spaced_run op steps).apart name

/-- A request for a resource that was put off after the Reconcile of `last`.  Nobody works on the
resource, and the request is with its timer or, when that has run out, in the queue. -/
structure PutOff (op : Operator) (s : Process) (name : String) (last : Int) : Prop where
  free : s.prepared[name]? = none
  table : s.lastReconcileStarted[name]? = some last
  kept : (last + op.reconcileMinInterval, name) ∈ s.timers ∨
    last + op.reconcileMinInterval ≤ s.clock ∧ name ∈ s.queue

/-- Since the journal was `past`, a Reconcile of the resource was let through, or the request is
still put off. -/
def PassedOrPutOff (op : Operator) (past : List Happening) (name : String) (last : Int)
    (s : Process) : Prop :=
  ∃ new, s.journal = new ++ past ∧ ((∃ time, .passed name time ∈ new) ∨ PutOff op s name last)

section PutOff

variable {op : Operator} {s s' : Process} {name : String} {last : Int}

/-- How a request comes to be put off. -/
theorem last_of_early (h : 0 < (s.reconcileThrottleRemaining op name).1) :
    0 < op.reconcileMinInterval ∧ ∃ last, s.lastReconcileStarted[name]? = some last ∧
      s.clock + (s.reconcileThrottleRemaining op name).1 = last + op.reconcileMinInterval := by
  have hpositive : 0 < op.reconcileMinInterval := by
    by_contra hoff
    unfold Process.reconcileThrottleRemaining at h
    rw [if_pos (not_lt.mp hoff)] at h
    exact lt_irrefl _ h
  cases hlast : s.lastReconcileStarted[name]? with
  | none =>
    rw [remaining_of_none hlast] at h
    exact absurd h (lt_irrefl _)
  | some last =>
    rw [remaining_of_some hpositive hlast] at h ⊢
    exact ⟨hpositive, last, rfl, by omega⟩

/-- When the time has come, it is not put off again. -/
theorem PutOff.passes (h : PutOff op s name last)
    (hdue : last + op.reconcileMinInterval ≤ s.clock) : s.Passes op name := by
  by_contra hearly
  obtain ⟨-, last', hlast', hdue'⟩ := last_of_early (not_le.mp hearly)
  rw [h.table] at hlast'
  cases hlast'
  have hlate := not_le.mp hearly
  omega

/-- Where neither the resource nor its place in the queue is concerned. -/
theorem PutOff.mono (h : PutOff op s name last) (hfree : s'.prepared[name]? = s.prepared[name]?)
    (htable : s'.lastReconcileStarted[name]? = s.lastReconcileStarted[name]?)
    (htimers : ∀ due, (due, name) ∈ s.timers → (due, name) ∈ s'.timers)
    (hqueue : name ∈ s.queue → name ∈ s'.queue) (hclock : s.clock ≤ s'.clock) :
    PutOff op s' name last := by
  refine ⟨hfree.trans h.free, htable.trans h.table, ?_⟩
  rcases h.kept with htimer | ⟨hdue, hqueued⟩
  · exact Or.inl (htimers _ htimer)
  · exact Or.inr ⟨le_trans hdue hclock, hqueue hqueued⟩

/-- **One step.**  A Reconcile of the resource is let through, or the request is kept. -/
theorem PutOff.acts (h : PutOff op s name last) (hwatch : matchesWatchNames op.watchName name = true)
    {step : Step} (hacts : Acts op s step s') : PassedOrPutOff op s.journal name last s' := by
  have hother : ∀ {name' : String}, s.prepared[name']? ≠ none → name ≠ name' := by
    rintro name' hbusy rfl
    exact hbusy h.free
  have hfrom : ∀ {name' : String}, name ≠ name' → name ∈ s.queue → name ∈ s.queue.erase name' :=
    fun hne => (List.mem_erase_of_ne hne).mpr
  cases hacts with
  | sent job room =>
    exact ⟨[], rfl, Or.inr (h.mono rfl rfl (fun _ => id) id (le_refl _))⟩
  | committed job there run | dropped job full =>
    exact ⟨[_], rfl, Or.inr (h.mono rfl rfl (fun _ => id) id (le_refl _))⟩
  | delivered next | requested =>
    exact ⟨[], rfl, Or.inr (h.mono rfl rfl (fun _ => id) mem_queue_request (le_refl _))⟩
  | waited => exact ⟨[], rfl, Or.inr (h.mono rfl rfl (fun _ => id) id (by simp))⟩
  | @fired i due name' timer late =>
    refine ⟨[], rfl, Or.inr ⟨h.free, h.table, ?_⟩⟩
    rcases h.kept with htimer | ⟨hdue, hqueued⟩
    · by_cases hours : (last + op.reconcileMinInterval, name) = (due, name')
      · cases hours
        exact Or.inr ⟨late, mem_queue_request_self⟩
      · exact Or.inl (Keyed.mem_eraseIdx_of_ne timer htimer hours)
    · exact Or.inr ⟨hdue, mem_queue_request hqueued⟩
  | @unwatched name' now faults backoff queued watch =>
    have hne : name ≠ name' := by
      rintro rfl
      rw [hwatch] at watch
      cases watch
    exact ⟨[], rfl, Or.inr (h.mono rfl rfl (fun _ => id) (hfrom hne) (le_refl _))⟩
  | @throttled name' now faults backoff queued free early =>
    refine ⟨[], rfl, Or.inr ⟨h.free, h.table, ?_⟩⟩
    rcases h.kept with htimer | ⟨hdue, hqueued⟩
    · exact Or.inl (List.mem_append_left _ htimer)
    · have hne : name ≠ name' := by
        rintro rfl
        exact absurd (h.passes hdue) (not_le.mpr early)
      exact Or.inr ⟨hdue, hfrom hne hqueued⟩
  | @vanished name' now faults backoff queued free passes gone =>
    refine ⟨[_, _], rfl, ?_⟩
    by_cases hname : name = name'
    · subst hname
      exact Or.inl ⟨s.clock, by simp⟩
    · exact Or.inr (h.mono rfl ((getElem?_erase_ne hname).trans (table_ne hname)) (fun _ => id)
        (hfrom hname) (le_refl _))
  | @began name' now faults backoff entry p w queued watch free passes there run =>
    refine ⟨[_, _], rfl, ?_⟩
    by_cases hname : name = name'
    · subst hname
      exact Or.inl ⟨s.clock, by simp⟩
    · exact Or.inr (h.mono (getElem?_insert_ne hname) (table_ne hname) (fun _ => id)
        (hfrom hname) (le_refl _))
  | @broke name' now faults backoff entry e w queued watch free passes there run =>
    refine ⟨[_], rfl, ?_⟩
    by_cases hname : name = name'
    · subst hname
      exact Or.inl ⟨s.clock, by simp⟩
    · exact Or.inr (h.mono rfl (table_ne hname) (fun _ => List.mem_append_left _)
        (hfrom hname) (le_refl _))
  | @finished name' faults backoff p entry answer w job there run =>
    have hne : name ≠ name' := hother (by rw [job]; nofun)
    exact ⟨[_], rfl, Or.inr (h.mono (getElem?_erase_ne hne) rfl (fun _ => id) id (le_refl _))⟩
  | @bereft name' faults backoff p job gone
  | @unfinished name' faults backoff p entry e w job there run =>
    have hne : name ≠ name' := hother (by rw [job]; nofun)
    exact ⟨[], rfl, Or.inr (h.mono (getElem?_erase_ne hne) rfl (fun _ => List.mem_append_left _) id
      (le_refl _))⟩
  | _ => exact ⟨[], rfl, Or.inr (h.mono rfl rfl (fun _ => id) id (le_refl _))⟩

theorem PassedOrPutOff.next {past : List Happening} (h : PassedOrPutOff op past name last s)
    (hwatch : matchesWatchNames op.watchName name = true) (step : Step) :
    PassedOrPutOff op past name last (s.next op step) := by
  refine next_induction h fun s' hacts => ?_
  obtain ⟨new, hnew, ⟨time, hpassed⟩ | hkept⟩ := h
  · obtain ⟨more, hmore⟩ := hacts.journal
    exact ⟨more ++ new, by rw [hmore, hnew, List.append_assoc],
      Or.inl ⟨time, List.mem_append_right _ hpassed⟩⟩
  · obtain ⟨more, hmore, hcases⟩ := hkept.acts hwatch hacts
    refine ⟨more ++ new, by rw [hmore, hnew, List.append_assoc], hcases.imp_left ?_⟩
    exact fun ⟨time, hpassed⟩ => ⟨time, List.mem_append_left _ hpassed⟩

/-- **A whole run.** -/
theorem PutOff.run (h : PutOff op s name last)
    (hwatch : matchesWatchNames op.watchName name = true) (steps : List Step) :
    PassedOrPutOff op s.journal name last (Machine.run (Process.next op) s steps) :=
  Machine.invariant (fun _ step h => h.next hwatch step) ⟨[], rfl, Or.inr h⟩ steps

/-- A worker that takes the name when the time has come lets it through. -/
theorem PutOff.starts (h : PutOff op s name last)
    (hwatch : matchesWatchNames op.watchName name = true)
    (hdue : last + op.reconcileMinInterval ≤ s.clock) (hqueued : name ∈ s.queue) (now : Int)
    (faults : List (Option Fault)) (backoff : Nat) :
    ∃ new, (s.next op (.start name now faults backoff)).journal = new ++ s.journal ∧
      .passed name s.clock ∈ new := by
  have hacts : Acts op s (.start name now faults backoff)
      (s.next op (.start name now faults backoff)) :=
    next_acts (by simp [Process.possible, hqueued, h.free])
  generalize s.next op (.start name now faults backoff) = s' at hacts
  cases hacts with
  | unwatched queued watch =>
    rw [hwatch] at watch
    cases watch
  | throttled queued free early => exact absurd (h.passes hdue) (not_le.mpr early)
  | vanished queued free passes gone => exact ⟨[_, _], rfl, by simp⟩
  | began queued watch free passes there run => exact ⟨[_, _], rfl, by simp⟩
  | broke queued watch free passes there run => exact ⟨[_], rfl, by simp⟩

/-- When the time has come, its timer and a worker let it through. -/
theorem PutOff.ends (h : PutOff op s name last)
    (hwatch : matchesWatchNames op.watchName name = true)
    (hdue : last + op.reconcileMinInterval ≤ s.clock) (now : Int) (faults : List (Option Fault))
    (backoff : Nat) :
    ∃ fires : List Step, fires.length ≤ 1 ∧ (∀ step ∈ fires, ∃ i, step = .fire i) ∧
      ∃ new, (Machine.run (Process.next op) s
          (fires ++ [.start name now faults backoff])).journal = new ++ s.journal ∧
        .passed name s.clock ∈ new := by
  rcases h.kept with htimer | ⟨-, hqueued⟩
  · obtain ⟨i, hi⟩ := List.mem_iff_getElem?.mp htimer
    have hfired : s.next op (.fire i) =
        Process.request { s with timers := s.timers.eraseIdx i } name := by
      simp only [Process.next, hi, if_pos hdue]
    have hafter : PutOff op (s.next op (.fire i)) name last := by
      rw [hfired]
      exact ⟨h.free, h.table, Or.inr ⟨hdue, mem_queue_request_self⟩⟩
    have hqueued : name ∈ (s.next op (.fire i)).queue := by
      rw [hfired]
      exact mem_queue_request_self
    have hclock : (s.next op (.fire i)).clock = s.clock := by rw [hfired]; rfl
    have hjournal : (s.next op (.fire i)).journal = s.journal := by rw [hfired]; rfl
    obtain ⟨new, hnew, hpassed⟩ := hafter.starts hwatch (hclock ▸ hdue) hqueued now faults backoff
    refine ⟨[.fire i], le_refl _, by simp, new, ?_, hclock ▸ hpassed⟩
    rw [← hjournal]
    exact hnew
  · exact ⟨[], Nat.zero_le _, by simp, h.starts hwatch hdue hqueued now faults backoff⟩

end PutOff

/-- **A request that is put off is let through in the end.**  It is put off for the interval at most.
In whatever the process does then, either a Reconcile of the resource is let through, or the request
is kept, by its timer or in the queue; and once the time has come, no more is needed than that the
timer runs out, if it has not, and a worker takes the name. -/
theorem put_off_passes (op : Operator) (before after : List Step) (name : String) (now : Int)
    (faults : List (Option Fault)) (backoff : Nat)
    (hwatch : matchesWatchNames op.watchName name = true)
    (hqueued : name ∈ (Machine.run (Process.next op) {} before).queue)
    (hfree : (Machine.run (Process.next op) {} before).prepared[name]? = none)
    (hearly : 0 < ((Machine.run (Process.next op) {} before).reconcileThrottleRemaining op name).1) :
    let s := Machine.run (Process.next op) {} before
    let due := s.clock + (s.reconcileThrottleRemaining op name).1
    let s' := Machine.run (Process.next op) {} (before ++ .start name now faults backoff :: after)
    due ≤ s.clock + op.reconcileMinInterval ∧
      ∃ new, s'.journal = new ++ s.journal ∧
        ((∃ time, .passed name time ∈ new) ∨
          ((due, name) ∈ s'.timers ∨ due ≤ s'.clock ∧ name ∈ s'.queue) ∧
          (due ≤ s'.clock → ∀ now faults backoff, ∃ fires : List Step, fires.length ≤ 1 ∧
            (∀ step ∈ fires, ∃ i, step = .fire i) ∧
            ∃ more, (Machine.run (Process.next op) s'
                (fires ++ [.start name now faults backoff])).journal = more ++ s'.journal ∧
              .passed name s'.clock ∈ more)) := by
  intro s due s'
  obtain ⟨hpositive, last, hlast, hdue⟩ := last_of_early hearly
  have hdue : due = last + op.reconcileMinInterval := hdue
  have hspaced : Spaced op s := spaced_run op before
  have hpast : last ≤ s.clock := by
    refine hspaced.past name last (List.mem_of_head? ?_)
    rw [← hspaced.table hpositive name]
    exact hlast
  refine ⟨by omega, ?_⟩
  -- the step that puts the request off
  have hstart : s.next op (.start name now faults backoff) =
      Process.later { s with queue := s.queue.erase name }
        (s.reconcileThrottleRemaining op name).1 name := by
    have hcond : (name ∈ s.queue && s.prepared[name]?.isNone) = true := by
      simp [show name ∈ s.queue from hqueued, show s.prepared[name]? = none from hfree]
    have hearly' : (Process.reconcileThrottleRemaining op { s with queue := s.queue.erase name }
      name).1 > 0 := hearly
    simp only [Process.next, hcond, if_true, Process.reconcile, hwatch, Bool.not_true,
      Bool.false_eq_true, if_false, if_pos hearly']
    rfl
  have hput : PutOff op (s.next op (.start name now faults backoff)) name last := by
    rw [hstart]
    exact ⟨hfree, hlast, Or.inl (List.mem_append_right _
      (List.mem_singleton.mpr (by rw [← hdue])))⟩
  have hs' : s' = Machine.run (Process.next op) (s.next op (.start name now faults backoff)) after := by
    simp only [s', s, Machine.run_append, Machine.run_cons]
  obtain ⟨new, hnew, hcases⟩ := hput.run hwatch after
  rw [← hs'] at hnew hcases
  have hjournal : (s.next op (.start name now faults backoff)).journal = s.journal := by
    rw [hstart]
    rfl
  refine ⟨new, by rw [hnew, hjournal], hcases.imp_right fun hkept => ?_⟩
  rw [hdue]
  exact ⟨hkept.kept, fun hcome now faults backoff => hkept.ends hwatch hcome now faults backoff⟩

/-- A second request right after the first is put off for the whole interval; when it is over, the
timer and a worker let it through. -/
theorem second_request_passes :
    let op : Operator := { nameSpace := "ns", reconcileMinInterval := 10 }
    let before := [.create "db" {}, .request "db", .start "db" 0 [] 1, .finish "db" [] 1,
      .request "db"]
    let s := Machine.run (Process.next op) {} before
    let s' := Machine.run (Process.next op) {} (before ++ [.start "db" 0 [] 1, .wait 10])
    (s.reconcileThrottleRemaining op "db").1 = 10 ∧ s'.timers = [(10, "db")] ∧
      ∃ fires : List Step, fires.length ≤ 1 ∧ (∀ step ∈ fires, ∃ i, step = .fire i) ∧
        ∃ more, (Machine.run (Process.next op) s' (fires ++ [.start "db" 0 [] 1])).journal
          = more ++ s'.journal ∧ .passed "db" 10 ∈ more := by
  intro op before s s'
  obtain ⟨-, new, hnew, hcases⟩ := put_off_passes op before [.wait 10] "db" 0 [] 1
    (by decide +kernel) (by decide +kernel) (by decide +kernel) (by decide +kernel)
  refine ⟨by decide +kernel, by decide +kernel, ?_⟩
  have hnil : new = [] := by
    have hsame : s'.journal = s.journal := by decide +kernel
    exact List.append_left_eq_self.mp (hnew.symm.trans hsame)
  subst hnil
  rcases hcases with ⟨time, hpassed⟩ | ⟨-, hends⟩
  · cases hpassed
  · have hclock : s'.clock = 10 := by decide +kernel
    rw [← hclock]
    exact hends (by decide +kernel) 0 [] 1

end Manager

end AuroraOperator

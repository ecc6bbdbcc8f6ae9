/-
# No wake-up is lost

Next to a scheduler a Reconcile that goes through does not ask to be run again.  What a job has
committed is put into effect only because the job sends an event, and between the commit and the
Reconcile the wake-up changes hands many times: the goroutine has it, then the channel, then the
queue, a worker, and after a failure or a Reconcile that came too early a timer.  In the meantime
a Reconcile may be under way that began before the commit, and does not know of it.

* `no_lost_wakeup`: whatever happens after a commit, the wake-up is somewhere on its way, or a
  Reconcile that began after the commit has gone through, or one has found no resource.  There is
  one exception, an event that finds 1024 others in the channel.
-/
import AuroraOperator.Manager.SingleFlight

namespace AuroraOperator

namespace Manager

open Controller

/-! ## 1. Only watched resources have jobs

A Reconcile of a resource that is not watched returns at once, and its wake-up is gone; so no job
may be about one. -/

/-- The scheduler keeps to the resources it watches. -/
structure Watched (op : Operator) (s : Process) : Prop where
  pending : ∀ job ∈ s.pending, matchesWatchNames op.watchName job.2 = true
  jobs : ∀ job ∈ s.jobs, matchesWatchNames op.watchName job.name = true
  committed : ∀ name, .committed name ∈ s.journal → matchesWatchNames op.watchName name = true

theorem dueJobs_watched {op : Operator} {s : Process} {now : Int} {job : JobKind × String}
    (h : job ∈ s.dueJobs op now) : matchesWatchNames op.watchName job.2 = true := by
  obtain ⟨entry, -, hjob⟩ := List.mem_flatMap.mp h
  dsimp only at hjob
  split at hjob
  · rename_i hwatch
    rcases List.mem_append.mp hjob with hjob | hjob
    · split at hjob
      · rw [List.mem_singleton.mp hjob]
        exact hwatch
      · cases hjob
    · split at hjob
      · rw [List.mem_singleton.mp hjob]
        exact hwatch
      · cases hjob
  · cases hjob

/-- Where a goroutine moves on, it stays the goroutine of its resource. -/
theorem Watched.set {op : Operator} {s : Process} (h : Watched op s) {i : Nat} {kind : JobKind}
    {name : String} {stage stage' : Stage kind.Work} (hi : s.jobs[i]? = some ⟨kind, name, stage⟩) :
    ∀ job ∈ s.jobs.set i ⟨kind, name, stage'⟩, matchesWatchNames op.watchName job.name = true := by
  intro job hjob
  rcases List.mem_or_eq_of_mem_set hjob with hjob | rfl
  · exact h.jobs job hjob
  · exact h.jobs ⟨kind, name, stage⟩ (List.mem_of_getElem? hi)

theorem mem_jobs_enqueueJob {op : Operator} {s : Process} {kind : JobKind} {name : String}
    {job : Job} (h : job ∈ (s.enqueueJob op kind name).jobs) :
    job ∈ s.jobs ∨ job = ⟨kind, name, .started⟩ := by
  rw [Process.enqueueJob_jobs] at h
  rcases List.mem_append.mp h with h | h
  · exact Or.inl h
  · cases hmark : (s.markInFlight (inFlightID kind op.nameSpace name)).1 with
    | true => exact Or.inr (by simpa [hmark] using h)
    | false => simp [hmark] at h

theorem Watched.acts {op : Operator} {s s' : Process} (h : Watched op s) {step : Step}
    (hacts : Acts op s step s') : Watched op s' := by
  cases hacts with
  | listed through => exact ⟨fun _ hjob => dueJobs_watched hjob, h.jobs, h.committed⟩
  | @enqueued kind name rest next =>
    have hhead : (kind, name) ∈ s.pending := by rw [next]; exact List.mem_cons_self
    refine ⟨fun job hjob => h.pending job ?_, fun job hjob => ?_, h.committed⟩
    · rw [next]
      exact List.mem_cons_of_mem _ hjob
    · rcases mem_jobs_enqueueJob hjob with hjob | rfl
      · exact h.jobs job hjob
      · exact h.pending (kind, name) hhead
  | @committed i kind name work faults entry answer w job there run =>
    refine ⟨h.pending, h.set job, fun name' hname => ?_⟩
    rcases List.mem_cons.mp hname with heq | hold
    · cases heq
      exact h.jobs ⟨kind, name, .working work⟩ (List.mem_of_getElem? job)
    · exact h.committed name' hold
  | took job | orphaned job gone | uncommitted job there run | sent job room =>
    exact ⟨h.pending, h.set job, h.committed⟩
  | dropped job full =>
    exact ⟨h.pending, h.set job, fun name hname => h.committed name (by simpa using hname)⟩
  | left job => exact ⟨h.pending, fun job hjob => h.jobs job (List.mem_of_mem_eraseIdx hjob),
      h.committed⟩
  | vanished queued free passes gone | began queued watch free passes there run
  | broke queued watch free passes there run | finished job there run =>
    exact ⟨h.pending, h.jobs, fun name hname => h.committed name (by simpa using hname)⟩
  | _ => exact ⟨h.pending, h.jobs, h.committed⟩

/-! ## 2. Where a wake-up can be -/

/-- Somebody will ask for the resource, or a Reconcile is under way that began since. -/
inductive Awaited (s : Process) (name : String) (since : List Happening) : Prop
  | reporting {kind : JobKind} (job : ⟨kind, name, .reporting⟩ ∈ s.jobs)
  | event (sent : name ∈ s.events)
  | queued (waits : name ∈ s.queue)
  | timer {due : Int} (waits : (due, name) ∈ s.timers)
  | running (busy : s.prepared[name]? ≠ none) (began : .prepared name ∈ since)

/-- Nobody need ask: a Reconcile has gone through from its first half to its last, or has found
nothing to do.  The last case is the exception. -/
inductive Settled (name : String) (since : List Happening) : Prop
  | reconciled {late early : List Happening} (ended : since = late ++ .finished name :: early)
      (began : .prepared name ∈ early)
  | missing (found : .missing name ∈ since)
  | dropped (full : .dropped name ∈ since)

theorem Settled.later {name : String} {since : List Happening} (h : Settled name since)
    (new : List Happening) : Settled name (new ++ since) := by
  cases h with
  | @reconciled late early ended began =>
    exact .reconciled (by rw [ended, List.append_assoc]) began
  | missing found => exact .missing (List.mem_append_right _ found)
  | dropped full => exact .dropped (List.mem_append_right _ full)

/-! ## 3. How it changes hands -/

/-- One step, seen by a wake-up: what the step adds to the journal, what becomes of a wake-up that
was on its way, and that a commit brings a new one. -/
structure HandsOn (s s' : Process) (name : String) (new : List Happening) : Prop where
  journal : s'.journal = new ++ s.journal
  kept : ∀ since, Awaited s name since →
    Awaited s' name (new ++ since) ∨ Settled name (new ++ since)
  brought : ∀ late early, new = late ++ .committed name :: early → Awaited s' name late

section HandsOn

variable {op : Operator} {s s' : Process} {name : String}

/-- Nobody lets go of anything. -/
theorem Awaited.mono {since : List Happening} (h : Awaited s name since) (new : List Happening)
    (hjobs : ∀ kind, ⟨kind, name, .reporting⟩ ∈ s.jobs → ⟨kind, name, .reporting⟩ ∈ s'.jobs)
    (hevents : s.events ⊆ s'.events) (hqueue : name ∈ s.queue → name ∈ s'.queue)
    (htimers : s.timers ⊆ s'.timers)
    (hprepared : s.prepared[name]? ≠ none → s'.prepared[name]? ≠ none) :
    Awaited s' name (new ++ since) := by
  cases h with
  | reporting job => exact .reporting (hjobs _ job)
  | event sent => exact .event (hevents sent)
  | queued waits => exact .queued (hqueue waits)
  | timer waits => exact .timer (htimers waits)
  | running busy began => exact .running (hprepared busy) (List.mem_append_right _ began)

/-- A step that no wake-up notices. -/
theorem HandsOn.aside (hjournal : s'.journal = s.journal)
    (hjobs : ∀ kind, ⟨kind, name, .reporting⟩ ∈ s.jobs → ⟨kind, name, .reporting⟩ ∈ s'.jobs)
    (hevents : s'.events = s.events) (hqueue : s'.queue = s.queue) (htimers : s'.timers = s.timers)
    (hprepared : s'.prepared = s.prepared) : HandsOn s s' name [] where
  journal := hjournal
  kept since h := Or.inl (h.mono [] hjobs (by rw [hevents]; exact List.Subset.refl _)
    (by rw [hqueue]; exact id) (by rw [htimers]; exact List.Subset.refl _)
    (by rw [hprepared]; exact id))
  brought late early heq := by simp at heq

/-- A worker has taken a name from the queue.  If it is another's, nothing happens; if not, it has
to be seen to. -/
theorem HandsOn.dequeued {name' : String} {new : List Happening}
    (hjournal : s'.journal = new ++ s.journal) (hjobs : s'.jobs = s.jobs)
    (hevents : s'.events = s.events) (hqueue : s'.queue = s.queue.erase name')
    (htimers : s.timers ⊆ s'.timers)
    (hprepared : s.prepared[name]? ≠ none → s'.prepared[name]? ≠ none)
    (hnew : .committed name ∉ new)
    (hself : name' = name → ∀ since, Awaited s' name (new ++ since) ∨ Settled name (new ++ since)) :
    HandsOn s s' name new where
  journal := hjournal
  kept since h := by
    by_cases hname : name' = name
    · exact hself hname since
    · refine Or.inl (h.mono new ?_ ?_ (fun hmem => ?_) htimers hprepared)
      · rw [hjobs]
        exact fun _ => id
      · rw [hevents]
        exact List.Subset.refl _
      · rw [hqueue]
        exact (List.mem_erase_of_ne (Ne.symm hname)).mpr hmem
  brought late early heq := absurd (heq ▸ List.mem_append_right _ List.mem_cons_self) hnew

/-- A Reconcile has ended. -/
theorem HandsOn.ended {name' : String} {new : List Happening}
    (hjournal : s'.journal = new ++ s.journal) (hjobs : s'.jobs = s.jobs)
    (hevents : s'.events = s.events) (hqueue : s'.queue = s.queue)
    (htimers : s.timers ⊆ s'.timers) (hprepared : s'.prepared = s.prepared.erase name')
    (hnew : .committed name ∉ new)
    (hself : name' = name → ∀ since, .prepared name ∈ since →
      Awaited s' name (new ++ since) ∨ Settled name (new ++ since)) :
    HandsOn s s' name new where
  journal := hjournal
  kept since h := by
    have hsame (hprepared : s.prepared[name]? ≠ none → s'.prepared[name]? ≠ none) :
        Awaited s' name (new ++ since) :=
      h.mono new (by rw [hjobs]; exact fun _ => id) (by rw [hevents]; exact List.Subset.refl _)
        (by rw [hqueue]; exact id) htimers hprepared
    by_cases hname : name' = name
    · cases h with
      | running busy began => exact hself hname since began
      | reporting job => exact Or.inl (.reporting (by rw [hjobs]; exact job))
      | event sent => exact Or.inl (.event (by rw [hevents]; exact sent))
      | queued waits => exact Or.inl (.queued (by rw [hqueue]; exact waits))
      | timer waits => exact Or.inl (.timer (htimers waits))
    · refine Or.inl (hsame ?_)
      rw [hprepared, getElem?_erase_ne (Ne.symm hname)]
      exact id
  brought late early heq := absurd (heq ▸ List.mem_append_right _ List.mem_cons_self) hnew

/-- **One step.** -/
theorem Acts.handsOn {step : Step} (h : Acts op s step s')
    (hwatched : matchesWatchNames op.watchName name = true) : ∃ new, HandsOn s s' name new := by
  -- a goroutine that is not about to report, before the step
  have hmoved {i : Nat} {kind : JobKind} {name' : String} {stage stage' : Stage kind.Work}
      (hi : s.jobs[i]? = some ⟨kind, name', stage⟩) (hstage : stage ≠ .reporting)
      (kind' : JobKind) (hmem : ⟨kind', name, .reporting⟩ ∈ s.jobs) :
      ⟨kind', name, .reporting⟩ ∈ s.jobs.set i ⟨kind, name', stage'⟩ := by
    refine Keyed.mem_set_of_ne hi hmem fun heq => ?_
    cases heq
    exact hstage rfl
  cases h with
  | enqueued next =>
    exact ⟨[], .aside rfl (fun _ hmem => List.mem_append_left _ hmem) rfl rfl rfl rfl⟩
  | took job | orphaned job gone | uncommitted job there run =>
    exact ⟨[], .aside rfl (hmoved job (by simp)) rfl rfl rfl rfl⟩
  | @committed i kind name' work faults entry answer w job there run =>
    refine ⟨[.committed name'], rfl, fun since haw => Or.inl ?_, fun late early heq => ?_⟩
    · exact haw.mono _ (hmoved job (by simp)) (List.Subset.refl _) id (List.Subset.refl _) id
    · have hname : name' = name := by
        rcases late with _ | ⟨_, _ | _⟩ <;> simp_all
      subst hname
      obtain ⟨hi, -⟩ := List.getElem?_eq_some_iff.mp job
      exact .reporting (List.mem_of_getElem? (List.getElem?_set_self hi))
  | @sent i kind name' job room =>
    refine ⟨[], rfl, fun since haw => Or.inl ?_, fun late early heq => by simp at heq⟩
    cases haw with
    | @reporting kind' hmem =>
      by_cases hname : name' = name
      · rw [hname]
        exact .event (List.mem_append_right _ (List.mem_singleton_self _))
      · refine .reporting (Keyed.mem_set_of_ne job hmem fun heq => ?_)
        cases heq
        exact hname rfl
    | event sent => exact .event (List.mem_append_left _ sent)
    | queued waits => exact .queued waits
    | timer waits => exact .timer waits
    | running busy began => exact .running busy began
  | @dropped i kind name' job full =>
    refine ⟨[.dropped name'], rfl, fun since haw => ?_, fun late early heq => ?_⟩
    · by_cases hname : name' = name
      · rw [hname]
        exact Or.inr (.dropped List.mem_cons_self)
      · refine Or.inl (haw.mono _ (fun kind' hmem => ?_) (List.Subset.refl _) id
          (List.Subset.refl _) id)
        refine Keyed.mem_set_of_ne job hmem fun heq => ?_
        cases heq
        exact hname rfl
    · have hmem : .committed name ∈ [Happening.dropped name'] := heq ▸ by simp
      simp at hmem
  | left job =>
    refine ⟨[], .aside rfl (fun kind' hmem => ?_) rfl rfl rfl rfl⟩
    refine Keyed.mem_eraseIdx_of_ne job hmem fun heq => ?_
    cases heq
  | @delivered name' rest next =>
    refine ⟨[], rfl, fun since haw => Or.inl ?_, fun late early heq => by simp at heq⟩
    cases haw with
    | reporting hmem => exact .reporting hmem
    | event sent =>
      rw [next] at sent
      rcases List.mem_cons.mp sent with rfl | sent
      · exact .queued mem_queue_request_self
      · exact .event sent
    | queued waits => exact .queued (mem_queue_request waits)
    | timer waits => exact .timer waits
    | running busy began => exact .running busy began
  | requested =>
    refine ⟨[], rfl, fun since haw => Or.inl ?_, fun late early heq => by simp at heq⟩
    exact haw.mono [] (fun _ => id) (List.Subset.refl _) mem_queue_request (List.Subset.refl _) id
  | @fired i due name' timer late =>
    refine ⟨[], rfl, fun since haw => Or.inl ?_, fun late early heq => by simp at heq⟩
    cases haw with
    | reporting hmem => exact .reporting hmem
    | event sent => exact .event sent
    | queued waits => exact .queued (mem_queue_request waits)
    | @timer due' waits =>
      by_cases hname : name' = name
      · rw [hname]
        exact .queued mem_queue_request_self
      · refine .timer (Keyed.mem_eraseIdx_of_ne timer waits fun heq => ?_)
        cases heq
        exact hname rfl
    | running busy began => exact .running busy began
  | @unwatched name' now faults backoff queued watch =>
    refine ⟨[], .dequeued rfl rfl rfl rfl (List.Subset.refl _) id (by simp) fun hname => ?_⟩
    rw [hname, hwatched] at watch
    cases watch
  | @throttled name' now faults backoff queued free early =>
    refine ⟨[], .dequeued rfl rfl rfl rfl (List.subset_append_left _ _) id (by simp)
      fun hname since => Or.inl ?_⟩
    rw [hname]
    exact .timer (List.mem_append_right _ (List.mem_singleton_self _))
  | @vanished name' now faults backoff queued free passes gone =>
    refine ⟨[.missing name', .passed name' s.clock], .dequeued rfl rfl rfl rfl
      (List.Subset.refl _) id (by simp) fun hname since => Or.inr ?_⟩
    rw [hname]
    exact .missing List.mem_cons_self
  | @began name' now faults backoff entry p w queued watch free passes there run =>
    refine ⟨[.prepared name', .passed name' s.clock], .dequeued rfl rfl rfl rfl
      (List.Subset.refl _) (fun hbusy => ?_) (by simp) fun hname since => Or.inl ?_⟩
    · by_cases hname : name = name'
      · simp [hname]
      · simpa [getElem?_insert_ne hname] using hbusy
    · rw [hname]
      exact .running (by simp) List.mem_cons_self
  | @broke name' now faults backoff entry e w queued watch free passes there run =>
    refine ⟨[.passed name' s.clock], .dequeued rfl rfl rfl rfl (List.subset_append_left _ _) id
      (by simp) fun hname since => Or.inl ?_⟩
    rw [hname]
    exact .timer (List.mem_append_right _ (List.mem_singleton_self _))
  | @finished name' faults backoff p entry answer w job there run =>
    refine ⟨[.finished name'], .ended rfl rfl rfl rfl (List.Subset.refl _) rfl
      (by simp) fun hname since began => Or.inr ?_⟩
    rw [hname]
    exact @Settled.reconciled _ _ [] _ rfl began
  | @bereft name' faults backoff p job gone
  | @unfinished name' faults backoff p entry e w job there run =>
    refine ⟨[], .ended rfl rfl rfl rfl (List.subset_append_left _ _) rfl (by simp)
      fun hname since began => Or.inl ?_⟩
    rw [hname]
    exact .timer (List.mem_append_right _ (List.mem_singleton_self _))
  | listed through | waited | created free | edited there | deleted | moved =>
    exact ⟨[], .aside rfl (fun _ => id) rfl rfl rfl rfl⟩

end HandsOn

/-! ## 4. Runs -/

/-- Every commit is attended to. -/
structure Attentive (op : Operator) (s : Process) : Prop where
  watched : Watched op s
  attended : ∀ name since earlier, s.journal = since ++ .committed name :: earlier →
    Awaited s name since ∨ Settled name since

theorem attentive_initial (op : Operator) : Attentive op {} where
  watched := ⟨nofun, nofun, nofun⟩
  attended name since earlier h := by simp at h

/-- A commit in the journal after a step is an old one, or the step's own. -/
theorem Attentive.next {op : Operator} {s : Process} (h : Attentive op s) (step : Step) :
    Attentive op (s.next op step) := by
  refine next_induction h fun s' hacts => ?_
  have hwatched := h.watched.acts hacts
  refine ⟨hwatched, fun name since earlier hjournal => ?_⟩
  have hname : matchesWatchNames op.watchName name = true :=
    hwatched.committed name (hjournal ▸ List.mem_append_right _ List.mem_cons_self)
  obtain ⟨new, hnew⟩ := hacts.handsOn hname
  rw [hnew.journal] at hjournal
  rcases List.append_eq_append_iff.mp hjournal with ⟨old, rfl, hold⟩ | ⟨own, rfl, hown⟩
  · rcases h.attended name old earlier hold with haw | hsettled
    · exact hnew.kept old haw
    · exact Or.inr (hsettled.later new)
  · rcases own with _ | ⟨commit, own⟩
    · rcases h.attended name [] earlier hown.symm with haw | hsettled
      · simpa using hnew.kept [] haw
      · simpa using Or.inr (hsettled.later since)
    · simp only [List.cons_append, List.cons.injEq] at hown
      obtain ⟨rfl, -⟩ := hown
      exact Or.inl (hnew.brought since own rfl)

theorem attentive_run (op : Operator) (steps : List Step) :
    Attentive op (Machine.run (Process.next op) {} steps) :=
  Machine.invariant (fun _ step h => h.next step) (attentive_initial op) steps

/-- **No wake-up is lost.** -/
theorem no_lost_wakeup (op : Operator) (steps : List Step) (name : String)
    (since earlier : List Happening)
    (hcommit : (Machine.run (Process.next op) {} steps).journal
      = since ++ .committed name :: earlier) :
    Awaited (Machine.run (Process.next op) {} steps) name since ∨ Settled name since :=
  (attentive_run op steps).attended name since earlier hcommit

/-- From the commit of a discovery to the end of its Reconcile. -/
theorem discovery_wakeup :
    let steps := jobUnderWay "db" ++ [.commit 0 [], .report 0, .leave 0, .deliver,
      .start "db" 0 [] 1, .finish "db" [] 1]
    let since : List Happening := [.finished "db", .prepared "db", .passed "db" 0]
    Awaited (Machine.run (Process.next { nameSpace := "ns" }) {} steps) "db" since ∨
      Settled "db" since :=
  no_lost_wakeup _ _ "db" _ [] (by decide +kernel)

end Manager

end AuroraOperator

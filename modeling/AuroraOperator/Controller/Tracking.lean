/-
# Tracking missing instances

The missing list of the status is an implementation of `Absence`: a discovery is an observation,
and a Reconcile that deletes the resources of a missing instance drops its entry.  The list is
rebuilt at every discovery from itself and the last topology.

* `missing_tracking`: along any run in which every discovery succeeds, the list is exact, entry
  by entry.  The count is an int32, so it is the number of misses only up to wrapping
  (`missing_count_wraps`).
* `missing_counts_iff`: when discoveries fail, the count stays a count of real observations
  unless a failure is papered over with the cached topology while an instance is missing.  Then
  the list is rebuilt against a topology that nobody observed, and every entry gains one
  (`papered_over_failure_counts`).
-/
import AuroraOperator.Controller.Invariants

namespace AuroraOperator

namespace Controller

open Planner Render Program Absence

/-! ## 1. One more discovery, entry by entry -/

/-- The entry of a tracked instance, as it is stored. -/
def trackedEntry (name : String) (journal : List Event) : MissingInstanceStatus where
  instanceName := name
  missingCount := Int32.ofNat (missed name journal).length
  firstMissingTime := (missed name journal).getLast?.map wholeSeconds
  lastMissingTime := (observations journal).head?.map fun o => wholeSeconds o.2

section Entries

variable {name : String} {names : List String} {now : Int} {journal : List Event}

/-- A first miss starts the count. -/
theorem countMissing_first (hname : name ∉ names) (h : missed name journal = []) :
    (countMissing none name now).marshal = trackedEntry name (.observed names now :: journal) := by
  simp [countMissing, trackedEntry, missed_observed hname, h, observations,
    MissingInstanceStatus.marshal]

/-- Another miss adds one, and leaves the time of the first one. -/
theorem countMissing_again (hname : name ∉ names) (h : missed name journal ≠ []) :
    (countMissing (some (trackedEntry name journal)) name now).marshal
      = trackedEntry name (.observed names now :: journal) := by
  obtain ⟨first, hfirst⟩ : ∃ t, (missed name journal).getLast? = some t :=
    ⟨_, List.getLast?_eq_some_getLast h⟩
  have hlast : (now :: missed name journal).getLast? = some first := by
    rw [List.getLast?_cons, hfirst]
    rfl
  simp [countMissing, trackedEntry, missed_observed hname, hfirst, hlast, observations,
    MissingInstanceStatus.marshal, Int32.ofNat_add]

end Entries

theorem mem_instanceNames {instances : List InstanceObservation} {name : String} :
    name ∈ instanceNames instances ↔ name ≠ "" ∧ name ∈ instances.map (·.name) := by
  rw [instanceNames, List.mem_filter, decide_eq_true_eq, and_comm]

/-! ## 2. The list is exact -/

/-- A status and the history that it reflects. -/
structure Tracks (s : Status) (journal : List Event) : Prop where
  consistent : Consistent s
  topology : ∀ name, name ∈ latest journal ↔
    name ≠ "" ∧ name ∈ s.lastKnownTopology.map (·.instanceName)
  named : ¬ Seen "" journal
  present : ∀ name ∈ latest journal, ¬ DroppedSince name journal
  tracked : ∀ name, name ∈ s.missingInstances.map (·.instanceName) ↔ Tracked name journal
  entries : ∀ m ∈ s.missingInstances, m = trackedEntry m.instanceName journal

theorem tracks_empty : Tracks {} [] where
  consistent := consistent_empty
  topology := by simp [latest, observations]
  named := by simp [Seen, observations]
  present := by simp [latest, observations]
  tracked name := by
    refine iff_of_false (by simp) ?_
    rintro ⟨⟨o, ho, -⟩, -⟩
    cases ho
  entries := by simp

/-- The rebuilt entry of a missing instance is the one its history calls for. -/
theorem Tracks.rebuilt {resource : PgBouncerAurora} {journal : List Event}
    (h : Tracks resource.status journal) {discovery : DiscoveryResult}
    (ht : discovery.trusted = true) {now : Int} {m : MissingInstanceStatus}
    (hm : m ∈ missingInstancesFor resource discovery true now) :
    m.marshal = trackedEntry m.instanceName
      (.observed (instanceNames discovery.instances) now :: journal) := by
  obtain ⟨hne, hnot, hbefore⟩ := (mem_missingInstancesFor_names ht).mp (List.mem_map_of_mem hm)
  have hnames : m.instanceName ∉ instanceNames discovery.instances :=
    fun hin => hnot (mem_instanceNames.mp hin).2
  rw [mem_missingInstancesFor ht hm]
  by_cases hin : m.instanceName ∈ resource.status.missingInstances.map (·.instanceName)
  · -- missing before: one more miss
    obtain ⟨m₀, hm₀, hname⟩ := List.mem_map.mp hin
    have hexisting : existingMissing resource (discoveredInstanceSet discovery.instances)
        m.instanceName = some m₀ := by
      rw [← hname]
      refine existingMissing_of_mem h.consistent.nodup hm₀ (hname ▸ hne) ?_
      rw [hname, ← Bool.not_eq_true]
      simpa [discoveredInstanceSet, hne] using hnot
    have htracked := (h.tracked _).mp hin
    rw [hexisting, h.entries m₀ hm₀, hname]
    exact countMissing_again hnames (missed_ne_nil htracked.seen htracked.absent)
  · -- there before: the first miss
    rw [existingMissing_of_not_mem hin]
    exact countMissing_first hnames (missed_of_mem_latest
      ((h.topology _).mpr ⟨hne, hbefore.resolve_left hin⟩))

/-- **A trusted discovery extends the history by one observation.** -/
theorem Tracks.observed {resource : PgBouncerAurora} {journal : List Event}
    (h : Tracks resource.status journal) {discovery : DiscoveryResult}
    (ht : discovery.trusted = true) {now : Int} {s : Status} (hconsistent : Consistent s)
    (htopology : s.lastKnownTopology = topologyStatus discovery.instances)
    (hmissing : s.missingInstances
      = (missingInstancesFor resource discovery true now).map MissingInstanceStatus.marshal) :
    Tracks s (.observed (instanceNames discovery.instances) now :: journal) where
  consistent := hconsistent
  topology name := by
    rw [latest_observed, mem_instanceNames, htopology, map_name_topologyStatus]
  named hseen := by
    rcases seen_observed.mp hseen with hin | hseen
    · exact (mem_instanceNames.mp hin).1 rfl
    · exact h.named hseen
  present name hname := not_droppedSince_observed hname
  tracked name := by
    rw [tracked_observed (h.present name), hmissing, map_name_marshal,
      mem_missingInstancesFor_names ht, mem_instanceNames, ← h.tracked, h.topology]
    have hne : name ∈ resource.status.missingInstances.map (·.instanceName) → name ≠ "" := by
      rintro hin rfl
      exact h.consistent.named hin
    tauto
  entries m hm := by
    rw [hmissing] at hm
    obtain ⟨m', hm', rfl⟩ := List.mem_map.mp hm
    exact h.rebuilt ht hm'

/-- **A Reconcile drops the entries whose resources it deleted.** -/
theorem Tracks.dropped {s s' : Status} {journal : List Event} (h : Tracks s journal)
    {deleted : List String} (hconsistent : Consistent s')
    (hdeleted : ∀ name ∈ deleted, name ∈ s.missingInstances.map (·.instanceName))
    (htopology : s'.lastKnownTopology = s.lastKnownTopology)
    (hmissing : s'.missingInstances = s.missingInstances.filter (·.instanceName ∉ deleted)) :
    Tracks s' (.dropped deleted :: journal) where
  consistent := hconsistent
  topology name := by
    rw [latest_dropped, htopology]
    exact h.topology name
  named := h.named
  present name hname hd := by
    rcases droppedSince_dropped.mp hd with hin | hd
    · exact ((h.tracked name).mp (hdeleted name hin)).absent hname
    · exact h.present name hname hd
  tracked name := by
    rw [tracked_dropped, ← h.tracked, hmissing]
    simp only [List.mem_map, List.mem_filter, decide_eq_true_eq]
    constructor
    · rintro ⟨m, ⟨hm, hkept⟩, rfl⟩
      exact ⟨hkept, m, hm, rfl⟩
    · rintro ⟨hkept, m, hm, rfl⟩
      exact ⟨m, ⟨hm, hkept⟩, rfl⟩
  entries m hm := by
    rw [hmissing] at hm
    exact h.entries m (List.mem_filter.mp hm).1

/-- Nothing that leaves topology and missing list alone needs to be recorded. -/
theorem Tracks.same {s s' : Status} {journal : List Event} (h : Tracks s journal)
    (hconsistent : Consistent s') (htopology : s'.lastKnownTopology = s.lastKnownTopology)
    (hmissing : s'.missingInstances = s.missingInstances) : Tracks s' journal where
  consistent := hconsistent
  topology := by rw [htopology]; exact h.topology
  named := h.named
  present := h.present
  tracked := by rw [hmissing]; exact h.tracked
  entries := by rw [hmissing]; exact h.entries

/-- A step whose discovery, if it makes one, succeeds and is trusted. -/
def Trusting (w : World) : Step → Prop
  | .discover discover _ _ _ =>
    ∃ discovery, discover w.stored.resource = .ok discovery ∧ discovery.trusted = true
  | _ => True

/-- What a committed Reconcile deletes was missing. -/
theorem PrepareSpec.deleted_missing {now : Int} {w w₁ : World} {p : Prepared}
    (hp : PrepareSpec now w p w₁) {name : String} (hname : name ∈ p.deleted) :
    name ∈ w.stored.resource.status.missingInstances.map (·.instanceName) := by
  rw [hp.deleted_eq] at hname
  split at hname
  · exact (List.filter_sublist.map _).mem hname
  · cases hname

/-- What a committed discovery job takes for observed: the result it goes on with, if that is
trusted, be it the call's own or the cached topology. -/
def resulted (discover : Discover) (resource : PgBouncerAurora) (now : Int) : List Event :=
  let discovery := (effectiveDiscovery discover resource).1
  if discovery.trusted then [.observed (instanceNames discovery.instances) now] else []

/-- The entry of the journal, with the results of jobs in place of their observations. -/
def resultsOf (w : World) (step : Step) (events : List Event) : List Event :=
  match step with
  | .discover discover checkedAt now faults =>
    if answer (runDiscoveryJob discover checkedAt now) (w.meet faults) then
      resulted discover w.stored.resource now
    else []
  | _ => events

/-- **Every move keeps the list exact**, as a list of what the committed results missed. -/
theorem Move.tracks_results {w w' : World} {step : Step} {events : List Event}
    (hmove : Move w step w' events) {journal : List Event}
    (h : Tracks w.stored.resource.status journal) :
    Tracks w'.stored.resource.status (resultsOf w step events ++ journal) := by
  have hconsistent := hmove.consistent h.consistent
  cases hmove with
  | discovered answered due commit stored =>
    rename_i discover checkedAt now faults status
    rw [stored] at hconsistent ⊢
    rw [resultsOf, if_pos answered, resulted]
    cases ht : (effectiveDiscovery discover w.stored.resource).1.trusted with
    | true =>
      obtain ⟨htopology, hmissing, -⟩ := discoveryCommit_trusted commit ht
      rw [if_pos rfl]
      refine h.observed ht hconsistent htopology ?_
      rw [StoredResource.updateStatus_status, Status.marshal_missingInstances, hmissing]
      rfl
    | false =>
      obtain ⟨htopology, hmissing, -⟩ := discoveryCommit_untrusted commit ht
      rw [if_neg (by simp)]
      refine h.same hconsistent htopology ?_
      rw [StoredResource.updateStatus_status, Status.marshal_missingInstances, hmissing]
      exact w.stored.marshal_missingInstances
  | undiscovered unanswered stored =>
    rw [resultsOf, if_neg (by simp [unanswered]), stored]
    exact h
  | monitored trusted commit stored =>
    obtain ⟨htopology, hmissing, -⟩ := monitorCommit_frame commit
    rw [stored] at hconsistent ⊢
    refine h.same hconsistent htopology ?_
    rw [StoredResource.updateStatus_status, Status.marshal_missingInstances, hmissing]
    exact w.stored.marshal_missingInstances
  | reconciled prepared cluster stored =>
    rw [stored] at hconsistent ⊢
    refine h.dropped hconsistent (fun _ => prepared.deleted_missing) ?_ ?_
    · rw [StoredResource.updateStatus_status, Status.marshal_lastKnownTopology, Prepared.status,
        prepared.resource, prepared.evaluation]
      exact (reconcileCommit_frame _ _ _ _ _).1
    · exact prepared.stored_missing.trans (prepared.missing_eq h.consistent.nodup)
  | edited stored | unmonitored stored | attempted stored | moved stored => rw [stored]; exact h

/-- When every discovery is trusted, results and observations are the same. -/
theorem Move.resultsOf_eq {w w' : World} {step : Step} {events : List Event}
    (hmove : Move w step w' events) (hstep : Trusting w step) : resultsOf w step events = events := by
  cases hmove with
  | discovered answered due commit stored =>
    rename_i discover checkedAt now faults status
    obtain ⟨d, hok, ht⟩ := hstep
    rw [resultsOf, if_pos answered]
    simp [resulted, Controller.observed, effectiveDiscovery, hok, ht]
  | undiscovered unanswered stored => rw [resultsOf, if_neg (by simp [unanswered])]
  | monitored | unmonitored | reconciled | attempted | edited | moved => rfl

theorem Move.tracks {w w' : World} {step : Step} {events : List Event}
    (hmove : Move w step w' events) (hstep : Trusting w step) {journal : List Event}
    (h : Tracks w.stored.resource.status journal) :
    Tracks w'.stored.resource.status (events ++ journal) := by
  have hresults := hmove.tracks_results h
  rwa [hmove.resultsOf_eq hstep] at hresults

theorem tracks_run (name : String) (spec : PgBouncerAuroraSpec) (cluster : Cluster)
    {steps : List Step}
    (hsteps : Machine.Along World.next Trusting (World.initial name spec cluster) steps) :
    let t := Machine.run journaled (World.initial name spec cluster, []) steps
    Tracks t.1.stored.resource.status t.2 :=
  Machine.Along.invariant (P := fun (t : World × List Event) step => Trusting t.1 step)
    (I := fun t : World × List Event => Tracks t.1.stored.resource.status t.2)
    (fun t step h hstep => (next_move t.1 step).tracks hstep h) tracks_empty
    ((Machine.along_traced World.next).mpr hsteps)

/-- **The missing list is exact.**  After any run in which every discovery is trusted, from a
new resource: the list is strictly sorted and names nobody of the last discovery; it names
exactly those that were discovered before and not dropped since; and an entry has the count of
the discoveries since then (as an int32), the time of the first of them and the time of the
last discovery. -/
theorem missing_tracking (name : String) (spec : PgBouncerAuroraSpec) (cluster : Cluster)
    (steps : List Step)
    (hsteps : Machine.Along World.next Trusting (World.initial name spec cluster) steps) :
    let t := Machine.run journaled (World.initial name spec cluster, []) steps
    let missing := t.1.stored.resource.status.missingInstances
    (missing.map (·.instanceName)).Pairwise (· < ·) ∧
      (∀ x ∈ missing.map (·.instanceName), x ∉ latest t.2) ∧
      (∀ x, x ∈ missing.map (·.instanceName) ↔ Tracked x t.2) ∧
      (∀ m ∈ missing, m = trackedEntry m.instanceName t.2) ∧
      ∀ m ∈ missing, (missed m.instanceName t.2).length < 2 ^ 31 →
        m.missingCount.toInt = (missed m.instanceName t.2).length := by
  intro t missing
  have h : Tracks t.1.stored.resource.status t.2 := tracks_run name spec cluster hsteps
  refine ⟨h.consistent.sorted, fun x hx => ((h.tracked x).mp hx).absent, h.tracked, h.entries, ?_⟩
  intro m hm hlt
  rw [h.entries m hm]
  exact Int32.toInt_ofNat_of_lt hlt

/-- A job whose discovery is trusted and lists the given readers beside the writer `a`. -/
def discoverReaders (readers : List String) (now : Int) : Step :=
  .discover (fun _ => .ok
    { trusted := true
      instances := { name := "a", role := .writer } ::
        readers.map fun name => { name := name, role := .reader } }) now now []

theorem missing_tracking_example :
    let t := Machine.run journaled (World.initial "db" {} {}, [])
      [discoverReaders ["x"] 0, discoverReaders [] (5 * second), discoverReaders [] (10 * second)]
    ∀ m ∈ t.1.stored.resource.status.missingInstances, m = trackedEntry m.instanceName t.2 := by
  have h := missing_tracking "db" {} {}
    [discoverReaders ["x"] 0, discoverReaders [] (5 * second), discoverReaders [] (10 * second)]
    ⟨⟨_, rfl, rfl⟩, ⟨_, rfl, rfl⟩, ⟨_, rfl, rfl⟩, trivial⟩
  exact h.2.2.2.1

/-- Nothing has been reconciled, and no discovery is later than time 0: another one at time 0 is
due and not late. -/
structure AlwaysDue (w : World) : Prop where
  unreconciled : w.stored.resource.generation ≠ w.stored.resource.status.observedGeneration
  notLate : isNewer w.stored.resource.status.lastDiscoveryTime 0 = false

/-- Such a job is committed, and leaves the next one due again. -/
theorem AlwaysDue.discover {w : World} (h : AlwaysDue w) (readers : List String) :
    w.events (discoverReaders readers 0) = [.observed (instanceNames
      ({ name := "a", role := .writer } :: readers.map fun name =>
        { name := name, role := .reader })) 0] ∧
    AlwaysDue (w.next (discoverReaders readers 0)) := by
  set discover : Discover := fun _ => .ok
    { trusted := true
      instances := { name := "a", role := .writer } ::
        readers.map fun name => { name := name, role := .reader } } with hdiscover
  have hdue : discoveryDue w.stored.resource 0 = true := by simp [discoveryDue, h.unreconciled]
  obtain ⟨status, hstatus⟩ := Option.isSome_iff_exists.mp (discoveryCommit_eq_some.mpr h.notLate)
  have hanswer : answer (runDiscoveryJob discover 0 0) (w.meet []) = true :=
    answer_runJob rfl (show takeDiscovery discover 0 0 w.stored.resource
      = some (discoveryWork discover w.stored.resource 0) from if_pos hdue) hstatus
  refine ⟨if_pos hanswer, ?_⟩
  rcases runJob_cases (takeDiscovery discover 0 0) DiscoveryWork.commit (w.meet [])
    with ⟨-, work, status', htake, hcommit, hstored⟩ | ⟨hno, -⟩
  · obtain ⟨-, -, -, hgeneration, htime, -⟩ := discoveryCommit_frame hcommit
    have hnow : work.now = 0 := by
      have htake' : some (discoveryWork discover w.stored.resource 0) = some work :=
        (if_pos hdue).symm.trans htake
      cases htake'
      rfl
    have hnext : (w.next (discoverReaders readers 0)).stored = w.stored.updateStatus status' := hstored
    refine ⟨?_, ?_⟩
    · rw [hnext]
      show w.stored.resource.generation ≠ status'.observedGeneration
      rw [hgeneration]
      exact h.unreconciled
    · rw [hnext, StoredResource.updateStatus_status, Status.marshal_lastDiscoveryTime, htime, hnow]
      decide
  · rw [runDiscoveryJob, hno] at hanswer
    cases hanswer

/-- The journal of `k` discoveries that all miss `x`. -/
theorem journal_of_misses (k : Nat) :
    let t := Machine.run journaled (World.initial "db" {} {}, [])
      (discoverReaders ["x"] 0 :: List.replicate k (discoverReaders [] 0))
    t.2 = List.replicate k (.observed ["a"] 0) ++ [.observed ["a", "x"] 0] ∧ AlwaysDue t.1 := by
  induction k with
  | zero =>
    have hdue : AlwaysDue (World.initial "db" {} {}) := ⟨by decide, rfl⟩
    obtain ⟨hevents, hnext⟩ := hdue.discover ["x"]
    refine ⟨?_, hnext⟩
    rw [List.replicate_zero, Machine.run_cons, Machine.run_nil, journaled, Machine.traced, hevents]
    rfl
  | succ k ih =>
    rw [List.replicate_succ', ← List.cons_append, Machine.run_append]
    obtain ⟨hjournal, hdue⟩ := ih
    obtain ⟨hevents, hnext⟩ := hdue.discover []
    refine ⟨?_, hnext⟩
    rw [Machine.run_cons, Machine.run_nil, journaled, Machine.traced, hevents]
    rw [hjournal]
    rfl

theorem missed_of_misses (k : Nat) :
    missed "x" (List.replicate k (.observed ["a"] 0) ++ [.observed ["a", "x"] (0 : Int)])
      = List.replicate k 0 := by
  induction k with
  | zero => decide
  | succ k ih =>
    rw [List.replicate_succ, List.cons_append, missed_observed (by decide), ih,
      List.replicate_succ]

theorem tracked_of_misses (k : Nat) :
    Tracked "x" (List.replicate (k + 1) (.observed ["a"] 0) ++
      [.observed ["a", "x"] (0 : Int)]) := by
  induction k with
  | zero =>
    exact (tracked_observed fun _ => not_droppedSince_observed (by decide)).mpr
      ⟨by decide, Or.inr (by decide)⟩
  | succ k ih =>
    rw [List.replicate_succ, List.cons_append]
    refine (tracked_observed fun hlatest => ?_).mpr ⟨by decide, Or.inl ih⟩
    exact absurd hlatest ih.absent

/-- The stored entry of `x` after any number of misses. -/
theorem entry_of_misses (k : Nat) :
    let t := Machine.run journaled (World.initial "db" {} {}, [])
      (discoverReaders ["x"] 0 :: List.replicate (k + 1) (discoverReaders [] 0))
    ∃ m ∈ t.1.stored.resource.status.missingInstances, m.instanceName = "x" ∧
      (missed "x" t.2).length = k + 1 ∧ m.missingCount = Int32.ofNat (k + 1) := by
  intro t
  have htracks : Tracks t.1.stored.resource.status t.2 :=
    tracks_run "db" {} {} (Machine.along_of_forall (fun step hstep w => by
      rcases List.mem_cons.mp hstep with rfl | hstep
      · exact ⟨_, rfl, rfl⟩
      · obtain rfl := List.eq_of_mem_replicate hstep
        exact ⟨_, rfl, rfl⟩) _)
  have hjournal : t.2 = List.replicate (k + 1) (.observed ["a"] 0) ++ [.observed ["a", "x"] 0] :=
    (journal_of_misses (k + 1)).1
  rw [hjournal] at htracks ⊢
  obtain ⟨m, hm, hname⟩ := List.mem_map.mp ((htracks.tracked "x").mpr (tracked_of_misses k))
  have hmissed := missed_of_misses (k + 1)
  refine ⟨m, hm, hname, by rw [hmissed, List.length_replicate], ?_⟩
  rw [htracks.entries m hm, hname]
  show Int32.ofNat (missed "x" _).length = _
  rw [hmissed, List.length_replicate]

/-- **The count wraps.**  After 2147483648 discoveries without `x` the stored count is
negative. -/
theorem missing_count_wraps :
    let t := Machine.run journaled (World.initial "db" {} {}, [])
      (discoverReaders ["x"] 0 :: List.replicate (2 ^ 31) (discoverReaders [] 0))
    ∃ m ∈ t.1.stored.resource.status.missingInstances, m.instanceName = "x" ∧
      (missed "x" t.2).length = 2 ^ 31 ∧ m.missingCount.toInt = -2 ^ 31 := by
  obtain ⟨k, hk⟩ : ∃ k, 2 ^ 31 = k + 1 := ⟨2 ^ 31 - 1, by norm_num⟩
  have hwrap : (Int32.ofNat (2 ^ 31)).toInt = -2 ^ 31 := by decide
  rw [hk] at hwrap ⊢
  obtain ⟨m, hm, hname, hlength, hcount⟩ := entry_of_misses k
  exact ⟨m, hm, hname, hlength, by rw [hcount]; exact hwrap⟩

/-! ## 3. Failures that count -/

/-- The missing instances and how often each was missed. -/
def missingCounts (s : Status) : List (String × Int32) :=
  s.missingInstances.map fun m => (m.instanceName, m.missingCount)

/-- A discovery job that observes nothing leaves the counts alone. -/
def CountsKept (w : World) : Step → Prop
  | .discover discover checkedAt now faults => Unobserved discover w.stored.resource →
      missingCounts (w.next (.discover discover checkedAt now faults)).stored.resource.status
        = missingCounts w.stored.resource.status
  | _ => True

/-- An instance is counted as missing at most as often as a trusted discovery has missed it. -/
def CountsBounded (t : World × List Event) : Prop :=
  ∀ m ∈ t.1.stored.resource.status.missingInstances,
    m.missingCount.toInt ≤ (missed m.instanceName t.2).length

/-- The failure of a discovery job is papered over: the cached topology is committed in place
of an observation. -/
def PaperedOver (w : World) : Step → Prop
  | .discover discover checkedAt now faults => Unobserved discover w.stored.resource ∧
      (effectiveDiscovery discover w.stored.resource).1.trusted = true ∧
      answer (runDiscoveryJob discover checkedAt now) (w.meet faults) = true
  | _ => False

/-- No failure is papered over while an instance is missing. -/
def NothingToCount (w : World) (step : Step) : Prop :=
  PaperedOver w step → w.stored.resource.status.missingInstances = []

theorem int32_succ_le (a : Int32) : (a + 1).toInt ≤ a.toInt + 1 := by
  have hone : (1 : Int32).toInt = 1 := rfl
  have hlt := a.toInt_lt
  have hle := a.le_toInt
  rw [Int32.toInt_add, hone, Int.bmod_def]
  split <;> omega

section Rebuilt

variable {resource : PgBouncerAurora} {discovery : DiscoveryResult} {now : Int}

/-- The old entry of a name that is missing again, and was before. -/
theorem missingInstancesFor_again (h : Consistent resource.status)
    (ht : discovery.trusted = true) {m m₀ : MissingInstanceStatus}
    (hm : m ∈ missingInstancesFor resource discovery true now)
    (hm₀ : m₀ ∈ resource.status.missingInstances) (hname : m₀.instanceName = m.instanceName) :
    m.missingCount = m₀.missingCount + 1 := by
  obtain ⟨hne, hnot, -⟩ := (mem_missingInstancesFor_names ht).mp (List.mem_map_of_mem hm)
  have hexisting : existingMissing resource (discoveredInstanceSet discovery.instances)
      m.instanceName = some m₀ := by
    rw [← hname]
    refine existingMissing_of_mem h.nodup hm₀ (hname ▸ hne) ?_
    rw [hname, ← Bool.not_eq_true]
    simpa [discoveredInstanceSet, hne] using hnot
  rw [mem_missingInstancesFor ht hm, hexisting]
  rfl

variable (now) in
/-- A rebuild against the topology of the status itself keeps the names. -/
theorem missingInstancesFor_cached (h : Consistent resource.status)
    (ht : discovery.trusted = true)
    (hcached : discovery.instances = topologyObservations resource.status.lastKnownTopology)
    {name : String} :
    name ∈ (missingInstancesFor resource discovery true now).map (·.instanceName) ↔
      name ∈ resource.status.missingInstances.map (·.instanceName) := by
  rw [mem_missingInstancesFor_names ht, hcached, map_name_topologyObservations]
  constructor
  · rintro ⟨-, hnot, hin | hin⟩
    · exact hin
    · exact absurd hin hnot
  · intro hin
    refine ⟨?_, h.disjoint name hin, Or.inl hin⟩
    rintro rfl
    exact h.named hin

end Rebuilt

/-- Committing the cached topology rebuilds the list against itself. -/
theorem PaperedOver.rebuilt {w : World} {discover : Discover} {checkedAt now : Int}
    {faults : List (Option Fault)} (h : PaperedOver w (.discover discover checkedAt now faults)) :
    ∃ discovery : DiscoveryResult, discovery.trusted = true ∧
      discovery.instances = topologyObservations w.stored.resource.status.lastKnownTopology ∧
      (w.next (.discover discover checkedAt now faults)).stored.resource.status.missingInstances
        = (missingInstancesFor w.stored.resource discovery true now).map
          MissingInstanceStatus.marshal := by
  obtain ⟨hunobserved, ht, hanswer⟩ := h
  have hcached : (effectiveDiscovery discover w.stored.resource).1.instances
      = topologyObservations w.stored.resource.status.lastKnownTopology := by
    rcases effectiveDiscovery_cases discover w.stored.resource
      with ⟨d, hok, htd, -⟩ | ⟨-, -, hu | ⟨hc, -⟩⟩
    · rw [hunobserved d hok] at htd
      cases htd
    · rw [ht] at hu
      cases hu
    · exact hc
  refine ⟨_, ht, hcached, ?_⟩
  have hmove := next_move w (.discover discover checkedAt now faults)
  generalize w.next (.discover discover checkedAt now faults) = w' at hmove ⊢
  generalize w.events (.discover discover checkedAt now faults) = events at hmove
  cases hmove with
  | discovered answered due commit stored =>
    rw [stored, StoredResource.updateStatus_status, Status.marshal_missingInstances,
      (discoveryCommit_trusted commit ht).2.1]
    rfl
  | undiscovered unanswered stored =>
    rw [hanswer] at unanswered
    cases unanswered

/-- A failure that is not papered over leaves the missing list alone. -/
theorem missing_of_not_paperedOver {w : World} {discover : Discover} {checkedAt now : Int}
    {faults : List (Option Fault)} (hunobserved : Unobserved discover w.stored.resource)
    (h : ¬ PaperedOver w (.discover discover checkedAt now faults)) :
    (w.next (.discover discover checkedAt now faults)).stored.resource.status.missingInstances
      = w.stored.resource.status.missingInstances := by
  have hmove := next_move w (.discover discover checkedAt now faults)
  generalize w.next (.discover discover checkedAt now faults) = w' at hmove ⊢
  generalize w.events (.discover discover checkedAt now faults) = events at hmove
  cases hmove with
  | discovered answered due commit stored =>
    have hu : (effectiveDiscovery discover w.stored.resource).1.trusted = false := by
      by_contra ht
      exact h ⟨hunobserved, by simpa using ht, answered⟩
    rw [stored, StoredResource.updateStatus_status, Status.marshal_missingInstances,
      (discoveryCommit_untrusted commit hu).2.1]
    exact w.stored.marshal_missingInstances
  | undiscovered unanswered stored => rw [stored]

/-- When nothing is missing, there is nothing for a papered-over failure to count. -/
theorem PaperedOver.missing_eq_nil {w : World} (hc : Consistent w.stored.resource.status)
    {discover : Discover} {checkedAt now : Int} {faults : List (Option Fault)}
    (h : PaperedOver w (.discover discover checkedAt now faults))
    (hnil : w.stored.resource.status.missingInstances = []) :
    (w.next (.discover discover checkedAt now faults)).stored.resource.status.missingInstances
      = [] := by
  obtain ⟨discovery, ht, hcached, hmissing⟩ := h.rebuilt
  rw [hmissing, List.map_eq_nil_iff, List.eq_nil_iff_forall_not_mem]
  intro m hm
  have hin := (missingInstancesFor_cached now hc ht hcached).mp (List.mem_map_of_mem hm)
  rw [hnil] at hin
  cases hin

/-- **When the counts are kept**: exactly when no failure is papered over while an instance is
missing.  A papered-over failure adds one to every entry, and no int32 is its own successor. -/
theorem countsKept_iff {w : World} (hc : Consistent w.stored.resource.status) (step : Step) :
    CountsKept w step ↔ NothingToCount w step := by
  cases step with
  | discover discover checkedAt now faults =>
    constructor
    · intro hkept hpapered
      have hsame := hkept hpapered.1
      obtain ⟨discovery, ht, hcached, hmissing⟩ := hpapered.rebuilt
      rw [List.eq_nil_iff_forall_not_mem]
      intro m₀ hm₀
      obtain ⟨m, hm, hname⟩ := List.mem_map.mp
        ((missingInstancesFor_cached now hc ht hcached).mpr (List.mem_map_of_mem hm₀))
      have hcount := missingInstancesFor_again hc ht hm hm₀ hname.symm
      have hmem : (m.instanceName, m.missingCount) ∈ missingCounts w.stored.resource.status := by
        rw [← hsame, missingCounts, hmissing]
        exact List.mem_map.mpr ⟨m.marshal, List.mem_map_of_mem hm, rfl⟩
      obtain ⟨m₁, hm₁, heq⟩ := List.mem_map.mp hmem
      have hname₁ : m₁.instanceName = m₀.instanceName := (congrArg Prod.fst heq).trans hname
      have hcount₁ : m₁.missingCount = m.missingCount := congrArg Prod.snd heq
      rw [List.inj_on_of_nodup_map hc.nodup hm₁ hm₀ hname₁, hcount] at hcount₁
      simp at hcount₁
    · intro hnothing hunobserved
      by_cases hpapered : PaperedOver w (.discover discover checkedAt now faults)
      · have hnil := hnothing hpapered
        rw [missingCounts, missingCounts, hpapered.missing_eq_nil hc hnil, hnil]
      · rw [missingCounts, missingCounts, missing_of_not_paperedOver hunobserved hpapered]
  | monitor | reconcile | editSpec | environment =>
    exact iff_of_true trivial fun h => h.elim

/-- A trusted discovery counts one miss for each entry, and records one. -/
theorem CountsBounded.observed {resource : PgBouncerAurora} {journal : List Event}
    (hc : Consistent resource.status)
    (h : ∀ m ∈ resource.status.missingInstances,
      m.missingCount.toInt ≤ (missed m.instanceName journal).length)
    {discovery : DiscoveryResult} (ht : discovery.trusted = true) {now : Int}
    {m : MissingInstanceStatus} (hm : m ∈ missingInstancesFor resource discovery true now) :
    m.missingCount.toInt ≤ (missed m.instanceName
      (.observed (instanceNames discovery.instances) now :: journal)).length := by
  obtain ⟨-, hnot, -⟩ := (mem_missingInstancesFor_names ht).mp (List.mem_map_of_mem hm)
  rw [missed_observed fun hin => hnot (mem_instanceNames.mp hin).2, List.length_cons]
  by_cases hin : m.instanceName ∈ resource.status.missingInstances.map (·.instanceName)
  · obtain ⟨m₀, hm₀, hname⟩ := List.mem_map.mp hin
    rw [missingInstancesFor_again hc ht hm hm₀ hname, ← hname]
    have hle := int32_succ_le m₀.missingCount
    have hbound := h m₀ hm₀
    push_cast
    omega
  · rw [mem_missingInstancesFor ht hm, existingMissing_of_not_mem hin]
    have hone : (countMissing none m.instanceName now).missingCount.toInt = 1 := rfl
    rw [hone]
    push_cast
    omega

/-- **Every move keeps the counts bounded**, unless it papers over a failure. -/
theorem Move.bounded {w w' : World} {step : Step} {events : List Event}
    (hmove : Move w step w' events) (hc : Consistent w.stored.resource.status)
    {journal : List Event} (h : CountsBounded (w, journal))
    (hobserves : ∀ discover checkedAt now faults, step = .discover discover checkedAt now faults →
      ¬ Unobserved discover w.stored.resource) :
    CountsBounded (w', events ++ journal) := by
  cases hmove with
  | discovered answered due commit stored =>
    rename_i discover checkedAt now faults status
    have hobs := hobserves _ _ _ _ rfl
    rcases effectiveDiscovery_cases discover w.stored.resource
      with ⟨d, hok, ht, heff⟩ | ⟨hun, -⟩
    · have hevents : Controller.observed discover w.stored.resource now
          = [.observed (instanceNames d.instances) now] := by
        simp [Controller.observed, hok, ht]
      have hmissing : status.missingInstances
          = missingInstancesFor w.stored.resource d true now := by
        have hd : (discoveryWork discover w.stored.resource now).discovery = d :=
          congrArg Prod.fst heff
        rw [(discoveryCommit_trusted commit (by rw [hd]; exact ht)).2.1]
        simp [discoveryWork, heff]
      intro m hm
      rw [hevents]
      dsimp only at hm
      rw [stored, StoredResource.updateStatus_status, Status.marshal_missingInstances,
        hmissing] at hm
      obtain ⟨m', hm', rfl⟩ := List.mem_map.mp hm
      exact CountsBounded.observed (m := m') hc h ht hm'
    · exact absurd hun hobs
  | monitored trusted commit stored =>
    intro m hm
    dsimp only at hm
    rw [stored, StoredResource.updateStatus_status, Status.marshal_missingInstances,
      (monitorCommit_frame commit).2.1, w.stored.marshal_missingInstances] at hm
    exact h m hm
  | @reconciled _ _ _ _ p prepared cluster stored =>
    have hmissing : w'.stored.resource.status.missingInstances = p.missing := by
      rw [stored]
      exact prepared.stored_missing
    intro m hm
    dsimp only at hm
    rw [hmissing] at hm
    exact h m (prepared.missing_sublist.mem hm)
  | edited stored | undiscovered unanswered stored | unmonitored stored | attempted stored
  | moved stored => intro m hm; dsimp only at hm; rw [stored] at hm; exact h m hm

/-- A step that keeps the counts keeps the bound. -/
theorem bounded_step {t : World × List Event} (hc : Consistent t.1.stored.resource.status)
    (h : CountsBounded t) {step : Step} (hkept : CountsKept t.1 step) :
    CountsBounded (journaled t step) := by
  by_cases hunobserved : ∃ discover checkedAt now faults,
      step = .discover discover checkedAt now faults ∧ Unobserved discover t.1.stored.resource
  · -- nothing is observed: the same counts, and no observation in the journal
    obtain ⟨discover, checkedAt, now, faults, rfl, hun⟩ := hunobserved
    have hevents : t.1.events (.discover discover checkedAt now faults) = [] := by
      have hnone : Controller.observed discover t.1.stored.resource now = [] := by
        unfold Controller.observed
        cases hd : discover t.1.stored.resource with
        | error err => rfl
        | ok d => simp [hun d hd]
      simp [World.events, hnone]
    intro m hm
    have hmem : (m.instanceName, m.missingCount) ∈ missingCounts t.1.stored.resource.status := by
      rw [← hkept hun]
      exact List.mem_map.mpr ⟨m, hm, rfl⟩
    obtain ⟨m₀, hm₀, heq⟩ := List.mem_map.mp hmem
    have hbound := h m₀ hm₀
    rw [show m₀.instanceName = m.instanceName from congrArg Prod.fst heq,
      show m₀.missingCount = m.missingCount from congrArg Prod.snd heq] at hbound
    show m.missingCount.toInt ≤ (missed m.instanceName (t.1.events _ ++ t.2)).length
    rw [hevents]
    exact hbound
  · refine (next_move t.1 step).bounded hc h ?_
    rintro discover checkedAt now faults rfl hun
    exact hunobserved ⟨discover, checkedAt, now, faults, rfl, hun⟩

/-- **Only real observations count, unless a failure is papered over.**  Along a run from a new
resource, every failed discovery leaves the counts alone and every count stays within the
observed misses, exactly when no failure is papered over while an instance is missing. -/
theorem missing_counts_iff (name : String) (spec : PgBouncerAuroraSpec) (cluster : Cluster)
    (steps : List Step) :
    Machine.Along journaled
        (fun t step => CountsKept t.1 step ∧ CountsBounded (journaled t step))
        (World.initial name spec cluster, []) steps ↔
      Machine.Along journaled (fun t step => NothingToCount t.1 step)
        (World.initial name spec cluster, []) steps := by
  refine Machine.Along.congr
    (I := fun t => Consistent t.1.stored.resource.status ∧ CountsBounded t) ?_ ?_
    ⟨consistent_empty, by intro m hm; cases hm⟩ steps
  · rintro t step ⟨hc, hb⟩
    rw [← countsKept_iff hc step]
    exact ⟨fun h => h.1, fun h => ⟨h, bounded_step hc hb h⟩⟩
  · rintro t step ⟨hc, -⟩ ⟨-, hb⟩
    exact ⟨(next_move t.1 step).consistent hc, hb⟩

/-- A job whose query fails. -/
def discoverNothing (now : Int) : Step :=
  .discover (fun _ => .ok { trusted := false, reason := "query failed" }) now now []

/-- A failure that is papered over while nothing is missing does no harm. -/
theorem missing_counts_kept_without_missing :
    Machine.Along journaled
      (fun t step => CountsKept t.1 step ∧ CountsBounded (journaled t step))
      (World.initial "db" {} {}, []) [discoverReaders ["x"] 0, discoverNothing (5 * second)] :=
  (missing_counts_iff "db" {} {} [discoverReaders ["x"] 0, discoverNothing (5 * second)]).mpr
    ⟨fun _ => rfl, fun _ => by decide +kernel, trivial⟩

/-- **A failure that counts.**  The instance `x` was discovered, then missed once; then the query
fails, and the stored count is 2. -/
theorem papered_over_failure_counts :
    let t := Machine.run journaled (World.initial "db" {} {}, [])
      [discoverReaders ["x"] 0, discoverReaders [] (5 * second)]
    let t' := journaled t (discoverNothing (10 * second))
    missingCounts t.1.stored.resource.status = [("x", 1)] ∧
      missingCounts t'.1.stored.resource.status = [("x", 2)] ∧
      (missed "x" t'.2).length = 1 ∧ ¬ CountsKept t.1 (discoverNothing (10 * second)) := by
  have hbefore : missingCounts (Machine.run World.next (World.initial "db" {} {})
      [discoverReaders ["x"] 0, discoverReaders [] (5 * second)]).stored.resource.status
      = [("x", 1)] := by decide +kernel
  have hafter : missingCounts (Machine.run World.next (World.initial "db" {} {})
      [discoverReaders ["x"] 0, discoverReaders [] (5 * second),
        discoverNothing (10 * second)]).stored.resource.status = [("x", 2)] := by decide +kernel
  refine ⟨hbefore, hafter, by decide +kernel, fun hkept => ?_⟩
  have hsame := hkept fun d hd => by cases hd; rfl
  exact absurd (hafter.symm.trans (hsame.trans hbefore)) (by decide)

end Controller

end AuroraOperator

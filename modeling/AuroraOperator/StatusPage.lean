/-
# The status page

`internal/statuspage/server.go` keeps one snapshot of all watched resources for `/status` and
`/status.json`.  A ticker refreshes it.  A listing that fails leaves the resources and the summary
of the snapshot as they are, and only its error and its time are new; so the page may show resources
that are older than the time it gives.

* `page_shows_last_listing`: after any attempts the page has exactly the watched resources of the
  last listing that came through, in the order of their names, with a summary that adds up, and
  the error and the time of the last attempt.

What a state on the page says about the operator is the subject of `StatusPage/States.lean`.
-/
import AuroraOperator.Api
import AuroraOperator.WatchNames
import AuroraOperator.Lib.Machine

namespace AuroraOperator

namespace StatusPage

/-! ## 1. One resource -/

/-- The texts of the field `state`. -/
inductive State
  | frozen | degraded | progressing | ready
  deriving DecidableEq, Repr

structure ResourceStatus where
  nameSpace : String
  name : String
  state : State
  generation : Int
  observedGeneration : Int
  topologyHash : Option (Digest (List InstanceTopologyStatus))
  membershipHash : Option (Digest MembershipStatus)
  consecutiveDiscoveryFailures : Int32
  lastDiscoveryTime : Option Int
  lastMonitorTime : Option Int
  lastAppliedTime : Option Int
  lastKnownTopology : List InstanceTopologyStatus
  lastAppliedMembership : MembershipStatus
  serviceSummary : ServiceSummaryStatus
  missingInstances : List MissingInstanceStatus
  instances : List InstanceStatus
  conditions : List Condition

/-- The first condition of a type decides. -/
def conditionStatus : List Condition → ConditionType → ConditionStatus
  | [], _ => .unknown
  | condition :: rest, type =>
    if condition.type = type then condition.status else conditionStatus rest type

def resourceState (resource : PgBouncerAurora) : State :=
  if conditionStatus resource.status.conditions .frozen = .true then .frozen
  else if conditionStatus resource.status.conditions .degraded = .true then .degraded
  else if conditionStatus resource.status.conditions .reconciled = .false then .degraded
  else if resource.status.observedGeneration < resource.generation then .progressing
  else .ready

/-- The lists are cloned in the source, so the page does not share them with the cache. -/
def resourceStatus (resource : PgBouncerAurora) : ResourceStatus :=
  { nameSpace := resource.nameSpace
    name := resource.name
    state := resourceState resource
    generation := resource.generation
    observedGeneration := resource.status.observedGeneration
    topologyHash := resource.status.topologyHash
    membershipHash := resource.status.membershipHash
    consecutiveDiscoveryFailures := resource.status.consecutiveDiscoveryFailures
    lastDiscoveryTime := resource.status.lastDiscoveryTime
    lastMonitorTime := resource.status.lastMonitorTime
    lastAppliedTime := resource.status.lastAppliedTime
    lastKnownTopology := resource.status.lastKnownTopology
    lastAppliedMembership := resource.status.lastAppliedMembership
    serviceSummary := resource.status.serviceSummary
    missingInstances := resource.status.missingInstances
    instances := resource.status.instances
    conditions := resource.status.conditions }

/-! ## 2. The snapshot -/

structure Summary where
  clusters : Int := 0
  writers : Int := 0
  readers : Int := 0
  degraded : Int := 0
  frozen : Int := 0
  readerFallbacks : Int := 0
  discoveryFailureStreak : Int := 0
  deriving DecidableEq

/-- The members of a role in the service summary, or those applied last if that has none. -/
def membersShown (summary : RoleServiceSummaryStatus) (applied : List String) : Int :=
  let members := summary.members.toInt
  if members = 0 ∧ 0 < applied.length then applied.length else members

def ResourceStatus.countsDegraded (resource : ResourceStatus) : Bool :=
  conditionStatus resource.conditions .degraded = .true || resource.state = .degraded

def ResourceStatus.countsFrozen (resource : ResourceStatus) : Bool :=
  conditionStatus resource.conditions .frozen = .true || resource.state = .frozen

def addSummary (summary : Summary) (resource : ResourceStatus) : Summary :=
  { summary with
    writers := summary.writers +
      membersShown resource.serviceSummary.writer resource.lastAppliedMembership.writer
    readers := summary.readers +
      membersShown resource.serviceSummary.reader resource.lastAppliedMembership.reader
    discoveryFailureStreak :=
      summary.discoveryFailureStreak + resource.consecutiveDiscoveryFailures.toInt
    degraded := if resource.countsDegraded then summary.degraded + 1 else summary.degraded
    frozen := if resource.countsFrozen then summary.frozen + 1 else summary.frozen
    readerFallbacks := if resource.serviceSummary.reader.fallbackFromWriter then
      summary.readerFallbacks + 1 else summary.readerFallbacks }

structure Snapshot where
  generatedAt : Int
  nameSpace : String
  watchName : String
  refreshMinIntervalSeconds : Int
  recentWindowSeconds : Int
  summary : Summary := {}
  resources : List ResourceStatus := []
  error : String := ""

/-! ## 3. The server -/

structure Options where
  nameSpace : String := ""
  watchName : String := ""
  refreshMinInterval : Int := 0
  recentWindow : Int := 0

structure Server where
  nameSpace : String
  watchName : String
  refreshMinInterval : Int
  recentWindow : Int
  snapshot : Snapshot

def clampRefreshMinInterval (value : Int) : Int :=
  let value := if value ≤ 0 then 5 * second else value
  if value < 5 * second then 5 * second else value

def clampRecentWindow (value : Int) : Int :=
  let minute := 60 * second
  let value := if value ≤ 0 then minute else value
  if value < minute then minute else if 1440 * minute < value then 1440 * minute else value

/-- `int64(d.Seconds())`, without the rounding of the float, which starts at months. -/
def wholeSeconds (d : Int) : Int := d / second

/-- A snapshot with nothing but the settings of the server. -/
def blank (generatedAt : Int) (nameSpace watchName : String)
    (refreshMinInterval recentWindow : Int) : Snapshot :=
  { generatedAt := generatedAt, nameSpace := nameSpace, watchName := watchName
    refreshMinIntervalSeconds := wholeSeconds refreshMinInterval
    recentWindowSeconds := wholeSeconds recentWindow }

def newServer (options : Options) (now : Int) : Server :=
  let nameSpace := trimSpace options.nameSpace
  let watchName := trimSpace options.watchName
  let refreshMinInterval := clampRefreshMinInterval options.refreshMinInterval
  let recentWindow := clampRecentWindow options.recentWindow
  { nameSpace := nameSpace, watchName := watchName
    refreshMinInterval := refreshMinInterval, recentWindow := recentWindow
    snapshot := { blank now nameSpace watchName refreshMinInterval recentWindow with
      error := "status snapshot not generated yet" } }

/-- The same loop as the scheduler's. -/
def matchesWatchName (watchName name : String) : Bool := Manager.matchesWatchNames watchName name

def ResourceStatus.key (resource : ResourceStatus) : String :=
  resource.nameSpace ++ "/" ++ resource.name

/-- The loop over the items of a listing. -/
def collect (watchName : String) (items : List PgBouncerAurora) (snapshot : Snapshot) : Snapshot :=
  items.foldl (fun snapshot resource =>
    if !matchesWatchName watchName resource.name then snapshot
    else
      let status := resourceStatus resource
      { snapshot with
        resources := snapshot.resources ++ [status]
        summary := addSummary snapshot.summary status }) snapshot

def Server.setError (s : Server) (now : Int) (message : String) : Server :=
  { s with snapshot :=
    { blank now s.nameSpace s.watchName s.refreshMinInterval s.recentWindow with
      summary := s.snapshot.summary, resources := s.snapshot.resources, error := message } }

/-- A call of `Refresh`: when, and what the reader answers; a server may have no reader. -/
structure Attempt where
  now : Int
  listed : Option (Except String (List PgBouncerAurora))

def Server.refresh (s : Server) (attempt : Attempt) : Server :=
  match attempt.listed with
  | none => s.setError attempt.now "status reader is not configured"
  | some (.error err) => s.setError attempt.now err
  | some (.ok items) =>
    let snapshot := collect s.watchName items
      (blank attempt.now s.nameSpace s.watchName s.refreshMinInterval s.recentWindow)
    -- the keys of a listing are distinct, so it does not matter how ties are sorted
    let resources := snapshot.resources.insertionSort fun left right => left.key ≤ right.key
    { s with snapshot := { snapshot with
      resources := resources
      summary := { snapshot.summary with clusters := resources.length } } }

/-! ## 4. One listing -/

/-- The summary that a list of entries should have. -/
def totals (entries : List ResourceStatus) : Summary :=
  { clusters := entries.length
    writers := (entries.map fun entry =>
      membersShown entry.serviceSummary.writer entry.lastAppliedMembership.writer).sum
    readers := (entries.map fun entry =>
      membersShown entry.serviceSummary.reader entry.lastAppliedMembership.reader).sum
    degraded := entries.countP (·.countsDegraded)
    frozen := entries.countP (·.countsFrozen)
    readerFallbacks := entries.countP (·.serviceSummary.reader.fallbackFromWriter)
    discoveryFailureStreak := (entries.map (·.consecutiveDiscoveryFailures.toInt)).sum }

theorem totals_perm {entries entries' : List ResourceStatus} (h : entries.Perm entries') :
    totals entries = totals entries' := by
  simp only [totals, h.length_eq, (h.map _).sum_eq, h.countP_eq]

/-- One more entry at the end. -/
theorem addSummary_totals (entries : List ResourceStatus) (entry : ResourceStatus) :
    addSummary { totals entries with clusters := 0 } entry
      = { totals (entries ++ [entry]) with clusters := 0 } := by
  simp only [addSummary, totals, List.map_append, List.sum_append, List.countP_append,
    List.map_cons, List.map_nil, List.sum_singleton, List.countP_singleton, Nat.cast_add,
    Nat.cast_ite, Nat.cast_one, Nat.cast_zero, Summary.mk.injEq, true_and]
  refine ⟨?_, ?_, ?_⟩ <;> split <;> simp

/-- The entries of a listing, in its order. -/
def entriesOf (watchName : String) (items : List PgBouncerAurora) : List ResourceStatus :=
  (items.filter fun resource => matchesWatchName watchName resource.name).map resourceStatus

/-- The loop carries the totals of what it has collected; only the number of clusters is filled in
after it. -/
theorem collect_eq (watchName : String) (items : List PgBouncerAurora) (snapshot : Snapshot)
    (h : snapshot.summary = { totals snapshot.resources with clusters := 0 }) :
    collect watchName items snapshot
      = { snapshot with
          resources := snapshot.resources ++ entriesOf watchName items
          summary := { totals (snapshot.resources ++ entriesOf watchName items) with
            clusters := 0 } } := by
  induction items generalizing snapshot with
  | nil => simp [collect, entriesOf, ← h]
  | cons resource items ih =>
    unfold collect at ih ⊢
    rw [List.foldl_cons]
    by_cases hwatched : matchesWatchName watchName resource.name = true
    · have hnext := addSummary_totals snapshot.resources (resourceStatus resource)
      rw [← h] at hnext
      rw [if_neg (by simp [hwatched]), ih _ hnext]
      simp [entriesOf, hwatched]
    · rw [if_pos (by simpa using hwatched), ih _ h]
      simp [entriesOf, hwatched]

/-! ## 5. Any attempts -/

/-- The items of the last listing that came through; none before the first. -/
def lastListing (attempts : List Attempt) : List PgBouncerAurora :=
  (attempts.reverse.findSome? fun attempt => attempt.listed.bind Except.toOption).getD []

theorem lastListing_concat (attempts : List Attempt) (attempt : Attempt) :
    lastListing (attempts ++ [attempt])
      = (attempt.listed.bind Except.toOption).getD (lastListing attempts) := by
  rw [lastListing, List.reverse_append, List.reverse_singleton, List.singleton_append,
    List.findSome?_cons]
  cases attempt.listed.bind Except.toOption <;> rfl

def Attempt.error (attempt : Attempt) : String :=
  match attempt.listed with
  | none => "status reader is not configured"
  | some (.error err) => err
  | some (.ok _) => ""

/-- What the page should be after some attempts. -/
structure Shows (options : Options) (start : Int) (attempts : List Attempt) (s : Server) :
    Prop where
  watchName : s.watchName = trimSpace options.watchName
  resources : s.snapshot.resources.Perm (entriesOf s.watchName (lastListing attempts))
  sorted : s.snapshot.resources.Pairwise fun left right => left.key ≤ right.key
  summary : s.snapshot.summary = totals s.snapshot.resources
  error : s.snapshot.error
    = (attempts.getLast?.map Attempt.error).getD "status snapshot not generated yet"
  generatedAt : s.snapshot.generatedAt = (attempts.getLast?.map Attempt.now).getD start

theorem shows_newServer (options : Options) (start : Int) :
    Shows options start [] (newServer options start) where
  watchName := rfl
  resources := List.Perm.refl []
  sorted := List.Pairwise.nil
  summary := rfl
  error := rfl
  generatedAt := rfl

section Attempts

variable {options : Options} {start : Int} {attempts : List Attempt} {s : Server}

theorem Shows.setError (h : Shows options start attempts s) {attempt : Attempt}
    (hfailed : attempt.listed.bind Except.toOption = none) :
    Shows options start (attempts ++ [attempt]) (s.setError attempt.now attempt.error) where
  watchName := h.watchName
  resources := by
    rw [lastListing_concat, hfailed]
    exact h.resources
  sorted := h.sorted
  summary := h.summary
  error := by simp [Server.setError]
  generatedAt := by simp [Server.setError, blank]

theorem Shows.refresh (h : Shows options start attempts s) (attempt : Attempt) :
    Shows options start (attempts ++ [attempt]) (s.refresh attempt) := by
  obtain ⟨now, listed⟩ := attempt
  rcases listed with _ | err | items
  · exact h.setError rfl
  · exact h.setError rfl
  · have hcollect := collect_eq s.watchName items
      (blank now s.nameSpace s.watchName s.refreshMinInterval s.recentWindow) rfl
    have hperm := List.perm_insertionSort
      (fun left right : ResourceStatus => left.key ≤ right.key) (entriesOf s.watchName items)
    have hrefresh : s.refresh ⟨now, some (.ok items)⟩ = { s with snapshot :=
        { blank now s.nameSpace s.watchName s.refreshMinInterval s.recentWindow with
          resources := (entriesOf s.watchName items).insertionSort
            fun left right => left.key ≤ right.key
          summary := totals ((entriesOf s.watchName items).insertionSort
            fun left right => left.key ≤ right.key) } } := by
      rw [Server.refresh]
      dsimp only
      rw [hcollect, totals_perm hperm]
      simp [blank, totals]
    rw [hrefresh]
    refine ⟨h.watchName, by rw [lastListing_concat]; exact hperm, ?_, rfl, by simp [Attempt.error, blank],
      by simp [blank]⟩
    exact List.pairwise_insertionSort _ _

theorem shows_run (options : Options) (start : Int) (attempts : List Attempt) :
    Shows options start attempts (Machine.run Server.refresh (newServer options start) attempts) := by
  induction attempts using List.reverseRecOn with
  | nil => exact shows_newServer options start
  | append_singleton attempts attempt ih =>
    rw [Machine.run_append]
    exact ih.refresh attempt

end Attempts

/-- The server trims the list of names that the scheduler gets as it is. -/
theorem matchesWatchName_trimSpace (watchName name : String) :
    matchesWatchName (trimSpace watchName) name = Manager.matchesWatchNames watchName name := by
  unfold matchesWatchName Manager.matchesWatchNames
  rw [trimSpace_idem]

/-- **The page shows the last listing.**  After any attempts, its entries are those of the
resources that the scheduler works on, as they were in the last listing that came through, sorted by
name, and the summary is theirs.  The error and the time are those of the last attempt, whether it
came through or not. -/
theorem page_shows_last_listing (options : Options) (start : Int) (attempts : List Attempt) :
    let page := (Machine.run Server.refresh (newServer options start) attempts).snapshot
    page.resources.Perm (((lastListing attempts).filter fun resource =>
        Manager.matchesWatchNames options.watchName resource.name).map resourceStatus) ∧
      page.resources.Pairwise (fun left right => left.key ≤ right.key) ∧
      page.summary = totals page.resources ∧
      page.error
        = (attempts.getLast?.map Attempt.error).getD "status snapshot not generated yet" ∧
      page.generatedAt = (attempts.getLast?.map Attempt.now).getD start := by
  intro page
  have h := shows_run options start attempts
  refine ⟨?_, h.sorted, h.summary, h.error, h.generatedAt⟩
  have hentries : entriesOf (trimSpace options.watchName) (lastListing attempts)
      = ((lastListing attempts).filter fun resource =>
          Manager.matchesWatchNames options.watchName resource.name).map resourceStatus := by
    simp only [entriesOf, matchesWatchName_trimSpace]
  rw [← hentries, ← h.watchName]
  exact h.resources

end StatusPage

end AuroraOperator

/-
# The worker that keeps the RDS metadata fresh

`internal/controller/rds_metadata_worker.go`.  In `CachedOnly` mode nobody else calls AWS: the worker
lists the watched resources on every tick, and refreshes each of their clusters once.  A refresh that
fails leaves the cache as it is, and the cache forgets a refresh after the time that `main.go` makes
out of the interval of the worker.

* `metadata_never_runs_dry`: as long as refreshes do not fail too often in a row for this time, every
  `Resolve` gets what the last refresh that succeeded has found, and none finds the cache empty, in
  any interleaving with other calls and with what callers do to the maps they were given.

How often is too often depends on the interval and on how long a round takes.  If a round takes at
most half the interval, one round in two may fail with any interval, and three in four with the
default one.  Rounds that take longer than the interval lose ticks, and follow one another without a
pause: with seven clusters that each take the ten seconds they are given, one round in two may fail.
-/
import AuroraOperator.Discovery.Cache
import AuroraOperator.WatchNames
import AuroraOperator.Lib.Ticker

namespace AuroraOperator

namespace Discovery

namespace Rds

open Ticker (Lap)

/-! ## 1. The worker -/

structure RDSMetadataWorker where
  watchName : String := ""
  interval : Int := 0

/-- The method `interval` of the source. -/
def RDSMetadataWorker.period (w : RDSMetadataWorker) : Int :=
  if 0 < w.interval then w.interval else 60 * second

/-- The clusters of the watched resources, from a listing. -/
def RDSMetadataWorker.clusterNames (w : RDSMetadataWorker) (items : List PgBouncerAurora) :
    List String :=
  let named := (items.filter fun resource => Manager.matchesWatchNames w.watchName resource.name).map
    fun resource => trimSpace resource.spec.discovery.clusterName
  -- the source collects them in a set and sorts its keys
  sortStrings (named.filter (· ≠ "")).dedup

/-- A call of `refresh`: what the listing answers, when the refresh of a cluster reads the clock and
what it meets, and how many clusters it gets to, because the context may be cancelled. -/
structure Round where
  lap : Lap
  listed : Except String (List PgBouncerAurora)
  visit : String → Int × Answers
  reached : Nat

/-- The clusters that a round gets to, in their order. -/
def Round.visited (w : RDSMetadataWorker) (round : Round) : List String :=
  match round.listed with
  | .error _ => []
  | .ok items => (w.clusterNames items).take round.reached

def Round.calls (w : RDSMetadataWorker) (round : Round) : List Call :=
  (round.visited w).map fun cluster =>
    .refresh cluster (round.visit cluster).1 (round.visit cluster).2

/-- What a round finds out about a cluster. -/
def Round.found (w : RDSMetadataWorker) (c : String) (round : Round) : Option (Int × Metadata) :=
  if c ∈ round.visited w then
    (describe c (round.visit c).2).toOption.map fun instances =>
      ((round.visit c).1, metadataOf instances)
  else none

/-- `main.go` sets the time that the resolver remembers a refresh. -/
def rdsMetadataCacheTTL (refreshInterval : Int) : Int :=
  if 3 * refreshInterval < 300 * second then 300 * second else 3 * refreshInterval

def Call.isRefresh : Call → Bool
  | .refresh .. => true
  | _ => false

/-! ## 2. One round -/

section Rounds

variable (w : RDSMetadataWorker)

theorem mem_clusterNames {items : List PgBouncerAurora} {c : String} :
    c ∈ w.clusterNames items ↔ c ≠ "" ∧ ∃ resource ∈ items,
      Manager.matchesWatchNames w.watchName resource.name = true ∧
        trimSpace resource.spec.discovery.clusterName = c := by
  simp only [RDSMetadataWorker.clusterNames, mem_sortStrings, List.mem_dedup, List.mem_filter,
    List.mem_map, decide_eq_true_eq]
  constructor
  · rintro ⟨⟨resource, ⟨hitem, hwatched⟩, hname⟩, hne⟩
    exact ⟨hne, resource, hitem, hwatched, hname⟩
  · rintro ⟨hne, resource, hitem, hwatched, hname⟩
    exact ⟨⟨resource, ⟨hitem, hwatched⟩, hname⟩, hne⟩

/-- No cluster is refreshed twice in a round, and none under a name with blanks around it. -/
theorem Round.visited_spec (round : Round) :
    (round.visited w).Nodup ∧ ∀ c ∈ round.visited w, c ≠ "" ∧ trimSpace c = c := by
  unfold Round.visited
  split
  · exact ⟨List.nodup_nil, fun c hc => absurd hc List.not_mem_nil⟩
  · rename_i items _
    constructor
    · refine List.Nodup.sublist (List.take_sublist _ _) ?_
      rw [RDSMetadataWorker.clusterNames, (sortStrings_perm _).nodup_iff]
      exact List.nodup_dedup _
    · intro c hc
      obtain ⟨hne, resource, -, -, rfl⟩ := (mem_clusterNames w).mp (List.mem_of_mem_take hc)
      exact ⟨hne, trimSpace_idem _⟩

/-- The calls of a round refresh a cluster at most once. -/
theorem Round.refreshed_calls (round : Round) (c : String) :
    (round.calls w).filterMap (Call.refreshed c) = (round.found w c).toList := by
  obtain ⟨hnodup, hnames⟩ := round.visited_spec w
  unfold Round.calls Round.found
  generalize round.visited w = clusters at hnodup hnames
  induction clusters with
  | nil => rfl
  | cons first clusters ih =>
    obtain ⟨hfirst, hrest⟩ := List.nodup_cons.mp hnodup
    obtain ⟨hne, htrim⟩ := hnames first List.mem_cons_self
    have hclusters := ih hrest fun c hc => hnames c (List.mem_cons_of_mem _ hc)
    rw [List.map_cons, List.filterMap_cons, hclusters]
    by_cases hc : first = c
    · subst hc
      rw [if_neg hfirst, if_pos List.mem_cons_self, Call.refreshed, if_pos ⟨htrim, hne⟩]
      cases (describe first (round.visit first).2).toOption <;> rfl
    · have hiff : c ∈ first :: clusters ↔ c ∈ clusters := by simp [Ne.symm hc]
      rw [Call.refreshed, if_neg (by rw [htrim]; exact fun h => hc h.1)]
      simp only [hiff]

theorem Round.filter_calls (round : Round) :
    (round.calls w).filter Call.isRefresh = round.calls w := by
  rw [List.filter_eq_self]
  intro call hcall
  obtain ⟨cluster, -, rfl⟩ := List.mem_map.mp hcall
  rfl

end Rounds

/-! ## 3. Whole histories -/

/-- A history of calls, in which the refreshes are those of the worker: of its rounds so far, and
of the current one as far as it has come.  No round takes longer than `lasting`. -/
structure Worked (w : RDSMetadataWorker) (lasting : Int) (rounds : List Round) (current : Round)
    (calls : List Call) : Prop where
  refreshes : calls.filter Call.isRefresh = (rounds ++ [current]).flatMap (Round.calls w)
  turning : Ticker.Turning w.period ((rounds ++ [current]).map Round.lap)
  lasts : ∀ round ∈ rounds ++ [current], round.lap.ended ≤ round.lap.started + lasting
  -- a refresh reads the clock after its round has started
  visits : ∀ round ∈ rounds ++ [current], ∀ c, round.lap.started ≤ (round.visit c).1

section Histories

variable {w : RDSMetadataWorker} {lasting : Int} {rounds : List Round} {current : Round}
  {calls : List Call}

theorem period_pos (w : RDSMetadataWorker) : 0 < w.period := by
  unfold RDSMetadataWorker.period
  split
  · assumption
  · decide

/-- The last refresh is found by going back through the rounds. -/
theorem Worked.lastRefresh (h : Worked w lasting rounds current calls) (c : String) :
    lastRefresh c calls = (rounds ++ [current]).reverse.findSome? (Round.found w c) := by
  have honly : calls.filterMap (Call.refreshed c)
      = (calls.filter Call.isRefresh).filterMap (Call.refreshed c) := by
    rw [List.filterMap_filter]
    refine List.filterMap_congr fun call _ => ?_
    cases call <;> rfl
  have hrounds : ((rounds ++ [current]).flatMap (Round.calls w)).filterMap (Call.refreshed c)
      = (rounds ++ [current]).filterMap (Round.found w c) := by
    generalize rounds ++ [current] = all
    induction all with
    | nil => rfl
    | cons round all ih =>
      rw [List.flatMap_cons, List.filterMap_append, ih, Round.refreshed_calls, List.filterMap_cons]
      cases round.found w c <;> rfl
  rw [Rds.lastRefresh, honly, h.refreshes, hrounds, ← List.head?_reverse, ← List.filterMap_reverse,
    List.head?_filterMap]

theorem Round.found_time {round : Round} {c : String} {start : Int} {metadata : Metadata}
    (h : round.found w c = some (start, metadata)) : start = (round.visit c).1 := by
  unfold Round.found at h
  split at h
  · obtain ⟨instances, -, heq⟩ := Option.map_eq_some_iff.mp h
    exact (congrArg Prod.fst heq).symm
  · cases h

/-- Between two successes there are not too many failures. -/
theorem failures_le {p : Round → Prop} {allowed : Nat}
    (hoften : ∀ window, window <:+: rounds → window.length = allowed + 1 →
      ∃ round ∈ window, p round)
    {before failed : List Round} {good : Round} (hsplit : rounds = before ++ good :: failed)
    (hfailed : ∀ round ∈ failed, ¬ p round) : failed.length ≤ allowed := by
  by_contra hmany
  have hinfix : failed.take (allowed + 1) <:+: rounds := by
    rw [hsplit]
    exact (List.take_prefix _ _).isInfix.trans
      (List.infix_append_of_infix_right (List.suffix_cons good failed).isInfix)
  obtain ⟨round, hround, hp⟩ := hoften _ hinfix (List.length_take_of_le (by omega))
  exact hfailed round (List.mem_of_mem_take hround) hp

/-- **The last success has not expired.** -/
theorem Worked.unexpired (h : Worked w lasting rounds current calls) {allowed : Nat}
    (hallowed : (allowed + 1) * max w.period lasting + 2 * lasting ≤ rdsMetadataCacheTTL w.period)
    {c : String}
    (hoften : ∀ window, window <:+: rounds → window.length = allowed + 1 →
      ∃ round ∈ window, round.found w c ≠ none)
    {before after : List Round} {round : Round}
    (hsplit : rounds ++ [current] = before ++ round :: after) {start : Int} {metadata : Metadata}
    (hfound : round.found w c = some (start, metadata))
    (hafter : ∀ other ∈ after, other.found w c = none) {now : Int}
    (hnow : now ≤ current.lap.ended) : now ≤ start + rdsMetadataCacheTTL w.period := by
  have hperiod := period_pos w
  have hround : round ∈ rounds ++ [current] := by rw [hsplit]; simp
  have hstart : round.lap.started ≤ start := by
    rw [Round.found_time hfound]
    exact h.visits round hround c
  have hcurrent := h.lasts current (by simp)
  have hlasting : 0 ≤ lasting := by
    have := current.lap.forward
    omega
  have hgap : 0 ≤ ((allowed : Int) + 1) * max w.period lasting := by positivity
  rcases List.eq_nil_or_concat after with rfl | ⟨failed, last, rfl⟩
  · -- the current round itself
    obtain ⟨-, hlast⟩ := List.append_inj' hsplit rfl
    cases hlast
    omega
  · have hboth : rounds ++ [current] = (before ++ round :: failed) ++ [last] := by
      rw [hsplit]
      simp
    obtain ⟨hrounds, hlast⟩ := List.append_inj' hboth rfl
    cases hlast
    have hfew : failed.length ≤ allowed := failures_le hoften hrounds fun other hother => by
      simpa using hafter other (by simp [hother])
    have hturning : Ticker.Turning w.period
        (before.map Round.lap ++ round.lap :: (failed.map Round.lap ++ [current.lap])) := by
      simpa [hrounds] using h.turning
    have hlasts : ∀ lap ∈ before.map Round.lap ++ round.lap :: failed.map Round.lap,
        lap.ended ≤ lap.started + lasting := by
      intro lap hlap
      have hmem : lap ∈ rounds.map Round.lap := by simpa [hrounds] using hlap
      obtain ⟨other, hother, rfl⟩ := List.mem_map.mp hmem
      exact h.lasts other (List.mem_append_left _ hother)
    have hlate := hturning.start_le hperiod hlasts
    have hsteps : ((failed.length : Int) + 1) * max w.period lasting
        ≤ (allowed + 1) * max w.period lasting := by
      gcongr
    rw [List.length_map] at hlate
    omega

end Histories

/-- What a `Resolve` answers while the last refresh is remembered. -/
theorem answer_unexpired {r : Resolver} (hclient : r.client = true) (hcached : r.cachedOnly = true)
    {resource : PgBouncerAurora} (hcluster : clusterNameOf (some resource) ≠ "")
    {calls : List Call} {now : Int} (htimes : InOrder calls now) {start : Int} {metadata : Metadata}
    (hlast : lastRefresh (clusterNameOf (some resource)) calls = some (start, metadata))
    (hle : now ≤ start + r.ttl) (instanceNames : List String) (later : Int) (answers : Answers) :
    ∃ answer, r.answer calls resource instanceNames now later answers = .ok answer ∧ ∀ name,
      (Reappeared resource instanceNames name → answer[name]? = none) ∧
      (¬ Reappeared resource instanceNames name → answer[name]? = metadata[name]?) := by
  refine ⟨_, answer_eq hclient hcached hcluster htimes .., fun name => ?_⟩
  rw [getElem?_foldl_erase, hlast, unexpired, if_pos hle]
  by_cases hname : name = ""
  · obtain ⟨instances, rfl⟩ := lastRefresh_metadata hlast
    rw [hname, metadataOf_empty]
    simp
  · rw [← mem_reappearedInstanceNames hname]
    exact ⟨fun h => if_pos h, fun h => if_neg h⟩

/-- **The metadata never runs dry.**  Let some round have found the cluster of a resource, and let
no more than `allowed` rounds in a row fail to.  If that many intervals and one more, or as many
rounds if they are longer, and the length of two rounds, are within the time that the cache
remembers, then every `Resolve` up to the end of the current round answers from the last round that
has found the cluster. -/
theorem metadata_never_runs_dry (w : RDSMetadataWorker) (r : Resolver) (hclient : r.client = true)
    (hcached : r.cachedOnly = true) (httl : r.cacheTTL = rdsMetadataCacheTTL w.period)
    (lasting : Int) (rounds : List Round) (current : Round) (calls : List Call)
    (hworked : Worked w lasting rounds current calls) (resource : PgBouncerAurora)
    (hcluster : clusterNameOf (some resource) ≠ "") (allowed : Nat)
    (hallowed : (allowed + 1) * max w.period lasting + 2 * lasting ≤ rdsMetadataCacheTTL w.period)
    (honce : ∃ round ∈ rounds, round.found w (clusterNameOf (some resource)) ≠ none)
    (hoften : ∀ window, window <:+: rounds → window.length = allowed + 1 →
      ∃ round ∈ window, round.found w (clusterNameOf (some resource)) ≠ none)
    (instanceNames : List String) (now later : Int) (answers : Answers)
    (htimes : InOrder calls now) (hnow : now ≤ current.lap.ended) :
    ∃ before round after start metadata answer, rounds ++ [current] = before ++ round :: after ∧
      round.found w (clusterNameOf (some resource)) = some (start, metadata) ∧
      (∀ other ∈ after, other.found w (clusterNameOf (some resource)) = none) ∧
      r.answer calls resource instanceNames now later answers = .ok answer ∧ ∀ name,
        (Reappeared resource instanceNames name → answer[name]? = none) ∧
        (¬ Reappeared resource instanceNames name → answer[name]? = metadata[name]?) := by
  have hlast := hworked.lastRefresh (clusterNameOf (some resource))
  cases hfind : (rounds ++ [current]).reverse.findSome?
      (Round.found w (clusterNameOf (some resource))) with
  | none =>
    obtain ⟨round, hround, hfound⟩ := honce
    exact absurd (List.findSome?_eq_none_iff.mp hfind round (by simp [hround])) hfound
  | some found =>
    obtain ⟨start, metadata⟩ := found
    obtain ⟨after, round, before, hreverse, hfound, hafter⟩ := List.findSome?_eq_some_iff.mp hfind
    have hsplit : rounds ++ [current] = before.reverse ++ round :: after.reverse := by
      rw [← List.reverse_reverse (rounds ++ [current]), hreverse]
      simp
    have hnone : ∀ other ∈ after.reverse,
        other.found w (clusterNameOf (some resource)) = none := by
      simpa using hafter
    have hle := hworked.unexpired hallowed hoften hsplit hfound hnone hnow
    have hremembered : r.ttl = rdsMetadataCacheTTL w.period := by
      have hpos : 0 < rdsMetadataCacheTTL w.period := by
        unfold rdsMetadataCacheTTL second
        split <;> omega
      rw [Resolver.ttl, httl, if_pos hpos]
    obtain ⟨answer, hanswer, hnames⟩ := answer_unexpired hclient hcached hcluster htimes
      (hlast.trans hfind) (hremembered ▸ hle) instanceNames later answers
    exact ⟨_, round, _, start, metadata, answer, hsplit, hfound, hnone, hanswer, hnames⟩

/-- A round that lists one resource, and takes more than twice as long as the interval. -/
def longRoundAt (started : Int) (answers : Answers) : Round where
  lap := { started := started, ended := started + 70 * second, forward := by unfold second; omega }
  listed := .ok [billing "a"]
  visit := fun _ => (started, answers)
  reached := 1

def unavailable : Answers := { found [] with clusters := .error "throttled" }

/-- The second round fails.  A tick is lost during it, and the third starts when it is over. -/
def longRounds : List Round := [longRoundAt 0 (found ["a", "b"]), longRoundAt (100 * second) unavailable]

theorem longRounds_answered :
    ∃ answer, Resolver.answer { client := true, cachedOnly := true, cacheTTL := 300 * second }
        (longRounds.flatMap (Round.calls { interval := 30 * second })) (billing "a") ["a", "b"]
        (240 * second) (240 * second) unavailable = .ok answer ∧
      answer["a"]? = none ∧ answer["b"]? = some { instanceName := "b" } := by
  let w : RDSMetadataWorker := { interval := 30 * second }
  let current : Round := { longRoundAt (170 * second) unavailable with reached := 0 }
  have hworked : Worked w (70 * second) longRounds current (longRounds.flatMap (Round.calls w)) := by
    refine ⟨?_, by decide +kernel, by decide +kernel, ?_⟩
    · simp only [longRounds, List.flatMap_cons, List.flatMap_nil, List.filter_append,
        Round.filter_calls, List.cons_append, List.nil_append]
      simp [Round.calls, Round.visited, current, longRoundAt]
    · intro round hround c
      simp only [longRounds, List.mem_append, List.mem_cons, List.not_mem_nil, or_false] at hround
      rcases hround with (rfl | rfl) | rfl <;> exact le_refl _
  have honly : ∀ round ∈ longRounds ++ [current],
      (round.found w "billing").all (fun f => f.2["b"]? = some { instanceName := "b" }) = true := by
    decide +kernel
  have hgood : (longRoundAt 0 (found ["a", "b"])).found w "billing" ≠ none :=
    Option.isSome_iff_ne_none.mp (by decide +kernel)
  obtain ⟨before, round, after, start, metadata, answer, hsplit, hfound, -, hanswer, hnames⟩ :=
    metadata_never_runs_dry w { client := true, cachedOnly := true, cacheTTL := 300 * second }
      rfl rfl (by decide) (70 * second) longRounds current _ hworked (billing "a")
      (by decide +kernel) 1 (by decide) ⟨_, List.mem_cons_self, hgood⟩
      (fun window hwindow hlength => by
        rw [hwindow.eq_of_length hlength]
        exact ⟨_, List.mem_cons_self, hgood⟩) ["a", "b"] (240 * second) (240 * second) unavailable
      (by unfold InOrder; decide +kernel) (by decide)
  refine ⟨answer, hanswer, (hnames "a").1 ?_, ((hnames "b").2 ?_).trans ?_⟩
  · exact ⟨⟨"a", by simp, by decide +kernel⟩, { instanceName := "a" }, by simp [billing],
      by decide +kernel⟩
  · rintro ⟨-, missing, hmissing, htrim⟩
    obtain rfl := List.mem_singleton.mp hmissing
    exact absurd htrim (by decide +kernel)
  · have hfrom := honly round (by rw [hsplit]; simp)
    rw [show round.found w "billing" = some (start, metadata) from hfound] at hfrom
    simpa using hfrom

end Rds

end Discovery

end AuroraOperator

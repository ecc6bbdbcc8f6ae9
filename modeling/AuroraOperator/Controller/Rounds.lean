/-
# How many rounds it takes to converge

`membership_converges` counts commits.  Here is a schedule under which there are some: in every
round both jobs run, when they are due, and then a Reconcile; no call fails.  Nothing else is asked
of the cluster, which may be any other at the beginning of each round.  As in `Convergence`, what
happened before is a run in which no jobs overlap.

Every round is then one more discovery, one more probe and one more Reconcile, and so there are
enough of them after as many rounds as the larger of the two thresholds (`rounds_converge`).
-/
import AuroraOperator.Controller.Convergence
import AuroraOperator.Controller.Standalone

namespace AuroraOperator

namespace Controller

open Discovery Planner Render Program

/-! ## 1. Rounds -/

/-- What the jobs of a round are told, the time, and the cluster as it is by then. -/
structure Round where
  discover : Discover
  check : Check
  cluster : Cluster
  time : Int

def Round.jobs (r : Round) : List Step :=
  [.environment r.cluster, .discover r.discover r.time r.time [],
    .monitor r.check r.time r.time []]

def Round.steps (r : Round) : List Step := r.jobs ++ [.reconcile r.time []]

/-- Aurora is at rest. -/
structure Round.Good (spec : PgBouncerAuroraSpec) (instances : List InstanceObservation)
    (r : Round) : Prop where
  discovers : ∀ resource, ∃ discovery, r.discover resource = .ok discovery ∧
    discovery.trusted = true ∧ discovery.instances = instances
  probes : ∀ resource, ∃ health, r.check resource instances = .ok health ∧
    ∀ o ∈ instances, instanceDisabled spec.pgbouncer o.name = false →
      rawHealthy health o.name = true

/-- Both jobs are due. -/
structure DueAt (time : Int) (resource : PgBouncerAurora) : Prop where
  discovery : ∀ last ∈ resource.status.lastDiscoveryTime, last + discoveryInterval resource ≤ time
  monitor : ∀ last ∈ resource.status.lastMonitorTime, last + monitorInterval resource ≤ time

theorem boundedCheckInterval_pos (value fallback : Int) : 0 < boundedCheckInterval value fallback := by
  have hpos : 0 < minCheckInterval := by decide
  unfold boundedCheckInterval
  dsimp only
  split_ifs <;> omega

section Due

variable {last : Option Int} {interval time : Int}

theorem intervalPassed_of_le (h : ∀ t ∈ last, t + interval ≤ time) :
    intervalPassed last interval time = true := by
  cases last with
  | none => rfl
  | some t =>
    have hle := h t rfl
    simp only [intervalPassed, decide_eq_true_eq]
    omega

theorem not_isNewer_of_le (hinterval : 0 < interval) (h : ∀ t ∈ last, t + interval ≤ time) :
    isNewer last time = false := by
  cases last with
  | none => rfl
  | some t =>
    have hle := h t rfl
    simp only [isNewer, Option.any_some, decide_eq_false_iff_not]
    omega

theorem wholeSeconds_le (t : Int) : wholeSeconds t ≤ t := by
  simp only [wholeSeconds, second]
  omega

end Due

/-! ## 2. The jobs of a round -/

section Jobs

variable {w : World} {instances : List InstanceObservation} {r : Round}

/-- A discovery job that is due is committed. -/
theorem Round.Good.discovered {spec : PgBouncerAuroraSpec} (h : r.Good spec instances)
    (hdue : DueAt r.time w.stored.resource) :
    let step : Step := .discover r.discover r.time r.time []
    answer (runDiscoveryJob r.discover r.time r.time) (w.meet []) = true ∧
      (w.next step).stored.resource.status.lastDiscoveryTime = some (wholeSeconds r.time) ∧
      (w.next step).stored.resource.status.lastMonitorTime
        = w.stored.resource.status.lastMonitorTime ∧
      (w.next step).stored.resource.status.topologyHash
        = some (hashObject (topologyStatus instances)) := by
  intro step
  obtain ⟨discovery, hok, ht, hinstances⟩ := h.discovers w.stored.resource
  have hpos : 0 < discoveryInterval w.stored.resource := boundedCheckInterval_pos _ _
  have htake : takeDiscovery r.discover r.time r.time w.stored.resource
      = some (discoveryWork r.discover w.stored.resource r.time) :=
    if_pos (by rw [discoveryDue, intervalPassed_of_le hdue.discovery, Bool.or_true])
  obtain ⟨status, hcommit⟩ := Option.isSome_iff_exists.mp
    (discoveryCommit_eq_some.mpr (not_isNewer_of_le hpos hdue.discovery))
  have hanswer : answer (runDiscoveryJob r.discover r.time r.time) (w.meet []) = true :=
    answer_runJob rfl htake hcommit
  refine ⟨hanswer, ?_⟩
  rcases discover_cases w r.discover r.time r.time [] with
    ⟨-, -, status', hcommit', hnext⟩ | ⟨hno, -⟩
  · rw [discoveryWork_ok hok ht] at hcommit'
    rw [hnext, StoredResource.updateStatus_status]
    refine ⟨?_, ?_, ?_⟩
    · rw [Status.marshal_lastDiscoveryTime, (discoveryCommit_frame hcommit').2.2.2.2.1]
      rfl
    · show status'.lastMonitorTime.map wholeSeconds = _
      rw [discoveryCommit_lastMonitorTime hcommit']
      exact congrArg Status.lastMonitorTime w.stored.canonical
    · rw [Status.marshal_topologyHash, (discoveryCommit_trusted hcommit' ht).2.2]
      exact congrArg (fun l => some (hashObject (topologyStatus l))) hinstances
  · rw [hanswer] at hno
    cases hno

/-- So is a monitor job, when the topology is the one that it works on. -/
theorem Round.monitored (hdue : ∀ last ∈ w.stored.resource.status.lastMonitorTime,
      last + monitorInterval w.stored.resource ≤ r.time)
    (hcached : (cachedDiscovery w.stored.resource).trusted = true ∧
      (cachedDiscovery w.stored.resource).instances = instances)
    (hhash : w.stored.resource.status.topologyHash
      = some (hashObject (topologyStatus instances))) :
    let step : Step := .monitor r.check r.time r.time []
    answer (runMonitorJob r.check r.time r.time) (w.meet []) = true ∧
      (w.next step).stored.resource.status.lastDiscoveryTime
        = w.stored.resource.status.lastDiscoveryTime ∧
      (w.next step).stored.resource.status.lastMonitorTime = some (wholeSeconds r.time) := by
  intro step
  have hpos : 0 < monitorInterval w.stored.resource := boundedCheckInterval_pos _ _
  have htake : takeMonitor r.check r.time r.time w.stored.resource
      = some (monitorWork r.check w.stored.resource r.time) :=
    if_pos (by rw [monitorDue, intervalPassed_of_le hdue, Bool.or_true, hcached.1]; rfl)
  have hfresh : isNewer w.stored.resource.status.lastMonitorTime
      (monitorWork r.check w.stored.resource r.time).now = false := by
    rw [monitorWork_now]
    exact not_isNewer_of_le hpos hdue
  have hguard : w.stored.resource.status.topologyHash.all (· = hashObject
      (topologyStatus (monitorWork r.check w.stored.resource r.time).discovery.instances)) = true := by
    rw [monitorWork_discovery, hcached.2, hhash]
    simp
  have hanswer : answer (runMonitorJob r.check r.time r.time) (w.meet []) = true :=
    answer_runJob rfl htake (monitorCommit_eq_some.mpr ⟨hfresh, hguard, rfl⟩)
  refine ⟨hanswer, ?_⟩
  rcases monitor_cases w r.check r.time r.time [] with
    ⟨-, -, status, hcommit, hnext⟩ | ⟨hno, -⟩
  · rw [hnext, StoredResource.updateStatus_status]
    refine ⟨?_, ?_⟩
    · rw [Status.marshal_lastDiscoveryTime, (monitorCommit_frame hcommit).2.2.2.2.2.1]
      exact congrArg Status.lastDiscoveryTime w.stored.canonical
    · obtain ⟨-, -, rfl⟩ := monitorCommit_eq_some.mp hcommit
      exact congrArg (fun now => some (wholeSeconds now)) (monitorWork_now _ _ _)
  · rw [hanswer] at hno
    cases hno

end Jobs

/-! ## 3. One round -/

/-- What is known after `k` rounds, and `n` steps in all. -/
structure AfterRounds (instances : List InstanceObservation) (k n : Nat)
    (resource : PgBouncerAurora) : Prop where
  counted : Counted n resource.status
  nearing : ∃ applied, Nearing instances resource ⟨k, k, applied⟩

section Round

variable {w : World} {instances : List InstanceObservation} {r : Round} {k n : Nat}

/-- **The jobs of a round** are both committed. -/
theorem AfterRounds.jobs (h : AfterRounds instances k n w.stored.resource)
    (hwf : WellFormed instances)
    (hpolicy : w.stored.resource.spec.topologyPolicy.zoneAware.conflictPolicy ≠ some .fail)
    (hgood : r.Good w.stored.resource.spec instances) (hdue : DueAt r.time w.stored.resource)
    (hn : n + 3 < 2 ^ 31) :
    let w' := Machine.run World.next w r.jobs
    AfterRounds instances (k + 1) (n + 3) w'.stored.resource ∧
      w'.stored.resource.spec = w.stored.resource.spec ∧
      w'.stored.resource.status.lastDiscoveryTime = some (wholeSeconds r.time) ∧
      w'.stored.resource.status.lastMonitorTime = some (wholeSeconds r.time) := by
  intro w'
  obtain ⟨applied, hnear⟩ := h.nearing
  -- the cluster changes, and the resource does not
  set w₁ := w.next (.environment r.cluster) with hw₁
  have hnear₁ : Nearing instances w₁.stored.resource ⟨k, k, applied⟩ := hnear
  have hcounted₁ : Counted n w₁.stored.resource.status := h.counted
  -- the discovery
  set discover : Step := .discover r.discover r.time r.time [] with hdiscover
  obtain ⟨hanswer, htime, hmonitorTime, hhash⟩ :=
    @Round.Good.discovered w₁ instances r w.stored.resource.spec hgood hdue
  have hcalm : Calm instances w₁ discover := hgood.discovers _
  have hnear₂ := hnear₁.next hwf hpolicy hcounted₁ (by omega) hcalm
  have hcounted₂ := (next_move w₁ discover).counted hcounted₁ (by omega)
  have hspec₂ : (w₁.next discover).stored.resource.spec = w.stored.resource.spec :=
    (next_move w₁ discover).spec_eq hcalm
  rw [hdiscover, World.progress, if_pos hanswer, ← hdiscover] at hnear₂
  -- the probe
  set w₂ := w₁.next discover with hw₂
  set monitor : Step := .monitor r.check r.time r.time [] with hmonitor
  have hcached := hnear₂.cached hwf (Nat.succ_pos k)
  have hdue₂ : ∀ last ∈ w₂.stored.resource.status.lastMonitorTime,
      last + monitorInterval w₂.stored.resource ≤ r.time := by
    rw [hmonitorTime, monitorInterval, hspec₂]
    exact hdue.monitor
  obtain ⟨hanswer', htime', hmonitorTime'⟩ := @Round.monitored w₂ instances r hdue₂ hcached hhash
  obtain ⟨health, hcheck, hwell⟩ := hgood.probes w₂.stored.resource
  have hcalm' : Calm instances w₂ monitor := by
    intro health' hcheck' o ho henabled
    rw [hcheck] at hcheck'
    cases hcheck'
    exact hwell o ho (hspec₂ ▸ henabled)
  have hnear₃ := hnear₂.next hwf (by rw [hspec₂]; exact hpolicy) hcounted₂ (by omega) hcalm'
  have hcounted₃ := (next_move w₂ monitor).counted hcounted₂ (by omega)
  have hspec₃ := (next_move w₂ monitor).spec_eq hcalm'
  rw [hmonitor, World.progress, if_pos ⟨Nat.succ_ne_zero k, hanswer', by
    rw [hcached.2, hcheck]; rfl⟩, ← hmonitor] at hnear₃
  exact ⟨⟨hcounted₃.mono (by omega), applied, hnear₃⟩, hspec₃.trans hspec₂, htime'.trans htime,
    hmonitorTime'⟩

/-- A Reconcile that meets no failure prepares, and commits what it has prepared. -/
theorem reconcile_unfailing (w : World) (now : Int) :
    ∃ q w', reconcile .scheduled now (w.meet []) = .ok q w' ∧
      ∃ w₁, PrepareSpec now (w.meet []) q w₁ ∧
        (w.next (.reconcile now [])).cluster = w₁.cluster ∧
        (w.next (.reconcile now [])).stored = w.stored.updateStatus (q.status w.stored.resource) := by
  obtain ⟨q, w', hrun, -⟩ := reconcile_succeeds now (w.meet []) rfl
  rcases reconcile_cases w now [] with hgood | ⟨e, w'', hfail, -⟩
  · exact hgood
  · rw [hrun] at hfail
    cases hfail

/-- **The Reconcile of a round** goes through. -/
theorem AfterRounds.reconciled (h : AfterRounds instances k n w.stored.resource)
    (hwf : WellFormed instances)
    (hpolicy : w.stored.resource.spec.topologyPolicy.zoneAware.conflictPolicy ≠ some .fail)
    (hn : n + 1 < 2 ^ 31) (time : Int) :
    let w' := w.next (.reconcile time [])
    AfterRounds instances k (n + 1) w'.stored.resource ∧
      w'.stored.resource.spec = w.stored.resource.spec ∧
      w'.stored.resource.status.lastDiscoveryTime
        = w.stored.resource.status.lastDiscoveryTime ∧
      w'.stored.resource.status.lastMonitorTime = w.stored.resource.status.lastMonitorTime := by
  intro w'
  obtain ⟨applied, hnear⟩ := h.nearing
  obtain ⟨q, w₂, hrun, w₁, prepared, -, hnext⟩ := reconcile_unfailing w time
  have hcalm : Calm instances w (.reconcile time []) := trivial
  have hnear' := hnear.next hwf hpolicy h.counted (by omega) hcalm
  rw [World.progress, hrun] at hnear'
  refine ⟨⟨(next_move w _).counted h.counted (by omega), _, hnear'⟩, (next_move w _).spec_eq hcalm, ?_⟩
  have hevaluation : q.evaluation = scheduledEvaluation w.stored.resource := prepared.evaluation
  rw [show w'.stored = _ from hnext, StoredResource.updateStatus_status, Prepared.status,
    hevaluation]
  refine ⟨?_, ?_⟩
  · show (reconcileCommit _ _ _ _ _ _).lastDiscoveryTime.map wholeSeconds = _
    simp only [reconcileCommit, scheduledEvaluation, Bool.false_and, Bool.false_eq_true, if_false]
    exact congrArg Status.lastDiscoveryTime w.stored.canonical
  · show (reconcileCommit _ _ _ _ _ _).lastMonitorTime.map wholeSeconds = _
    simp only [reconcileCommit, scheduledEvaluation, Bool.false_and, Bool.false_eq_true, if_false]
    exact congrArg Status.lastMonitorTime w.stored.canonical

/-- After a round the jobs are due again an interval later. -/
theorem dueAt_later {resource : PgBouncerAurora} {time later : Int}
    (hdiscovery : resource.status.lastDiscoveryTime = some (wholeSeconds time))
    (hmonitor : resource.status.lastMonitorTime = some (wholeSeconds time))
    (hlater : time + max (discoveryInterval resource) (monitorInterval resource) ≤ later) :
    DueAt later resource := by
  have hwhole := wholeSeconds_le time
  have hleft := le_max_left (discoveryInterval resource) (monitorInterval resource)
  have hright := le_max_right (discoveryInterval resource) (monitorInterval resource)
  refine ⟨fun last hlast => ?_, fun last hlast => ?_⟩
  · rw [hdiscovery, Option.mem_some] at hlast
    omega
  · rw [hmonitor, Option.mem_some] at hlast
    omega

/-- **A whole round.** -/
theorem AfterRounds.round (h : AfterRounds instances k n w.stored.resource)
    (hwf : WellFormed instances)
    (hpolicy : w.stored.resource.spec.topologyPolicy.zoneAware.conflictPolicy ≠ some .fail)
    (hgood : r.Good w.stored.resource.spec instances) (hdue : DueAt r.time w.stored.resource)
    (hn : n + 4 < 2 ^ 31) :
    let w' := Machine.run World.next w r.steps
    AfterRounds instances (k + 1) (n + 4) w'.stored.resource ∧
      w'.stored.resource.spec = w.stored.resource.spec ∧
      ∀ later, r.time + max (discoveryInterval w.stored.resource)
        (monitorInterval w.stored.resource) ≤ later → DueAt later w'.stored.resource := by
  intro w'
  have hsteps : w' = (Machine.run World.next w r.jobs).next (.reconcile r.time []) := by
    show Machine.run World.next w r.steps = _
    rw [Round.steps, Machine.run_append]
    rfl
  obtain ⟨hjobs, hspec, hdiscovery, hmonitor⟩ := h.jobs hwf hpolicy hgood hdue (by omega)
  obtain ⟨hafter, hspec', hdiscovery', hmonitor'⟩ :=
    hjobs.reconciled hwf (by rw [hspec]; exact hpolicy) (by omega) r.time
  rw [← hsteps] at hafter hspec' hdiscovery' hmonitor'
  refine ⟨hafter, hspec'.trans hspec, fun later hlater => ?_⟩
  refine dueAt_later (hdiscovery'.trans hdiscovery) (hmonitor'.trans hmonitor) ?_
  rw [discoveryInterval, monitorInterval, hspec'.trans hspec]
  exact hlater

end Round

/-! ## 4. Many rounds -/

/-- The rounds are so far apart that both jobs are due in each of them. -/
def Spread (resource : PgBouncerAurora) (rounds : List Round) : Prop :=
  rounds.IsChain fun r r' =>
    r.time + max (discoveryInterval resource) (monitorInterval resource) ≤ r'.time

/-- The pods of the resource carry the labels of a membership, and no others. -/
def PodsTell (resource : PgBouncerAurora) (membership : ServiceMembership) (cluster : Cluster) :
    Prop :=
  ∀ (podName : String) (pod : Pod), cluster.pods[podName]? = some pod →
    managed resource pod.labels = true → podInstance pod ≠ "" →
    LabelTells pod.labels labelWriter membership.writer (podInstance pod) ∧
      LabelTells pod.labels labelReader membership.reader (podInstance pod)

section Rounds

variable {instances : List InstanceObservation}

theorem AfterRounds.rounds {k n : Nat} {w : World} (h : AfterRounds instances k n w.stored.resource)
    (hwf : WellFormed instances)
    (hpolicy : w.stored.resource.spec.topologyPolicy.zoneAware.conflictPolicy ≠ some .fail)
    {rounds : List Round} {last : Round}
    (hgood : ∀ r ∈ rounds, r.Good w.stored.resource.spec instances)
    (hdue : ∀ r ∈ (rounds ++ [last]).head?, DueAt r.time w.stored.resource)
    (hspread : Spread w.stored.resource (rounds ++ [last]))
    (hn : n + 4 * rounds.length < 2 ^ 31) :
    let w' := Machine.run World.next w (rounds.flatMap Round.steps)
    AfterRounds instances (k + rounds.length) (n + 4 * rounds.length) w'.stored.resource ∧
      w'.stored.resource.spec = w.stored.resource.spec ∧ DueAt last.time w'.stored.resource := by
  induction rounds generalizing k n w with
  | nil => exact ⟨h, rfl, hdue last rfl⟩
  | cons r rest ih =>
    rw [List.length_cons] at hn ⊢
    rw [List.flatMap_cons, Machine.run_append]
    obtain ⟨hround, hspec, hlater⟩ := h.round hwf hpolicy (hgood r (List.mem_cons_self ..))
      (hdue r rfl) (by omega)
    set w₁ := Machine.run World.next w r.steps with hw₁
    have hintervals : Spread w₁.stored.resource = Spread w.stored.resource := by
      funext rounds
      simp only [Spread, discoveryInterval, monitorInterval, hspec]
    rw [Spread, List.cons_append, List.isChain_cons] at hspread
    obtain ⟨hrest, hspec', hdue'⟩ := ih hround (by rw [hspec]; exact hpolicy)
      (fun r' hr' => by rw [hspec]; exact hgood r' (List.mem_cons_of_mem r hr'))
      (fun r' hr' => hlater _ (hspread.1 r' hr')) (by rw [hintervals]; exact hspread.2) (by omega)
    rw [show k + 1 + rest.length = k + (rest.length + 1) by omega,
      show n + 4 + 4 * rest.length = n + 4 * (rest.length + 1) by omega] at hrest
    exact ⟨hrest, hspec'.trans hspec, hdue'⟩

/-- **A Reconcile after enough rounds** applies what is wanted, and labels the pods for it. -/
theorem AfterRounds.applied {k n : Nat} {w : World} (h : AfterRounds instances k n w.stored.resource)
    (hwf : WellFormed instances)
    (hpolicy : w.stored.resource.spec.topologyPolicy.zoneAware.conflictPolicy ≠ some .fail)
    (henough : max (missingThreshold w.stored.resource).toInt
      (recoveryThreshold w.stored.resource).toInt ≤ k) (time : Int) :
    let w' := w.next (.reconcile time [])
    let wanted := wantedMembership w.stored.resource.spec instances
    SameMembers w'.stored.resource.status.lastAppliedMembership wanted ∧
      PodsTell w'.stored.resource wanted w'.cluster := by
  intro w' wanted
  obtain ⟨applied, hnear⟩ := h.nearing
  have hprogress : Progress.enough w.stored.resource ⟨k, k, applied⟩ = true :=
    Progress.enough_iff.mpr (max_le_iff.mp henough)
  obtain ⟨hfrozen, hwanted⟩ := hnear.planned hwf hpolicy hprogress w.cluster
  obtain ⟨q, -, -, w₁, prepared, hcluster, hnext⟩ := reconcile_unfailing w time
  have hconsistent := (next_move w (.reconcile time [])).consistent hnear.consistent
  rw [hnext] at hconsistent
  have hnear' := hnear.reconciled hwf hpolicy prepared hconsistent
  have hplan : q.plan = finalPlan w.stored.resource w.cluster := prepared.plan
  rw [← hplan] at hfrozen hwanted
  refine ⟨?_, fun podName pod hpod hmanaged hinstance => ?_⟩
  · rw [show w'.stored = _ from hnext]
    exact (hnear'.applied (by rw [hprogress, Bool.or_true])).2
  · rw [show w'.cluster = _ from hcluster] at hpod
    rw [show w'.stored = _ from hnext] at hmanaged
    have hexact := prepared.labels hfrozen podName pod hpod hmanaged hinstance
    rw [podExact, membershipLabelsExact, Bool.and_eq_true, Bool.and_eq_true] at hexact
    exact ⟨(labelTells_of_exact hexact.1.1).congr (hwanted.1 _),
      (labelTells_of_exact hexact.1.2).congr (hwanted.2 _)⟩

end Rounds

/-- **Convergence in a bounded number of rounds.**  Whatever whole jobs did to a resource before: after
as many rounds with Aurora at rest as the larger threshold says, or more, the stored membership is
the wanted one, and the pods carry its labels and no others. -/
theorem rounds_converge (name : String) (spec : PgBouncerAuroraSpec) (cluster : Cluster)
    (before : List Step) (instances : List InstanceObservation) (hwf : WellFormed instances)
    (rounds : List Round) (w : World) (hw : w = reached name spec cluster before)
    (hpolicy : w.stored.resource.spec.topologyPolicy.zoneAware.conflictPolicy ≠ some .fail)
    (hgood : ∀ r ∈ rounds, r.Good w.stored.resource.spec instances)
    (hdue : ∀ r ∈ rounds.head?, DueAt r.time w.stored.resource)
    (hspread : Spread w.stored.resource rounds)
    (henough : max (missingThreshold w.stored.resource).toInt
      (recoveryThreshold w.stored.resource).toInt ≤ rounds.length)
    (hlength : before.length + 4 * rounds.length < 2 ^ 31) :
    let w' := Machine.run World.next w (rounds.flatMap Round.steps)
    let wanted := wantedMembership w.stored.resource.spec instances
    SameMembers w'.stored.resource.status.lastAppliedMembership wanted ∧
      PodsTell w'.stored.resource wanted w'.cluster := by
  intro w' wanted
  have hstart : AfterRounds instances 0 before.length w.stored.resource := by
    have hcounted := counted_reached name spec cluster (by omega : before.length < 2 ^ 31)
    have hconsistent := consistent_run name spec cluster before
    rw [← hw] at hcounted hconsistent
    exact ⟨hcounted, false, nearing_start hconsistent hcounted⟩
  rcases List.eq_nil_or_concat' rounds with rfl | ⟨init, last, rfl⟩
  · -- the thresholds are positive
    have hthreshold : 0 < (missingThreshold w.stored.resource).toInt := defaultInt32_pos (by decide)
    exact absurd ((le_max_left _ _).trans henough) (by simpa using hthreshold)
  · rw [List.length_append, List.length_singleton] at henough hlength
    have hgoodInit : ∀ r ∈ init, r.Good w.stored.resource.spec instances := fun r hr =>
      hgood r (List.mem_append_left _ hr)
    obtain ⟨hinit, hspec, hdueLast⟩ :=
      hstart.rounds hwf hpolicy hgoodInit hdue hspread (by omega)
    -- the last round ends with the Reconcile that matters
    have hend : w' = (Machine.run World.next (Machine.run World.next w (init.flatMap Round.steps))
        last.jobs).next (.reconcile last.time []) := by
      show Machine.run World.next w ((init ++ [last]).flatMap Round.steps) = _
      rw [List.flatMap_append, Machine.run_append, List.flatMap_singleton, Round.steps,
        Machine.run_append]
      rfl
    obtain ⟨hjobs, hspec', -⟩ := hinit.jobs hwf (by rw [hspec]; exact hpolicy)
      (by rw [hspec]; exact hgood last (List.mem_append_right _ (List.mem_singleton_self last)))
      hdueLast (by omega)
    have hsame := hspec'.trans hspec
    have hcount : max (missingThreshold w.stored.resource).toInt
        (recoveryThreshold w.stored.resource).toInt ≤ ((0 + init.length + 1 : Nat) : Int) := by
      rw [Nat.zero_add]
      exact henough
    rw [missingThreshold, recoveryThreshold, ← hsame] at hcount
    have happlied := hjobs.applied hwf (by rw [hsame]; exact hpolicy) hcount last.time
    rw [← hend, hsame] at happlied
    exact happlied

/-- The reader `x` is gone and `b` is new; `a` has a pod, without labels of a role. -/
def calmRound (time : Int) : Round where
  discover := fun _ => .ok { trusted := true, instances := calmInstances }
  check := fun _ _ => .ok allWell
  cluster := exampleCluster
  time := time

theorem calmRound_good (spec : PgBouncerAuroraSpec) (time : Int) :
    (calmRound time).Good spec calmInstances where
  discovers _ := ⟨_, rfl, rfl, rfl⟩
  probes _ := ⟨allWell, rfl, fun o ho _ => allWell_healthy o ho⟩

def xDiscovered : World := reached "db" eagerSpec {} [discoverReaders ["x"] 0]

theorem xDiscovered_due : DueAt (10 * second) xDiscovered.stored.resource := by
  have hdiscovery : xDiscovered.stored.resource.status.lastDiscoveryTime = some 0 := by
    decide +kernel
  have hmonitor : xDiscovered.stored.resource.status.lastMonitorTime = none := by decide +kernel
  refine ⟨fun last hlast => ?_, fun last hlast => ?_⟩
  · rw [hdiscovery, Option.mem_some] at hlast
    subst hlast
    decide +kernel
  · rw [hmonitor] at hlast
    cases hlast

def xReplaced : World :=
  Machine.run World.next xDiscovered ([calmRound (10 * second)].flatMap Round.steps)

theorem one_round_converges :
    wantedMembership xDiscovered.stored.resource.spec calmInstances = ⟨["a"], ["b"]⟩ ∧
      SameMembers xReplaced.stored.resource.status.lastAppliedMembership
        (wantedMembership xDiscovered.stored.resource.spec calmInstances) ∧
      ∃ pod, xReplaced.cluster.pods["pod"]? = some pod ∧ podInstance pod = "a" ∧
        pod.labels[labelWriter]? = some "true" ∧ pod.labels[labelReader]? = none := by
  have hwanted : wantedMembership xDiscovered.stored.resource.spec calmInstances
      = ⟨["a"], ["b"]⟩ := by decide +kernel
  have hconverged : SameMembers xReplaced.stored.resource.status.lastAppliedMembership
        (wantedMembership xDiscovered.stored.resource.spec calmInstances) ∧
      PodsTell xReplaced.stored.resource
        (wantedMembership xDiscovered.stored.resource.spec calmInstances) xReplaced.cluster := by
    unfold xReplaced
    refine rounds_converge "db" eagerSpec {} [discoverReaders ["x"] 0] calmInstances
      calmInstances_wellFormed [calmRound (10 * second)] xDiscovered rfl (by decide +kernel)
      (fun r hr => ?_) (fun r hr => ?_) (by simp [Spread]) (by decide +kernel) (by decide)
    · rw [List.mem_singleton.mp hr]
      exact calmRound_good _ _
    · rw [List.head?_cons, Option.mem_some] at hr
      subst hr
      exact xDiscovered_due
  have hthere : (xReplaced.cluster.pods["pod"]?.any fun pod =>
      managed xReplaced.stored.resource pod.labels && podInstance pod == "a") = true := by
    decide +kernel
  generalize xReplaced = w' at hconverged hthere ⊢
  rw [hwanted] at hconverged ⊢
  obtain ⟨pod, hpod, hours⟩ := (Option.any_eq_true ..).mp hthere
  obtain ⟨hmanaged, hinstance⟩ := Bool.and_eq_true_iff.mp hours
  rw [beq_iff_eq] at hinstance
  have htells := hconverged.2 "pod" pod hpod hmanaged (by rw [hinstance]; decide)
  rw [hinstance] at htells
  exact ⟨rfl, hconverged.1, pod, hpod, hinstance, htells⟩

end Controller

end AuroraOperator

/-
# Probes and topologies

A probe takes its time, and the topology may change meanwhile.  A monitor job compares the hash of
the topology it has probed with the stored one before it commits.  The hash is of a list that was
converted from observations to a status, back, and again; a hash that was never written stops
nothing.

The invariant says what the stored hash is the hash of, and what the work under way is about.  It
holds over every interleaving of jobs, and says that the guard compares topologies.

* `monitor_coherent`: a monitor job that commits has probed the stored topology, and writes exactly
  its instances; the times of both kinds of jobs never go back.
-/
import AuroraOperator.Controller.Interleaving
import AuroraOperator.Controller.Safety

namespace AuroraOperator

namespace Controller

open Discovery Planner Render Program

/-! ## 1. Order -/

/-- A list of instances as the provider orders it. -/
def ByName (instances : List InstanceObservation) : Prop :=
  (instances.map (·.name)).Pairwise (· ≤ ·)

theorem byName_sortObservations (instances : List InstanceObservation) :
    ByName (sortObservations instances) := by
  have hnames : (sortObservations instances).map (·.name)
      = sortStrings (instances.map (·.name)) :=
    List.map_insertionSort _ _ _ _ fun _ _ _ _ => Iff.rfl
  rw [ByName, hnames]
  exact sortStrings_pairwise _

theorem discover_byName {p : Provider} {resource : PgBouncerAurora}
    (h : (p.discover resource).trusted = true) : ByName (p.discover resource).instances := by
  rcases p.discover_cases resource with hu | ⟨rows, metadata, ht, hi⟩
  · rw [h] at hu
    cases hu
  · rw [ht] at h
    obtain ⟨instances, -, -, hsorted⟩ := buildResult_trusted h
    rw [hi, hsorted]
    exact byName_sortObservations _

/-- The planner's own sort leaves what is in order already. -/
theorem plan_observations {input : Input} (htrusted : input.discoveryTrusted = true)
    (h : ByName input.discovered) :
    (plan input).instances.map (·.toInstanceObservation) = input.discovered := by
  have hsorted : (input.discovered.map (planEntry input)).Pairwise fun a b => a.name ≤ b.name := by
    rw [List.pairwise_map]
    refine (List.pairwise_map.mp h).imp fun hle => ?_
    rw [planEntry_name, planEntry_name]
    exact hle
  rw [(plan_trusted htrusted).2.1, sortInstancePlans, List.Pairwise.insertionSort_eq hsorted,
    List.map_map]
  exact (List.map_congr_left fun o _ => planEntry_observation input o).trans (List.map_id _)

/-! ## 2. The invariant -/

/-- What the status says of an instance's place in the topology. -/
def placeOf (item : InstanceStatus) : InstanceTopologyStatus :=
  { instanceName := item.instanceName
    endpoint := item.endpoint
    port := item.port
    role := item.role
    availabilityZone := item.availabilityZone
    dbiResourceId := item.dbiResourceId }

theorem map_placeOf_instanceStatus (entries : List InstancePlan) :
    (instanceStatus entries).map placeOf
      = topologyStatus (entries.map (·.toInstanceObservation)) := by
  rw [instanceStatus, topologyStatus, List.map_map, List.map_map]
  rfl

/-- The discoveries of a turn are the operator's own. -/
def Turn.FromProvider : Turn → Prop
  | .takeDiscovery discover _ _ => ∀ resource discovery, discover resource = .ok discovery →
      ∃ p : Provider, discovery = p.discover resource
  | _ => True

/-- The plan of a monitor job is about the topology it has probed. -/
def MonitorWork.OnTopic (work : MonitorWork) : Prop :=
  work.plan.instances.map (·.toInstanceObservation) = work.discovery.instances

/-- A hash that was written is the hash of the topology, which is in order; without a hash there
is no topology. -/
structure TopologyHashed (status : Status) : Prop where
  unhashed : status.topologyHash = none → status.lastKnownTopology = []
  hashed : ∀ hash, status.topologyHash = some hash → hash = hashObject status.lastKnownTopology
  ordered : ByName (topologyObservations status.lastKnownTopology)

/-- The stored topology, and the work under way on some topology.  A monitor job has started from a
topology, so that there is a hash to compare with. -/
structure Coherent (s : Flight) : Prop where
  topology : TopologyHashed s.world.stored.resource.status
  discovery : ∀ work, s.discovery = some work → work.discovery.trusted = true →
    ByName work.discovery.instances
  monitor : ∀ work, s.monitor = some work → work.OnTopic ∧
    s.world.stored.resource.status.topologyHash ≠ none
  reconcile : ∀ p, s.reconcile = some p → p.evaluation = scheduledEvaluation p.resource

theorem takeDiscovery_byName {discover : Discover} {checkedAt now : Int}
    {resource : PgBouncerAurora} {work : DiscoveryWork}
    (hprovider : Turn.FromProvider (.takeDiscovery discover checkedAt now))
    (hordered : ByName (topologyObservations resource.status.lastKnownTopology))
    (htake : takeDiscovery discover checkedAt now resource = some work)
    (ht : work.discovery.trusted = true) : ByName work.discovery.instances := by
  unfold takeDiscovery at htake
  split at htake
  · cases htake
    have htrusted : (effectiveDiscovery discover resource).1.trusted = true := ht
    show ByName (effectiveDiscovery discover resource).1.instances
    rcases effectiveDiscovery_cases discover resource with ⟨d, hok, htd, heq⟩ | ⟨-, -, hcases⟩
    · obtain ⟨p, rfl⟩ := hprovider _ _ hok
      rw [heq]
      exact discover_byName htd
    · rcases hcases with hu | ⟨hcached, -⟩
      · rw [hu] at htrusted
        cases htrusted
      · rw [hcached]
        exact hordered
  · cases htake

theorem takeMonitor_onTopic {check : Check} {checkedAt now : Int} {resource : PgBouncerAurora}
    {work : MonitorWork}
    (hordered : ByName (topologyObservations resource.status.lastKnownTopology))
    (htake : takeMonitor check checkedAt now resource = some work) :
    work.OnTopic ∧ (cachedDiscovery resource).trusted = true := by
  unfold takeMonitor at htake
  split at htake
  · rename_i hdue
    cases htake
    have ht := (Bool.and_eq_true_iff.mp hdue).2
    have hbyName : ByName (cachedDiscovery resource).instances := by
      rw [cachedDiscovery_instances ht]
      exact hordered
    refine ⟨?_, ht⟩
    unfold MonitorWork.OnTopic
    rw [monitorWork_discovery]
    cases hcheck : check resource (cachedDiscovery resource).instances with
    | ok health =>
      rw [monitorWork_ok hcheck]
      exact @plan_observations (monitorInput resource health false) ht hbyName
    | error err =>
      rw [monitorWork_error hcheck]
      exact @plan_observations (monitorInput resource _ true) ht hbyName
  · cases htake

/-! ## 3. One turn -/

section OneTurn

variable {s : Flight} {stored : StoredResource}

theorem TopologyHashed.same {status status' : Status} (h : TopologyHashed status)
    (htopology : status'.lastKnownTopology = status.lastKnownTopology)
    (hhash : status'.topologyHash = status.topologyHash) : TopologyHashed status' := by
  refine ⟨fun hnone => ?_, fun hash hsome => ?_, ?_⟩
  · rw [htopology]
    exact h.unhashed (hhash ▸ hnone)
  · rw [htopology]
    exact h.hashed hash (hhash ▸ hsome)
  · rw [htopology]
    exact h.ordered

/-- A Reconcile of a scheduled operator leaves topology, hash and times. -/
theorem Prepared.status_frame {p : Prepared} (hp : p.evaluation = scheduledEvaluation p.resource)
    (fresh : PgBouncerAurora) :
    (p.status fresh).lastKnownTopology = fresh.status.lastKnownTopology ∧
    (p.status fresh).topologyHash = fresh.status.topologyHash ∧
    (p.status fresh).lastDiscoveryTime = fresh.status.lastDiscoveryTime ∧
    (p.status fresh).lastMonitorTime = fresh.status.lastMonitorTime := by
  rw [Prepared.status, hp]
  obtain ⟨htopology, hhash, htime⟩ :=
    reconcileCommit_frame p.resource p.plan p.missing p.now fresh
  exact ⟨htopology, hhash, htime, by simp [reconcileCommit, scheduledEvaluation]⟩

/-- **Whatever a turn stores** keeps the topology hashed, and never takes a hash away. -/
theorem Flight.Stores.topology (hstores : s.Stores stored) (h : Coherent s) :
    TopologyHashed stored.resource.status ∧
      (s.world.stored.resource.status.topologyHash ≠ none →
        stored.resource.status.topologyHash ≠ none) := by
  cases hstores with
  | same => exact ⟨h.topology, id⟩
  | edited spec => exact ⟨h.topology, id⟩
  | discovered job commit =>
    rename_i work status
    cases ht : work.discovery.trusted with
    | false =>
      obtain ⟨htopology, -, hhash⟩ := discoveryCommit_untrusted commit ht
      exact ⟨h.topology.same htopology hhash, fun hne hnone => hne (hhash.symm.trans hnone)⟩
    | true =>
      obtain ⟨htopology, -, hhash⟩ := discoveryCommit_trusted commit ht
      have hhash' : (s.world.stored.updateStatus status).resource.status.topologyHash
          = some (hashObject (topologyStatus work.discovery.instances)) := hhash
      have htopology' : (s.world.stored.updateStatus status).resource.status.lastKnownTopology
          = topologyStatus work.discovery.instances := htopology
      refine ⟨⟨fun hnone => ?_, fun hash hsome => ?_, ?_⟩, fun _ => ?_⟩
      · rw [hhash'] at hnone
        cases hnone
      · rw [hhash'] at hsome
        cases hsome
        rw [htopology']
      · rw [htopology', topologyObservations_topologyStatus]
        exact h.discovery work job ht
      · rw [hhash']
        exact Option.some_ne_none _
  | monitored job commit =>
    obtain ⟨htopology, -, hhash, -⟩ := monitorCommit_frame commit
    exact ⟨h.topology.same htopology hhash, fun hne hnone => hne (hhash.symm.trans hnone)⟩
  | reconciled job =>
    rename_i p
    obtain ⟨htopology, hhash, -⟩ := Prepared.status_frame (h.reconcile p job) s.world.stored.resource
    exact ⟨h.topology.same htopology hhash, fun hne hnone => hne (hhash.symm.trans hnone)⟩

/-- **Every turn keeps what is stored and what is under way coherent.** -/
theorem Coherent.next (h : Coherent s) {turn : Turn} (hprovider : turn.FromProvider) :
    Coherent (s.next turn) := by
  obtain ⟨htopology, hkept⟩ := (s.next_stores turn).topology h
  obtain ⟨hdiscovery, hmonitor, hreconcile⟩ := s.next_jobs turn
  refine ⟨htopology, fun work hwork ht => ?_, fun work hwork => ?_, fun p hp => ?_⟩
  · rcases hdiscovery work hwork with hold | ⟨discover, checkedAt, now, rfl, htake⟩
    · exact h.discovery work hold ht
    · exact takeDiscovery_byName hprovider h.topology.ordered htake ht
  · rcases hmonitor work hwork with hold | ⟨check, checkedAt, now, rfl, htake⟩
    · obtain ⟨htopic, hhash⟩ := h.monitor work hold
      exact ⟨htopic, hkept hhash⟩
    · obtain ⟨htopic, htrusted⟩ := takeMonitor_onTopic h.topology.ordered htake
      refine ⟨htopic, hkept fun hnone => ?_⟩
      exact (cachedDiscovery_trusted_iff.mp htrusted).2 (h.topology.unhashed hnone)
  · rcases hreconcile p hp with hold | ⟨now, faults, w', rfl, hrun⟩
    · exact h.reconcile p hold
    · have hprepared := prepare_eq_ok hrun
      rw [hprepared.evaluation, hprepared.resource]

/-- **The guard compares topologies.**  A monitor job that commits has probed the topology it
finds, and its plan is about the instances of that topology. -/
theorem Coherent.monitored (h : Coherent s) {work : MonitorWork} {status : Status}
    (job : s.monitor = some work) (commit : work.commit s.world.stored.resource = some status) :
    topologyStatus work.discovery.instances = s.world.stored.resource.status.lastKnownTopology ∧
      status.instances.map placeOf = s.world.stored.resource.status.lastKnownTopology ∧
      status.lastKnownTopology = s.world.stored.resource.status.lastKnownTopology := by
  obtain ⟨htopic, hhash⟩ := h.monitor work job
  obtain ⟨-, hguard, rfl⟩ := monitorCommit_eq_some.mp commit
  have hprobed : topologyStatus work.discovery.instances
      = s.world.stored.resource.status.lastKnownTopology := by
    obtain ⟨hash, hsome⟩ := Option.ne_none_iff_exists'.mp hhash
    rw [hsome] at hguard
    have hsame : hash = hashObject (topologyStatus work.discovery.instances) := by
      simpa using hguard
    exact hashObject_inj.mp (hsame.symm.trans (h.topology.hashed hash hsome))
  refine ⟨hprobed, ?_, rfl⟩
  show (instanceStatus work.plan.instances).map placeOf = _
  rw [map_placeOf_instanceStatus, htopic]
  exact hprobed

/-- A time that is set stays set, and does not go back. -/
def NeverBack (before after : Option Int) : Prop := ∀ t ∈ before, ∃ t' ∈ after, t ≤ t'

theorem neverBack_refl (time : Option Int) : NeverBack time time := fun t ht => ⟨t, ht, le_rfl⟩

/-- Stored times are whole seconds, so that cutting a later time leaves it no earlier. -/
theorem neverBack_of_notNewer {before : Option Int} {now : Int}
    (hwhole : before.map wholeSeconds = before) (hnow : isNewer before now = false) :
    NeverBack before (some (wholeSeconds now)) := by
  intro t ht
  cases ht
  have hle : t ≤ now := by simpa [isNewer] using hnow
  have ht : wholeSeconds t = t := Option.some.inj hwhole
  refine ⟨_, rfl, ?_⟩
  calc t = wholeSeconds t := ht.symm
    _ ≤ wholeSeconds now := wholeSeconds_mono hle

/-- **The clocks of the status never go back**, whatever the clocks of the jobs say. -/
theorem Flight.Stores.times (hstores : s.Stores stored) (h : Coherent s) :
    NeverBack s.world.stored.resource.status.lastDiscoveryTime
      stored.resource.status.lastDiscoveryTime ∧
    NeverBack s.world.stored.resource.status.lastMonitorTime
      stored.resource.status.lastMonitorTime := by
  have hdiscovery : s.world.stored.resource.status.lastDiscoveryTime.map wholeSeconds
      = s.world.stored.resource.status.lastDiscoveryTime :=
    congrArg Status.lastDiscoveryTime s.world.stored.canonical
  have hmonitor : s.world.stored.resource.status.lastMonitorTime.map wholeSeconds
      = s.world.stored.resource.status.lastMonitorTime :=
    congrArg Status.lastMonitorTime s.world.stored.canonical
  cases hstores with
  | same | edited spec => exact ⟨neverBack_refl _, neverBack_refl _⟩
  | discovered job commit =>
    rename_i work status
    obtain ⟨-, -, -, -, htime, -⟩ := discoveryCommit_frame commit
    have hnotNewer := discoveryCommit_eq_some.mp (Option.isSome_of_mem commit)
    refine ⟨?_, ?_⟩
    · show NeverBack _ (status.lastDiscoveryTime.map wholeSeconds)
      rw [htime]
      exact neverBack_of_notNewer hdiscovery hnotNewer
    · show NeverBack _ (status.lastMonitorTime.map wholeSeconds)
      rw [discoveryCommit_lastMonitorTime commit, hmonitor]
      exact neverBack_refl _
  | monitored job commit =>
    rename_i work status
    obtain ⟨hnotNewer, -, rfl⟩ := monitorCommit_eq_some.mp commit
    refine ⟨?_, neverBack_of_notNewer hmonitor hnotNewer⟩
    show NeverBack _ (s.world.stored.resource.status.lastDiscoveryTime.map wholeSeconds)
    rw [hdiscovery]
    exact neverBack_refl _
  | reconciled job =>
    rename_i p
    obtain ⟨-, -, htime, htime'⟩ :=
      Prepared.status_frame (h.reconcile p job) s.world.stored.resource
    refine ⟨?_, ?_⟩
    · show NeverBack _ ((p.status s.world.stored.resource).lastDiscoveryTime.map wholeSeconds)
      rw [htime, hdiscovery]
      exact neverBack_refl _
    · show NeverBack _ ((p.status s.world.stored.resource).lastMonitorTime.map wholeSeconds)
      rw [htime', hmonitor]
      exact neverBack_refl _

end OneTurn

/-! ## 4. Every interleaving -/

theorem coherent_initial (name : String) (spec : PgBouncerAuroraSpec) (cluster : Cluster) :
    Coherent { world := World.initial name spec cluster } where
  topology := ⟨fun _ => rfl, fun hash hsome => (by cases hsome), List.Pairwise.nil⟩
  discovery work hwork := by cases hwork
  monitor work hwork := by cases hwork
  reconcile p hp := by cases hp

/-- **Monitor commits are coherent with the topology.**  After any interleaving of jobs from a new
resource: the stored hash is empty or that of the stored topology; if the monitor job under way
commits next, it has probed the stored topology, and what it writes about instances is that
topology, place by place; and no turn sets a time back. -/
theorem monitor_coherent (name : String) (spec : PgBouncerAuroraSpec) (cluster : Cluster)
    (turns : List Turn) (hturns : ∀ turn ∈ turns, turn.FromProvider) :
    let s := Machine.run Flight.next { world := World.initial name spec cluster } turns
    let topology := s.world.stored.resource.status.lastKnownTopology
    (s.world.stored.resource.status.topologyHash = none ∨
      s.world.stored.resource.status.topologyHash = some (hashObject topology)) ∧
    (∀ faults work, s.world.lands MonitorWork.commit faults s.monitor = some work →
      let status := (s.next (.commitMonitor faults)).world.stored.resource.status
      topologyStatus work.discovery.instances = topology ∧
        status.instances.map placeOf = topology ∧ status.lastKnownTopology = topology) ∧
    ∀ turn, let status := (s.next turn).world.stored.resource.status
      NeverBack s.world.stored.resource.status.lastDiscoveryTime status.lastDiscoveryTime ∧
        NeverBack s.world.stored.resource.status.lastMonitorTime status.lastMonitorTime := by
  intro s topology
  have hstep (s : Flight) (turn : Turn) (h : Coherent s) (hprovider : turn.FromProvider) :
      Coherent (s.next turn) := h.next hprovider
  have h : Coherent s :=
    Machine.invariant_of_forall hstep (coherent_initial name spec cluster) hturns
  refine ⟨?_, fun faults work hlands => ?_, fun turn => (s.next_stores turn).times h⟩
  · cases hhash : s.world.stored.resource.status.topologyHash with
    | none => exact Or.inl rfl
    | some hash => exact Or.inr (congrArg some (h.topology.hashed hash hhash))
  · rcases land_cases MonitorWork.commit s.world faults s.monitor
      with ⟨work', status, hjob, hlands', hcommit, hstored⟩ | ⟨hnone, -⟩
    · rw [hlands] at hlands'
      cases hlands'
      obtain ⟨hprobed, hwritten, hkept⟩ := h.monitored hjob hcommit
      rw [show (s.next (.commitMonitor faults)).world.stored = _ from hstored]
      exact ⟨hprobed, hwritten, hkept⟩
    · rw [hlands] at hnone
      cases hnone

/-- A discovery of `a` and `b`, and a probe of both under way. -/
def probeUnderWay : List Turn :=
  [.takeDiscovery (fun resource => .ok (exampleProvider.discover resource)) (10 * second)
      (10 * second), .commitDiscovery [],
    .takeMonitor (fun _ _ => .ok ((∅ : StringMap HealthStatus).insert "a" { healthy := true }))
      (20 * second) (20 * second)]

theorem probeUnderWay_fromProvider : ∀ turn ∈ probeUnderWay, turn.FromProvider := by
  intro turn hturn
  simp only [probeUnderWay, List.mem_cons, List.not_mem_nil, or_false] at hturn
  rcases hturn with rfl | rfl | rfl
  · rintro resource discovery h
    exact ⟨_, (Except.ok.inj h).symm⟩
  · trivial
  · trivial

theorem monitor_coherent_example :
    let s := Machine.run Flight.next { world := World.initial "db" exampleSpec {} } probeUnderWay
    (s.next (.commitMonitor [])).world.stored.resource.status.instances.map placeOf
      = s.world.stored.resource.status.lastKnownTopology := by
  intro s
  have hlands : (s.world.lands MonitorWork.commit [] s.monitor).isSome = true := by decide +kernel
  obtain ⟨work, hwork⟩ := Option.isSome_iff_exists.mp hlands
  exact ((monitor_coherent "db" exampleSpec {} probeUnderWay probeUnderWay_fromProvider).2.1 []
    work hwork).2.1

end Controller

end AuroraOperator

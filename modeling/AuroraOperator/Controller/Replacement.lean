/-
# Physical replacements

An instance name can come back as another machine, with another `DbiResourceId`.  Health that was
earned by the old machine must not be credited to the new one, and the planner checks for it: it
compares the observed id with the stored one.

An empty id counts as unchanged, and the stored id is overwritten with every commit.  So a single
commit under an empty id, between the two machines, makes the planner forget which machine the
health was earned by.  An instance that was missing and comes back while the metadata call fails is
observed in just this way.

* `replacement_starts_over`: health is not carried over in any run that does not commit an empty id
  for a known instance.
* `empty_id_carries_health`: the run of six steps that does.
-/
import AuroraOperator.Controller.Hysteresis

namespace AuroraOperator

namespace Controller

open Discovery Planner Render Program

/-! ## 1. What is written about an instance -/

/-- The steps that plan, and may store what they planned. -/
def Step.plans : Step → Bool
  | .monitor _ _ _ _ => true
  | .reconcile _ _ => true
  | _ => false

/-- The item is about an instance of the topology. -/
def About (topology : List InstanceTopologyStatus) (item : InstanceStatus) : Prop :=
  ∃ known ∈ topology, known.instanceName = item.instanceName ∧
    known.dbiResourceId = item.dbiResourceId

theorem about_of_observed {resource : PgBouncerAurora}
    (htrusted : (cachedDiscovery resource).trusted = true) {entries : List InstancePlan}
    (h : ∀ entry ∈ entries, entry.toInstanceObservation ∈ (cachedDiscovery resource).instances) :
    ∀ item ∈ instanceStatus entries, About resource.status.lastKnownTopology item := by
  intro item hitem
  obtain ⟨entry, hentry, rfl⟩ := List.mem_map.mp hitem
  have hin := h entry hentry
  rw [cachedDiscovery_instances htrusted] at hin
  obtain ⟨known, hknown, hobserved⟩ := List.mem_map.mp hin
  exact ⟨known, hknown, congrArg InstanceObservation.name hobserved,
    congrArg InstanceObservation.dbiResourceId hobserved⟩

theorem monitorWork_observed {check : Check} {resource : PgBouncerAurora} {now : Int}
    (htrusted : (cachedDiscovery resource).trusted = true) :
    ∀ entry ∈ (monitorWork check resource now).plan.instances,
      entry.toInstanceObservation ∈ (cachedDiscovery resource).instances := by
  have hplanned (health : StringMap HealthStatus) (cached : Bool) :
      ∀ entry ∈ (plan (monitorInput resource health cached)).instances,
        entry.toInstanceObservation ∈ (cachedDiscovery resource).instances := by
    intro entry hentry
    rw [(plan_trusted (show (monitorInput resource health cached).discoveryTrusted = true from
      htrusted)).2.1, sortInstancePlans, List.mem_insertionSort] at hentry
    obtain ⟨o, ho, rfl⟩ := List.mem_map.mp hentry
    rw [planEntry_observation]
    exact ho
  cases hcheck : check resource (cachedDiscovery resource).instances with
  | ok health =>
    rw [monitorWork_ok hcheck]
    exact hplanned _ _
  | error err =>
    rw [monitorWork_error hcheck]
    exact hplanned _ _

/-- **A step leaves the stored instances, or writes those of the topology.** -/
theorem Move.rewrites {w w' : World} {step : Step} {events : List Event}
    (hmove : Move w step w' events) :
    w'.stored.resource.status.instances = w.stored.resource.status.instances ∨
      (step.plans = true ∧ ∀ item ∈ w'.stored.resource.status.instances,
        About w.stored.resource.status.lastKnownTopology item) := by
  cases hmove with
  | discovered answered due commit stored =>
    rw [stored]
    exact Or.inl (discoveryCommit_frame commit).2.2.1
  | monitored trusted commit stored =>
    obtain ⟨-, -, rfl⟩ := monitorCommit_eq_some.mp commit
    rw [stored]
    exact Or.inr ⟨rfl, about_of_observed trusted (monitorWork_observed trusted)⟩
  | reconciled prepared cluster stored =>
    rename_i now faults w₁ p
    rw [stored, StoredResource.updateStatus_status, Status.marshal_instances, Prepared.status,
      prepared.evaluation, prepared.plan]
    unfold reconcileCommit scheduledEvaluation
    dsimp only
    split
    · rename_i hwrites
      have hfrozen : (finalPlan w.stored.resource w.cluster).frozen = false :=
        (Bool.not_eq_true' _).mp (Bool.and_eq_true_iff.mp hwrites).1
      exact Or.inr ⟨rfl, about_of_observed (trusted_of_not_frozen hfrozen) fun entry hentry =>
        (finalPlan_entry hfrozen hentry).1⟩
    · exact Or.inl rfl
  | edited stored => exact Or.inl (by rw [stored]; rfl)
  | undiscovered unanswered stored | unmonitored stored | attempted stored | moved stored =>
    exact Or.inl (by rw [stored])

theorem mem_of_storedHealth {name : String} {status : Status} {item : InstanceStatus}
    (h : storedHealth name status = some item) :
    item ∈ status.instances ∧ item.instanceName = name := by
  rw [storedHealth, getElem?_previousInstanceStatus] at h
  split at h
  · cases h
  · exact ⟨List.mem_reverse.mp (List.mem_of_find?_eq_some h),
      by simpa using List.find?_some h⟩

/-! ## 2. What an instance is known as -/

/-- The id that is stored for the instance, if it is stored at all. -/
def storedIds (name : String) (status : Status) : List String :=
  ((storedHealth name status).map (·.dbiResourceId)).toList

/-- A step of the world, with the ids the instance was stored under, newest first. -/
abbrev identifying (name : String) : World × List String → Step → World × List String :=
  Machine.traced World.next fun w step => storedIds name (w.next step).stored.resource.status

/-- The last non-empty id. -/
def lastKnownId (ids : List String) : Option String := ids.find? (· ≠ "")

/-- A step that does not plan on an empty id for an instance that is known. -/
def ObservedWithId (name : String) (t : World × List String) (step : Step) : Prop :=
  step.plans = true → lastKnownId t.2 ≠ none →
    ∀ known ∈ t.1.stored.resource.status.lastKnownTopology, known.instanceName = name →
      known.dbiResourceId ≠ ""

instance (name : String) (t : World × List String) (step : Step) :
    Decidable (ObservedWithId name t step) :=
  inferInstanceAs (Decidable (_ → _ → _))

/-- What is stored is the newest id, and it is empty only as long as none is known. -/
structure Identified (name : String) (t : World × List String) : Prop where
  newest : ∀ item, storedHealth name t.1.stored.resource.status = some item →
    t.2.head? = some item.dbiResourceId
  empty : t.2.head? = some "" → lastKnownId t.2 = none

section Identity

variable {name : String} {t : World × List String}

theorem identified_start (name : String) (w : World) :
    Identified name (w, storedIds name w.stored.resource.status) := by
  unfold storedIds
  cases h : storedHealth name w.stored.resource.status with
  | none => exact ⟨fun item hitem => (by rw [h] at hitem; cases hitem), nofun⟩
  | some item =>
    refine ⟨fun item' hitem => by rw [h] at hitem; cases hitem; rfl, fun hempty => ?_⟩
    have hid : item.dbiResourceId = "" := by simpa using hempty
    simp [lastKnownId, hid]

/-- **One step.**  An empty id overwrites a known one only if it was observed. -/
theorem Identified.next (h : Identified name t) {step : Step} (hstep : ObservedWithId name t step) :
    Identified name (identifying name t step) := by
  have hjournal : (identifying name t step).2
      = storedIds name (t.1.next step).stored.resource.status ++ t.2 := rfl
  cases hstored : storedHealth name (t.1.next step).stored.resource.status with
  | none =>
    refine ⟨fun item hitem => ?_, ?_⟩
    · rw [show storedHealth name (identifying name t step).1.stored.resource.status = none from
        hstored] at hitem
      cases hitem
    · rw [hjournal, storedIds, hstored]
      exact h.empty
  | some item =>
    have hids : (identifying name t step).2 = item.dbiResourceId :: t.2 := by
      rw [hjournal, storedIds, hstored]
      rfl
    refine ⟨fun item' hitem => ?_, fun hempty => ?_⟩
    · rw [show storedHealth name (identifying name t step).1.stored.resource.status = some item from
        hstored] at hitem
      cases hitem
      rw [hids]
      rfl
    · rw [hids] at hempty ⊢
      have hid : item.dbiResourceId = "" := by simpa using hempty
      have hknown : lastKnownId (item.dbiResourceId :: t.2) = lastKnownId t.2 := by
        simp [lastKnownId, hid]
      rw [hknown]
      rcases (next_move t.1 step).rewrites with hsame | ⟨hplans, habout⟩
      · -- the empty id was there before
        have hbefore : storedHealth name t.1.stored.resource.status = some item := by
          rw [storedHealth, ← hsame]
          exact hstored
        exact h.empty ((h.newest item hbefore).trans (congrArg some hid))
      · by_contra hne
        obtain ⟨hmem, hname⟩ := mem_of_storedHealth hstored
        obtain ⟨known, hin, hsame, hsameId⟩ := habout item hmem
        exact hstep hplans hne known hin (hsame.trans hname) (hsameId.trans hid)

/-- An instance that is known is stored under the id it is known by. -/
theorem Identified.stored (h : Identified name t) {d : String} (hd : lastKnownId t.2 = some d)
    {item : InstanceStatus} (hitem : storedHealth name t.1.stored.resource.status = some item) :
    item.dbiResourceId = d := by
  have hhead := h.newest item hitem
  cases hids : t.2 with
  | nil => rw [hids] at hhead; cases hhead
  | cons id rest =>
    rw [hids] at hhead
    cases hhead
    by_cases hempty : item.dbiResourceId = ""
    · have hnone := h.empty (by rw [hids, hempty]; rfl)
      rw [hnone] at hd
      cases hd
    · rw [hids, lastKnownId, List.find?_cons_of_pos (by simpa using hempty)] at hd
      exact Option.some.inj hd

end Identity

/-! ## 3. Whole runs -/

/-- The input without what is stored about instances. -/
def withoutHealth (input : Input) : Input :=
  { input with resource := { input.resource with
      status := { input.resource.status with instances := [] } } }

theorem planEntry_withoutHealth {input : Input} {o : InstanceObservation}
    (h : previousFor input o = none) : planEntry input o = planEntry (withoutHealth input) o := by
  have hnone : previousFor (withoutHealth input) o = none := by
    simp [previousFor, withoutHealth, previousInstanceStatus]
  unfold planEntry
  rw [h, hnone]
  rfl

/-- **A replacement starts over.**  In a run that commits no empty id for an instance that is
known, a plan for another machine of that name is the plan for an instance of which nothing is
stored. -/
theorem replacement_starts_over (name : String) (w : World) (steps : List Step)
    (hsteps : Machine.Along (identifying name) (ObservedWithId name)
      (w, storedIds name w.stored.resource.status) steps) :
    let t := Machine.run (identifying name) (w, storedIds name w.stored.resource.status) steps
    ∀ input o, input.resource = t.1.stored.resource → o.name = name → o.dbiResourceId ≠ "" →
      (∃ d, lastKnownId t.2 = some d ∧ d ≠ o.dbiResourceId) →
      planEntry input o = planEntry (withoutHealth input) o := by
  intro t input o hinput hname hid hknown
  obtain ⟨d, hd, hne⟩ := hknown
  have h : Identified name t :=
    hsteps.invariant (fun t step h hstep => h.next hstep) (identified_start name w)
  refine planEntry_withoutHealth ?_
  unfold previousFor
  rw [hinput, hname]
  cases hstored : (previousInstanceStatus t.1.stored.resource.status.instances)[name]? with
  | none => rfl
  | some item =>
    have hitem : item.dbiResourceId = d := h.stored hd hstored
    have hdne : d ≠ "" := by simpa [lastKnownId] using List.find?_some hd
    have hchanged : physicalIdentityChanged o.dbiResourceId item.dbiResourceId = true := by
      simp [physicalIdentityChanged, hitem, hid, hdne, Ne.symm hne]
    simp [hchanged]

/-- A discovery of the writer `a` and the given readers, with an id for each name that has one. -/
def discoverMachines (readers : List String) (ids : StringMap InstanceMetadata) (now : Int) : Step :=
  .discover (fun resource => .ok (({
    rows := some (.ok (⟨"a", masterSessionID⟩ :: readers.map fun name => ⟨name, "session"⟩))
    metadata := some fun _ => .ok ids } : Provider).discover resource)) now now []

def machineB (id : String) : StringMap InstanceMetadata :=
  (∅ : StringMap InstanceMetadata).insert "b" { instanceName := "b", dbiResourceId := id }

/-- The reader `b` is found healthy as one machine and comes back as another. -/
def replaced : List Step :=
  [discoverMachines ["b"] (machineB "db-1") (10 * second), probeB true (20 * second),
    discoverMachines ["b"] (machineB "db-2") (130 * second)]

/-- The plan for `b` that a failed probe leads to. -/
def failedPlan (resource : PgBouncerAurora) : Input :=
  monitorInput resource ((∅ : StringMap HealthStatus).insert "b" { healthy := false }) false

def observedB (id : String) : InstanceObservation :=
  { name := "b", endpoint := "b.rds", role := .reader, dbiResourceId := id }

theorem replacement_starts_over_example :
    planEntry (failedPlan (reached "db" exampleSpec {} replaced).stored.resource) (observedB "db-2")
      = planEntry (withoutHealth (failedPlan (reached "db" exampleSpec {} replaced).stored.resource))
        (observedB "db-2") := by
  have hrun : Machine.Along (identifying "b") (ObservedWithId "b")
      (World.initial "db" exampleSpec {}, storedIds "b" (World.initial "db" exampleSpec
        {}).stored.resource.status) replaced :=
    ⟨by decide +kernel, by decide +kernel, by decide +kernel, trivial⟩
  have hknown : lastKnownId (Machine.run (identifying "b") (World.initial "db" exampleSpec {},
      storedIds "b" (World.initial "db" exampleSpec {}).stored.resource.status) replaced).2
      = some "db-1" := by decide +kernel
  exact replacement_starts_over "b" _ replaced hrun _ (observedB "db-2") rfl rfl (by decide)
    ⟨"db-1", hknown, by decide⟩

/-- The same, but `b` is missed once, and comes back for the first time without metadata. -/
def replacedUnseen : List Step :=
  [discoverMachines ["b"] (machineB "db-1") (10 * second), probeB true (20 * second),
    discoverMachines [] ∅ (70 * second), discoverMachines ["b"] ∅ (130 * second),
    probeB true (140 * second), discoverMachines ["b"] (machineB "db-2") (190 * second)]

/-- **An empty id carries health over.**  The last two machines were `db-1` and `db-2`.  The first
plan for `db-2` after a failed probe has it healthy, on the credit of `db-1`; without it, the
instance would be unhealthy. -/
theorem empty_id_carries_health :
    let t := Machine.run (identifying "b") (World.initial "db" exampleSpec {}, []) replacedUnseen
    let resource := t.1.stored.resource
    lastKnownId t.2 = some "db-1" ∧
      resource.status.lastKnownTopology.map (fun known => (known.instanceName, known.dbiResourceId))
        = [("a", ""), ("b", "db-2")] ∧
      (planEntry (failedPlan resource) (observedB "db-2")).healthy = true ∧
      (planEntry (withoutHealth (failedPlan resource)) (observedB "db-2")).healthy = false := by
  decide +kernel

end Controller

end AuroraOperator

/-
# The membership decision and its feedback

The decision of one Reconcile reads the decision of the one before, through
`lastAppliedMembership`.  This file asks two questions about the plan after the failover
fast path:

* is it a fixpoint: does the next Reconcile, with everything else unchanged, decide the same
  (`membership_fixpoint_iff`)?
* is its reader fallback still about the writer it names (`reader_fallback_iff`)?

Both hold except in one situation, and it is the same one: the fast path has replaced the
planner's writer.  The planner does not know the new writer, so the next plan drops it; and
the readers were computed before the replacement.
-/
import AuroraOperator.Controller.FinalPlan

namespace AuroraOperator

namespace Controller

open Planner Render

/-! ## 1. The single discovered writer -/

/-- The writers of a topology that have a name. -/
def namedWriters (instances : List InstanceObservation) : List InstanceObservation :=
  instances.filter fun o => o.role = .writer ∧ o.name ≠ ""

/-- Once a writer is found, a second one ends the loop with "". -/
theorem singleDiscoveredWriterFrom_found {writer : String} (hw : writer ≠ "")
    {l : List InstanceObservation} (h : singleDiscoveredWriterFrom writer l ≠ "") :
    singleDiscoveredWriterFrom writer l = writer ∧ namedWriters l = [] := by
  induction l with
  | nil => exact ⟨rfl, rfl⟩
  | cons o l ih =>
    unfold singleDiscoveredWriterFrom at h ⊢
    by_cases hr : o.role = .writer
    · simp [hr, hw] at h
    · rw [if_pos hr] at h ⊢
      obtain ⟨heq, hnone⟩ := ih h
      exact ⟨heq, by simpa [namedWriters, hr] using hnone⟩

/-- **What `singleDiscoveredWriter` answers.**  When it answers at all, there is exactly one
named writer, and the answer is its name. -/
theorem namedWriters_of_single {l : List InstanceObservation}
    (h : singleDiscoveredWriter l ≠ "") :
    (namedWriters l).map (·.name) = [singleDiscoveredWriter l] := by
  unfold singleDiscoveredWriter at h ⊢
  induction l with
  | nil => exact absurd rfl h
  | cons o l ih =>
    unfold singleDiscoveredWriterFrom at h ⊢
    by_cases hr : o.role = .writer
    · simp only [hr, ne_eq, not_true_eq_false, if_false] at h ⊢
      by_cases hn : o.name = ""
      · rw [hn] at h ⊢
        simpa [namedWriters, hr, hn] using ih h
      · obtain ⟨heq, hnone⟩ := singleDiscoveredWriterFrom_found hn h
        rw [heq]
        simpa [namedWriters, hr, hn] using hnone
    · rw [if_pos hr] at h ⊢
      simpa [namedWriters, hr] using ih h

/-- The single discovered writer is a discovered writer. -/
theorem exists_single_writer {l : List InstanceObservation} (h : singleDiscoveredWriter l ≠ "") :
    ∃ o ∈ l, o.role = .writer ∧ o.name = singleDiscoveredWriter l := by
  have hmem : singleDiscoveredWriter l ∈ (namedWriters l).map (·.name) := by
    rw [namedWriters_of_single h]
    exact List.mem_singleton_self _
  obtain ⟨o, ho, hname⟩ := List.mem_map.mp hmem
  obtain ⟨hol, hp⟩ := List.mem_filter.mp ho
  exact ⟨o, hol, (of_decide_eq_true hp).1, hname⟩

theorem sameStringSet_singleton {l : List String} {w : String} :
    sameStringSet l [w] = true ↔ l = [w] := by
  match l with
  | [] => simp [sameStringSet]
  | [x] => simpa [sameStringSet] using eq_comm
  | x :: y :: l => simp [sameStringSet]

/-! ## 2. Cached health -/

/-- Of several entries of one name, the last one counts. -/
theorem getElem?_previousInstanceStatus (items : List InstanceStatus) (name : String) :
    (previousInstanceStatus items)[name]?
      = if name = "" then none else items.reverse.find? (·.instanceName = name) := by
  induction items using List.reverseRecOn with
  | nil => simp [previousInstanceStatus]
  | append_singleton items item ih =>
    have hstep : previousInstanceStatus (items ++ [item]) = if item.instanceName ≠ "" then
        (previousInstanceStatus items).insert item.instanceName item
        else previousInstanceStatus items := by
      simp [previousInstanceStatus]
    rw [hstep, List.reverse_append, List.reverse_singleton, List.singleton_append, List.find?_cons]
    by_cases hitem : item.instanceName = name
    · subst hitem
      by_cases hne : item.instanceName = ""
      · rw [if_neg (not_not_intro hne), ih, if_pos hne, if_pos hne]
      · simp [hne]
    · rw [show decide (item.instanceName = name) = false by simpa using hitem]
      dsimp only
      rw [← ih]
      split
      · rw [Std.ExtTreeMap.getElem?_insert, if_neg (by simpa using hitem)]
      · rfl

theorem previousInstanceStatus_named {items : List InstanceStatus} {name : String}
    {p : InstanceStatus} (h : (previousInstanceStatus items)[name]? = some p) : name ≠ "" := by
  rintro rfl
  rw [getElem?_previousInstanceStatus, if_pos rfl] at h
  cases h

/-- With cached health, only a named instance can be healthy. -/
theorem named_of_cached_healthy {input : Input} (hc : input.cachedHealth = true)
    {o : InstanceObservation} (h : (planEntry input o).healthy = true) : o.name ≠ "" := by
  have hen := not_disabled_of_healthy input h
  unfold planEntry at h
  simp only [hen, Bool.false_eq_true, if_false, hc, if_true] at h
  unfold applyCachedHealth previousFor at h
  cases hp : (previousInstanceStatus input.resource.status.instances)[o.name]? with
  | none => simp [hp] at h
  | some p => exact previousInstanceStatus_named hp

section SingleWriter

variable {input : Input}

variable (input) in
/-- Next to a single discovered writer there is no other healthy one. -/
theorem healthyWriters_of_single (hc : input.cachedHealth = true)
    (hw : singleDiscoveredWriter input.discovered ≠ "") :
    healthyMembers input .writer = [] ∨
      healthyMembers input .writer = [singleDiscoveredWriter input.discovered] := by
  have hsub : (healthyNames input .writer input.discovered).Sublist
      [singleDiscoveredWriter input.discovered] := by
    rw [← namedWriters_of_single hw]
    refine List.Sublist.map _ ?_
    unfold namedWriters
    refine List.monotone_filter_right _ ?_
    intro o ho
    rw [Bool.and_eq_true, decide_eq_true_eq] at ho
    exact decide_eq_true ⟨ho.1, named_of_cached_healthy hc ho.2⟩
  rcases List.sublist_singleton.mp hsub with hnil | hone
  · left; simp [healthyMembers, hnil]
  · right; rw [healthyMembers, hone]; rfl

theorem decidedWriter_of_healthy {w : String} (h : healthyMembers input .writer = [w]) :
    decidedWriter input = [w] := by
  simp [decidedWriter, h]

theorem decidedWriter_of_no_healthy (h : healthyMembers input .writer = []) :
    decidedWriter input = (lastWriter input).filter (retainable input) := by
  simp [decidedWriter, h]

theorem mem_healthyMembers {role : Role} {x : String} :
    x ∈ healthyMembers input role ↔
      ∃ o ∈ input.discovered, o.role = role ∧ (planEntry input o).healthy = true ∧ o.name = x := by
  simp only [healthyMembers, healthyNames, mem_sortStrings, List.mem_map, List.mem_filter,
    Bool.and_eq_true, decide_eq_true_eq, and_assoc]

/-- The decided writers are all healthy, or none is and they are all retained. -/
theorem decidedWriter_cases (input : Input) :
    (∀ x ∈ decidedWriter input, x ∈ healthyMembers input .writer) ∨
      (healthyMembers input .writer = [] ∧ ∀ x ∈ decidedWriter input,
        x ∈ lastWriter input ∧ retainable input x = true) := by
  unfold decidedWriter
  dsimp only
  split
  · exact Or.inl fun x hx => hx
  · split
    · left
      split
      · exact fun x hx => stringSet_iff.mp (List.mem_filter.mp hx).2
      · intro x hx; cases hx
    · right
      exact ⟨List.eq_nil_of_length_eq_zero (by omega), fun x hx => List.mem_filter.mp hx⟩

end SingleWriter

/-! ## 3. When the fast path acts -/

/-- The fast path replaces the planned writer. -/
def fastPathSwitches (resource : PgBouncerAurora) (discovery : DiscoveryResult)
    (readyCounts : StringMap Int32) (plan : Output) : Bool :=
  match failoverCandidate resource discovery plan with
  | none => false
  | some newWriter => readyCounts[newWriter]?.getD 0 ≠ 0

section FastPath

variable {resource : PgBouncerAurora} {discovery : DiscoveryResult}
  {readyCounts : StringMap Int32} {plan : Output}

theorem failoverCandidate_eq_some {w : String} :
    failoverCandidate resource discovery plan = some w ↔
      plan.frozen = false ∧ discovery.trusted = true ∧
      w = singleDiscoveredWriter discovery.instances ∧ w ≠ "" ∧
      resource.status.lastAppliedMembership.writer ≠ [w] ∧
      resource.status.lastAppliedMembership.writer ≠ [] ∧
      instanceDisabled resource.spec.pgbouncer w = false ∧ plan.membership.writer ≠ [w] := by
  have hset : ∀ l : List String, sameStringSet l [singleDiscoveredWriter discovery.instances]
      = decide (l = [singleDiscoveredWriter discovery.instances]) := by
    intro l
    rw [Bool.eq_iff_iff, sameStringSet_singleton, decide_eq_true_eq]
  unfold failoverCandidate
  simp only [hset, List.length_eq_zero_iff, Bool.or_eq_true, Bool.not_eq_true', decide_eq_true_eq]
  constructor
  · intro h
    split at h
    · cases h
    · split at h
      · cases h
      · split at h
        · cases h
        · split at h
          · cases h
          · cases h
            simp_all
  · rintro ⟨hf, ht, rfl, hne, hlast, hnil, hen, hplan⟩
    simp [hf, ht, hne, hlast, hnil, hen, hplan]

/-- When it does not act, the fast path returns the plan it was given. -/
theorem fastPath_of_not_switches (h : fastPathSwitches resource discovery readyCounts plan = false) :
    applyWriterFailoverFastPath resource discovery readyCounts plan = plan := by
  unfold fastPathSwitches at h
  unfold applyWriterFailoverFastPath
  split
  · rfl
  · rename_i w hw
    rw [hw] at h
    simp only [ne_eq, decide_not, Bool.not_eq_false', decide_eq_true_eq] at h
    rw [if_pos h]

/-- When it acts, the writer is the single discovered one and the readers stay. -/
theorem fastPath_of_switches (h : fastPathSwitches resource discovery readyCounts plan = true) :
    (applyWriterFailoverFastPath resource discovery readyCounts plan).membership
      = ⟨[singleDiscoveredWriter discovery.instances], plan.membership.reader⟩ := by
  unfold fastPathSwitches at h
  unfold applyWriterFailoverFastPath
  split
  · rename_i hnone
    rw [hnone] at h
    cases h
  · rename_i w hw
    rw [hw] at h
    obtain ⟨-, -, rfl, -⟩ := failoverCandidate_eq_some.mp hw
    rw [if_neg (by simpa using h)]
    rfl

theorem fastPath_frame :
    (applyWriterFailoverFastPath resource discovery readyCounts plan).frozen = plan.frozen ∧
    (applyWriterFailoverFastPath resource discovery readyCounts plan).membership.reader
      = plan.membership.reader ∧
    (applyWriterFailoverFastPath resource discovery readyCounts plan).readerFallbackSuppressed
      = plan.readerFallbackSuppressed := by
  unfold applyWriterFailoverFastPath
  split
  · exact ⟨rfl, rfl, rfl⟩
  · dsimp only
    split <;> exact ⟨rfl, rfl, rfl⟩

/-- What an entry says about where its instance stands: the observation, and whether the spec
disables it. -/
def standing (entry : InstancePlan) : InstanceObservation × Bool :=
  (entry.toInstanceObservation, entry.disabled)

theorem fastPath_standing :
    (applyWriterFailoverFastPath resource discovery readyCounts plan).instances.map standing
      = plan.instances.map standing := by
  unfold applyWriterFailoverFastPath
  split
  · rfl
  · dsimp only
    split
    · rfl
    · rw [switchWriter, List.map_map]
      refine List.map_congr_left fun entry _ => ?_
      rw [Function.comp_apply, raiseReadyReplicas]
      split <;> rfl

theorem scheduledPlan_standing {missing : List MissingInstanceStatus} {pods : List Pod}
    (ht : discovery.trusted = true) :
    ((scheduledPlan resource discovery missing pods).instances.map standing).Perm
      (discovery.instances.map fun o => (o, instanceDisabled resource.spec.pgbouncer o.name)) := by
  have hentry : standing ∘ planEntry (scheduledInput resource discovery missing)
      = fun o => (o, instanceDisabled resource.spec.pgbouncer o.name) := by
    funext o
    rw [Function.comp_apply, standing, planEntry_observation, planEntry_disabled]
    rfl
  rw [scheduledPlan, fastPath_standing,
    (@plan_trusted (scheduledInput resource discovery missing) ht).2.1, ← hentry, ← List.map_map]
  exact (List.perm_insertionSort _ _).map _

theorem fastPathSwitches_iff :
    fastPathSwitches resource discovery readyCounts plan = true ↔
      ∃ w, failoverCandidate resource discovery plan = some w ∧ readyCounts[w]?.getD 0 ≠ 0 := by
  unfold fastPathSwitches
  cases failoverCandidate resource discovery plan with
  | none => simp
  | some w => simp

end FastPath

/-! ## 4. Is the decision a fixpoint? -/

/-- The same instances behind both Services.  Membership is a set: it is written to the pods
as labels, and neither order nor repetition of a name shows there. -/
def SameMembers (a b : MembershipStatus) : Prop :=
  (∀ x, x ∈ a.writer ↔ x ∈ b.writer) ∧ (∀ x, x ∈ a.reader ↔ x ∈ b.reader)

theorem SameMembers.of_eq {a b : MembershipStatus} (h : a = b) : SameMembers a b := by
  subst h
  exact ⟨fun _ => Iff.rfl, fun _ => Iff.rfl⟩

/-- The resource after `updateStatus` has committed a membership, everything else equal. -/
def commitMembership (resource : PgBouncerAurora) (membership : MembershipStatus) :
    PgBouncerAurora :=
  { resource with status := { resource.status with lastAppliedMembership := membership } }

/-- No instance is missing and discovered at once. -/
def MissingDisjoint (missing : List MissingInstanceStatus)
    (discovered : List InstanceObservation) : Prop :=
  ∀ m ∈ missing, ∀ o ∈ discovered, m.instanceName ≠ o.name

/-- The instances whose stored health makes them writers. -/
def healthyWriters (resource : PgBouncerAurora) (discovery : DiscoveryResult) : List String :=
  healthyMembers (scheduledInput resource discovery []) .writer

/-- The failover the fast path is for: one discovered writer that is not the last applied
one, is enabled, has a ready pod and is not yet healthy by its stored health. -/
def failoverPending (resource : PgBouncerAurora) (discovery : DiscoveryResult) (pods : List Pod) :
    Bool :=
  let newWriter := singleDiscoveredWriter discovery.instances
  let last := resource.status.lastAppliedMembership.writer
  newWriter ≠ "" && last ≠ [] && last ≠ [newWriter] &&
    !instanceDisabled resource.spec.pgbouncer newWriter &&
    !(healthyWriters resource discovery).contains newWriter &&
    (readyPodCounts pods)[newWriter]?.getD 0 ≠ 0

section Fixpoint

variable {resource : PgBouncerAurora} {discovery : DiscoveryResult}
  {missing : List MissingInstanceStatus} {pods : List Pod}

/-- The loop reads neither the last applied membership nor the missing list. -/
theorem healthyMembers_congr (membership : MembershipStatus)
    (missing missing' : List MissingInstanceStatus) (role : Role) :
    healthyMembers (scheduledInput (commitMembership resource membership) discovery missing) role
      = healthyMembers (scheduledInput resource discovery missing') role := rfl

theorem fallbackSuppressed_congr (membership : MembershipStatus) :
    fallbackSuppressed (scheduledInput (commitMembership resource membership) discovery missing)
      = fallbackSuppressed (scheduledInput resource discovery missing) := by
  have hentry : ∀ acc o, planObserved
      (scheduledInput (commitMembership resource membership) discovery missing) acc o
      = planObserved (scheduledInput resource discovery missing) acc o := fun _ _ => rfl
  unfold fallbackSuppressed
  rw [funext₂ hentry]
  rfl

/-- A discovered name is not retained as a missing one. -/
theorem not_retainable_of_discovered (hdisj : MissingDisjoint missing discovery.instances)
    {o : InstanceObservation} (ho : o ∈ discovery.instances) :
    retainable (scheduledInput resource discovery missing) o.name = false := by
  rw [Bool.eq_false_iff]
  intro hret
  unfold retainable at hret
  rw [Bool.and_eq_true, List.any_eq_true] at hret
  obtain ⟨⟨m, hm, hp⟩, -⟩ := hret
  simp only [decide_not, Bool.and_eq_true, decide_eq_true_eq] at hp
  exact hdisj m hm o ho hp.1.1

theorem trusted_input (ht : discovery.trusted = true) :
    (scheduledInput resource discovery missing).discoveryTrusted = true := ht

/-- A single discovered writer that is not healthy leaves no healthy writer at all. -/
theorem healthyMembers_eq_nil (hne : singleDiscoveredWriter discovery.instances ≠ "")
    (h : singleDiscoveredWriter discovery.instances ∉ healthyWriters resource discovery) :
    healthyMembers (scheduledInput resource discovery missing) .writer = [] := by
  rcases healthyWriters_of_single (scheduledInput resource discovery missing) rfl hne
    with hH | hH
  · exact hH
  · refine absurd ?_ h
    have hhw : healthyWriters resource discovery
      = healthyMembers (scheduledInput resource discovery missing) .writer := rfl
    rw [hhw, hH]
    exact List.mem_singleton_self _

variable (resource pods) in
/-- `failoverPending` is when the fast path acts. -/
theorem fastPathSwitches_eq_failoverPending (ht : discovery.trusted = true)
    (hdisj : MissingDisjoint missing discovery.instances) :
    fastPathSwitches resource discovery (readyPodCounts pods)
      (plan (scheduledInput resource discovery missing))
      = failoverPending resource discovery pods := by
  rw [Bool.eq_iff_iff, fastPathSwitches_iff]
  unfold failoverPending
  simp only [failoverCandidate_eq_some, plan_not_frozen (trusted_input ht),
    plan_membership_writer (trusted_input ht), ne_eq, decide_not, Bool.and_eq_true,
    Bool.not_eq_true', decide_eq_false_iff_not, true_and, ht, List.contains_eq_mem]
  -- with a single discovered writer, "planned" and "healthy" are the same for it
  have key : ∀ w, w = singleDiscoveredWriter discovery.instances → w ≠ "" →
      (decidedWriter (scheduledInput resource discovery missing) = [w] ↔
        w ∈ healthyWriters resource discovery) := by
    rintro w rfl hne
    have hcases := healthyWriters_of_single (scheduledInput resource discovery missing)
      rfl hne
    have hhw : healthyWriters resource discovery
        = healthyMembers (scheduledInput resource discovery missing) .writer := rfl
    rw [hhw]
    rcases hcases with hnil | hone
    · obtain ⟨o, ho, -, hname⟩ := exists_single_writer hne
      rw [decidedWriter_of_no_healthy hnil, hnil]
      constructor
      · intro hdec
        have hmem : singleDiscoveredWriter discovery.instances ∈ (lastWriter
            (scheduledInput resource discovery missing)).filter
            (retainable (scheduledInput resource discovery missing)) := by
          rw [hdec]; exact List.mem_singleton_self _
        have hret := (List.mem_filter.mp hmem).2
        rw [← hname, not_retainable_of_discovered hdisj ho] at hret
        cases hret
      · intro hmem; cases hmem
    · rw [decidedWriter_of_healthy hone, hone]
      exact ⟨fun _ => List.mem_singleton_self _, fun _ => rfl⟩
  constructor
  · rintro ⟨w, ⟨rfl, hne, hlast, hnil, hen, hplan⟩, hready⟩
    exact ⟨⟨⟨⟨⟨hne, hnil⟩, hlast⟩, hen⟩, fun h => hplan ((key _ rfl hne).mpr h)⟩, hready⟩
  · rintro ⟨⟨⟨⟨⟨hne, hnil⟩, hlast⟩, hen⟩, hhealthy⟩, hready⟩
    exact ⟨_, ⟨rfl, hne, hlast, hnil, hen, fun h => hhealthy ((key _ rfl hne).mp h)⟩, hready⟩

/-- The writer decision, repeated on its own outcome. -/
theorem decidedWriter_idem {membership : MembershipStatus}
    (hw : membership.writer = decidedWriter (scheduledInput resource discovery missing)) :
    decidedWriter (scheduledInput (commitMembership resource membership) discovery missing)
      = decidedWriter (scheduledInput resource discovery missing) := by
  have hlast : lastWriter (scheduledInput (commitMembership resource membership) discovery missing)
      = decidedWriter (scheduledInput resource discovery missing) := hw
  conv_lhs => unfold decidedWriter
  simp only [hlast, healthyMembers_congr membership missing missing]
  have hret : (retainable (scheduledInput (commitMembership resource membership) discovery missing))
      = retainable (scheduledInput resource discovery missing) := rfl
  rw [hret]
  unfold decidedWriter
  dsimp only
  split
  · rfl
  · split
    · split
      · rename_i hone
        rw [List.filter_filter]
        simp only [Bool.and_self, hone, if_true]
      · rfl
    · rw [List.filter_filter]
      simp only [Bool.and_self]

/-- The readers that are there after the decision has been committed. -/
theorem mem_presentReaders_commit {membership : MembershipStatus} {x : String} :
    x ∈ presentReaders (scheduledInput (commitMembership resource membership) discovery missing) ↔
      x ∈ healthyMembers (scheduledInput resource discovery missing) .reader ∨
      (x ∈ membership.reader ∧
        retainable (scheduledInput resource discovery missing) x = true) :=
  mem_presentReaders _

/-- The reader decision, repeated on its own outcome, names the same instances. -/
theorem mem_decidedReader_idem (hdisj : MissingDisjoint missing discovery.instances)
    {membership : MembershipStatus}
    (hw : membership.writer = decidedWriter (scheduledInput resource discovery missing))
    (hr : membership.reader = decidedReader (scheduledInput resource discovery missing))
    (x : String) :
    x ∈ decidedReader (scheduledInput (commitMembership resource membership) discovery missing) ↔
      x ∈ decidedReader (scheduledInput resource discovery missing) := by
  set I := scheduledInput resource discovery missing with hI
  set I' := scheduledInput (commitMembership resource membership) discovery missing with hI'
  have hsup : fallbackSuppressed I' = fallbackSuppressed I := fallbackSuppressed_congr membership
  have hfb : readerEmptyFallbackEnabled I'.resource = readerEmptyFallbackEnabled I.resource := rfl
  have hdec : decidedWriter I' = decidedWriter I := decidedWriter_idem hw
  by_cases hpres : presentReaders I = []
  · have hHr : healthyMembers I .reader = [] := by
      rw [List.eq_nil_iff_forall_not_mem]
      intro y hy
      have : y ∈ presentReaders I := (mem_presentReaders I).mpr (Or.inl hy)
      rw [hpres] at this
      cases this
    by_cases hpres' : presentReaders I' = []
    · rw [decidedReader, decidedReader, hpres, hpres', hsup, hfb, hdec]
    · -- a retained writer that was also the reader fallback now counts as a retained reader
      obtain ⟨y, hy⟩ := List.exists_mem_of_ne_nil _ hpres'
      have hmem : ∀ z, z ∈ presentReaders I' ↔
          z ∈ decidedReader I ∧ retainable I z = true := by
        intro z
        rw [hI', mem_presentReaders_commit, ← hI, hHr, hr]
        simp
      obtain ⟨hyr, hyret⟩ := (hmem y).mp hy
      have hread : decidedReader I = decidedWriter I := by
        unfold decidedReader at hyr ⊢
        rw [hpres] at hyr ⊢
        simp only [ne_eq, not_true_eq_false, if_false] at hyr ⊢
        split at hyr
        · cases hyr
        · rename_i hns
          rw [if_neg hns]
          split at hyr
          · rename_i hen
            rw [if_pos hen]
          · cases hyr
      have hallret : ∀ z ∈ decidedWriter I, retainable I z = true := by
        rcases decidedWriter_cases I with hall | ⟨-, hall⟩
        · rw [hread] at hyr
          obtain ⟨o, ho, -, -, rfl⟩ := mem_healthyMembers.mp (hall y hyr)
          rw [not_retainable_of_discovered hdisj ho] at hyret
          cases hyret
        · exact fun z hz => (hall z hz).2
      rw [decidedReader, if_pos hpres', hmem, hread]
      exact ⟨fun h => h.1, fun h => ⟨h, hallret x h⟩⟩
  · have hread : decidedReader I = presentReaders I := by rw [decidedReader, if_pos hpres]
    have hmem : ∀ z, z ∈ presentReaders I' ↔ z ∈ presentReaders I := by
      intro z
      rw [hI', mem_presentReaders_commit, ← hI, hr, hread, mem_presentReaders I]
      tauto
    have hpres' : presentReaders I' ≠ [] := by
      obtain ⟨y, hy⟩ := List.exists_mem_of_ne_nil _ hpres
      exact List.ne_nil_of_mem ((hmem y).mpr hy)
    rw [hread, decidedReader, if_pos hpres', hmem]

/-- Without a pending failover, committing the plan leaves none pending either. -/
theorem not_failoverPending_commit {membership : MembershipStatus}
    (hw : membership.writer = decidedWriter (scheduledInput resource discovery missing))
    (h : failoverPending resource discovery pods = false) :
    failoverPending (commitMembership resource membership) discovery pods = false := by
  rw [Bool.eq_false_iff] at h ⊢
  intro h'
  refine h ?_
  have hlast : (commitMembership resource membership).status.lastAppliedMembership.writer
      = decidedWriter (scheduledInput resource discovery missing) := hw
  have hhw : healthyWriters (commitMembership resource membership) discovery
      = healthyWriters resource discovery := rfl
  unfold failoverPending at h' ⊢
  rw [hlast, hhw] at h'
  simp only [ne_eq, decide_not, Bool.and_eq_true, Bool.not_eq_true', decide_eq_false_iff_not,
    List.contains_eq_mem] at h' ⊢
  obtain ⟨⟨⟨⟨⟨hne, hnil⟩, hlastw⟩, hen⟩, hhealthy⟩, hready⟩ := h'
  rw [decidedWriter_of_no_healthy (healthyMembers_eq_nil hne hhealthy)] at hnil hlastw
  refine ⟨⟨⟨⟨⟨hne, ?_⟩, ?_⟩, hen⟩, hhealthy⟩, hready⟩
  · intro hl
    have : lastWriter (scheduledInput resource discovery missing) = [] := hl
    rw [this] at hnil
    exact hnil rfl
  · intro hl
    have : lastWriter (scheduledInput resource discovery missing)
        = [singleDiscoveredWriter discovery.instances] := hl
    rw [this] at hnil hlastw
    rcases List.sublist_singleton.mp (List.filter_sublist
      (p := retainable (scheduledInput resource discovery missing))
      (l := [singleDiscoveredWriter discovery.instances])) with hf | hf
    · exact hnil hf
    · exact hlastw hf

/-- **The decision is a fixpoint unless a failover is pending.**  Committing the membership
of a plan and planning again, with everything else unchanged, gives the same members exactly
when the fast path had nothing to do.  When it had, the writer it switched in is not healthy
yet, so the next plan has no writer at all. -/
theorem membership_fixpoint_iff (resource : PgBouncerAurora) (discovery : DiscoveryResult)
    (missing : List MissingInstanceStatus) (pods : List Pod) (ht : discovery.trusted = true)
    (hdisj : MissingDisjoint missing discovery.instances) :
    SameMembers
        (scheduledPlan (commitMembership resource
          (scheduledPlan resource discovery missing pods).membership)
          discovery missing pods).membership
        (scheduledPlan resource discovery missing pods).membership ↔
      failoverPending resource discovery pods = false := by
  have hswitch := fastPathSwitches_eq_failoverPending resource pods ht hdisj
  cases hpend : failoverPending resource discovery pods with
  | false =>
    rw [hpend] at hswitch
    have hplan : (scheduledPlan resource discovery missing pods).membership
        = ⟨decidedWriter (scheduledInput resource discovery missing),
          decidedReader (scheduledInput resource discovery missing)⟩ := by
      rw [scheduledPlan, fastPath_of_not_switches hswitch, (plan_trusted (trusted_input ht)).1]
    set M := (scheduledPlan resource discovery missing pods).membership with hM
    have hMw : M.writer = decidedWriter (scheduledInput resource discovery missing) := by rw [hplan]
    have hMr : M.reader = decidedReader (scheduledInput resource discovery missing) := by rw [hplan]
    have hswitch' := fastPathSwitches_eq_failoverPending (commitMembership resource M) pods
      ht hdisj
    rw [not_failoverPending_commit hMw hpend] at hswitch'
    have hplan' : (scheduledPlan (commitMembership resource M) discovery missing pods).membership
        = ⟨decidedWriter (scheduledInput (commitMembership resource M) discovery missing),
          decidedReader (scheduledInput (commitMembership resource M) discovery missing)⟩ := by
      rw [scheduledPlan, fastPath_of_not_switches hswitch', (plan_trusted (trusted_input ht)).1]
    refine iff_of_true ⟨?_, ?_⟩ rfl
    · intro x
      rw [hplan', hMw, decidedWriter_idem hMw]
    · intro x
      rw [hplan', hMr]
      exact mem_decidedReader_idem hdisj hMw hMr x
  | true =>
    rw [hpend] at hswitch
    have hplan : (scheduledPlan resource discovery missing pods).membership.writer
        = [singleDiscoveredWriter discovery.instances] := by
      rw [scheduledPlan, fastPath_of_switches hswitch]
    set M := (scheduledPlan resource discovery missing pods).membership with hM
    unfold failoverPending at hpend
    simp only [ne_eq, decide_not, Bool.and_eq_true, Bool.not_eq_true', decide_eq_false_iff_not,
      List.contains_eq_mem] at hpend
    obtain ⟨⟨⟨⟨⟨hne, -⟩, -⟩, -⟩, hhealthy⟩, -⟩ := hpend
    -- the new writer is now the last applied one, so the fast path leaves the next plan alone
    have hswitch' := fastPathSwitches_eq_failoverPending (commitMembership resource M) pods
      ht hdisj
    have hpend' : failoverPending (commitMembership resource M) discovery pods = false := by
      have hlast : (commitMembership resource M).status.lastAppliedMembership.writer
          = [singleDiscoveredWriter discovery.instances] := hplan
      simp [failoverPending, hlast]
    rw [hpend'] at hswitch'
    have hH : healthyMembers (scheduledInput (commitMembership resource M) discovery missing)
        .writer = [] := healthyMembers_eq_nil hne hhealthy
    have hplan' : (scheduledPlan (commitMembership resource M) discovery missing
        pods).membership.writer = [] := by
      rw [scheduledPlan, fastPath_of_not_switches hswitch',
        plan_membership_writer (trusted_input ht), decidedWriter_of_no_healthy hH]
      have hlast : lastWriter (scheduledInput (commitMembership resource M) discovery missing)
          = [singleDiscoveredWriter discovery.instances] := hplan
      obtain ⟨o, ho, -, hname⟩ := exists_single_writer hne
      rw [hlast, ← hname]
      simp [not_retainable_of_discovered hdisj ho]
    refine iff_of_false ?_ (by simp)
    rintro ⟨hsame, -⟩
    have : singleDiscoveredWriter discovery.instances ∈ M.writer := by
      rw [hplan]; exact List.mem_singleton_self _
    rw [← hsame, hplan'] at this
    cases this

end Fixpoint

/-- A failover from `a` to `b`: `b` is discovered as the writer, has a ready pod, and the
monitor has not confirmed it yet. -/
def failoverResource : PgBouncerAurora :=
  { name := "orders"
    status :=
      { lastAppliedMembership := ⟨["a"], ["b"]⟩
        instances := [{ instanceName := "a", role := .writer, healthy := true },
                      { instanceName := "b", role := .reader, healthy := false }] } }

def failoverDiscovery : DiscoveryResult :=
  { trusted := true
    instances := [{ name := "a", role := .reader }, { name := "b", role := .writer }] }

def failoverPods : List Pod :=
  [{ labels := (∅ : StringMap String).insert labelInstance "b", ready := true }]

/-- The fast path puts `b` behind the writer Service, and the next plan takes it out again. -/
theorem fastPath_writer_dropped :
    failoverDiscovery.trusted = true ∧ MissingDisjoint [] failoverDiscovery.instances ∧
    (scheduledPlan failoverResource failoverDiscovery [] failoverPods).membership
      = ⟨["b"], ["a"]⟩ ∧
    (scheduledPlan (commitMembership failoverResource ⟨["b"], ["a"]⟩) failoverDiscovery []
      failoverPods).membership = ⟨[], ["a"]⟩ ∧
    ¬ SameMembers ⟨[], ["a"]⟩ ⟨["b"], ["a"]⟩ := by
  refine ⟨rfl, (by intro m hm; cases hm), by decide, by decide, ?_⟩
  rintro ⟨hw, -⟩
  exact absurd ((hw "b").mpr (List.mem_singleton_self _)) (by simp)

/-- Without a ready pod for `b` nothing is pending, and the decision is stable. -/
theorem membership_fixpoint_without_pods :
    failoverPending failoverResource failoverDiscovery [] = false ∧
    SameMembers
      (scheduledPlan (commitMembership failoverResource
        (scheduledPlan failoverResource failoverDiscovery [] []).membership)
        failoverDiscovery [] []).membership
      (scheduledPlan failoverResource failoverDiscovery [] []).membership := by
  have h : failoverPending failoverResource failoverDiscovery [] = false := by decide
  exact ⟨h, (membership_fixpoint_iff failoverResource failoverDiscovery [] [] rfl
    (by intro m hm; cases hm)).mpr h⟩

/-! ## 5. Reader fallback on the final plan -/

/-- The planner's input for any mode of Reconcile: cached or freshly monitored health. -/
def planInput (resource : PgBouncerAurora) (discovery : DiscoveryResult)
    (health : StringMap HealthStatus) (cachedHealth : Bool)
    (missing : List MissingInstanceStatus) : Input :=
  { resource := resource
    discoveryTrusted := discovery.trusted
    discovered := discovery.instances
    health := health
    cachedHealth := cachedHealth
    missingInstances := missing }

/-- A reader that is there on its own account: discovered and healthy, or missing and
retained from the last applied readers. -/
def ReaderInPlace (input : Input) (x : String) : Prop :=
  x ∈ healthyMembers input .reader ∨ (x ∈ lastReader input ∧ retainable input x = true)

/-- The documented fallback, read off a final plan: with the fallback in force and a writer
at hand there are readers, and readers that are not there on their own account are the
writer. -/
def FallbackHolds (input : Input) (final : Output) : Prop :=
  readerEmptyFallbackEnabled input.resource = true → final.readerFallbackSuppressed = false →
    final.membership.writer ≠ [] →
      final.membership.reader ≠ [] ∧
      ((∀ x ∈ final.membership.reader, ¬ ReaderInPlace input x) →
        final.membership.reader = final.membership.writer)

/-- The fallback is in force: it is enabled, no reader is in place, and it is not the case that
all discovered readers are disabled. -/
def fallbackInForce (input : Input) : Bool :=
  readerEmptyFallbackEnabled input.resource &&
    !(input.discovered.any isReader &&
      input.discovered.all fun o => !isReader o || isDisabledReader input o) &&
    (healthyMembers input .reader).isEmpty && !(lastReader input).any (retainable input)

/-- An instance is the writer by health or by retention: the only healthy one, or the last
applied one among several, or, with none healthy, the only last applied one to be retained. -/
def writerInPlace (input : Input) (name : String) : Bool :=
  match healthyMembers input .writer with
  | [] => (lastWriter input).filter (retainable input) = [name]
  | [healthy] => healthy = name
  | several => (lastWriter input).filter (stringSet several) = [name]

/-- The fast path has something to do: one discovered writer that is not the last applied one, is
enabled, has a ready pod and is not the writer already. -/
def failoverDue (input : Input) (readyCounts : StringMap Int32) : Bool :=
  let newWriter := singleDiscoveredWriter input.discovered
  newWriter ≠ "" && lastWriter input ≠ [] && lastWriter input ≠ [newWriter] &&
    !instanceDisabled input.resource.spec.pgbouncer newWriter &&
    !writerInPlace input newWriter && readyCounts[newWriter]?.getD 0 ≠ 0

section Fallback

variable {input : Input}

/-- What the loop counts, as a statement about the discovered instances. -/
theorem fallbackSuppressed_eq (input : Input) :
    fallbackSuppressed input = (input.discovered.any isReader &&
      input.discovered.all fun o => !isReader o || isDisabledReader input o) := by
  have hsome : (0 < input.discovered.countP isReader) ↔ input.discovered.any isReader = true := by
    rw [List.countP_pos_iff, List.any_eq_true]
  have henabled : input.discovered.countP (fun o => isReader o && !isDisabledReader input o) = 0 ↔
      (input.discovered.all fun o => !isReader o || isDisabledReader input o) = true := by
    rw [List.countP_eq_zero, List.all_eq_true]
    refine forall₂_congr fun o _ => ?_
    cases isReader o <;> cases isDisabledReader input o <;> decide
  -- a disabled reader is a reader, so without enabled ones both counts agree
  have hcount : input.discovered.countP (fun o => isReader o && !isDisabledReader input o) = 0 →
      input.discovered.countP (isDisabledReader input) = input.discovered.countP isReader := by
    intro hzero
    refine List.countP_congr fun o ho => ?_
    have hnot := List.countP_eq_zero.mp hzero o ho
    cases hr : isReader o <;> cases hd : isDisabledReader input o <;>
      simp_all [isDisabledReader, isReader]
  unfold fallbackSuppressed readersSuppressed
  rw [tally_eq, Bool.eq_iff_iff]
  simp only [Nat.zero_add, Bool.and_eq_true, decide_eq_true_eq, gt_iff_lt]
  rw [hsome, henabled]
  exact ⟨fun h => h.1, fun h => ⟨h, hcount (henabled.mpr h.2)⟩⟩

theorem presentReaders_eq_nil (input : Input) :
    presentReaders input = [] ↔
      healthyMembers input .reader = [] ∧ (lastReader input).any (retainable input) = false := by
  constructor
  · intro h
    refine ⟨List.eq_nil_iff_forall_not_mem.mpr fun x hx => ?_, List.any_eq_false.mpr fun x hx hr => ?_⟩
    · have hin := (mem_presentReaders input).mpr (Or.inl hx)
      rw [h] at hin
      cases hin
    · have hin := (mem_presentReaders input).mpr (Or.inr ⟨hx, hr⟩)
      rw [h] at hin
      cases hin
  · rintro ⟨hhealthy, hretained⟩
    refine List.eq_nil_iff_forall_not_mem.mpr fun x hx => ?_
    rcases (mem_presentReaders input).mp hx with hin | ⟨hin, hr⟩
    · rw [hhealthy] at hin
      cases hin
    · exact List.any_eq_false.mp hretained x hin hr

theorem fallbackInForce_iff (input : Input) :
    fallbackInForce input = true ↔ readerEmptyFallbackEnabled input.resource = true ∧
      fallbackSuppressed input = false ∧ presentReaders input = [] := by
  unfold fallbackInForce
  rw [← fallbackSuppressed_eq, presentReaders_eq_nil]
  simp [and_assoc]

theorem writerInPlace_iff {name : String} :
    writerInPlace input name = true ↔ decidedWriter input = [name] := by
  unfold writerInPlace decidedWriter
  cases healthyMembers input .writer with
  | nil => simp
  | cons first rest =>
    cases rest with
    | nil => simp
    | cons second rest =>
      simp only [List.length_cons, decide_eq_true_eq]
      rw [if_neg (by omega), if_pos (by omega)]
      constructor
      · intro h
        rw [h]
        rfl
      · intro h
        split at h
        · exact h
        · cases h

/-- `failoverDue` is when the fast path acts. -/
theorem fastPathSwitches_eq_failoverDue {resource : PgBouncerAurora} {discovery : DiscoveryResult}
    {health : StringMap HealthStatus} {cachedHealth : Bool} {missing : List MissingInstanceStatus}
    {readyCounts : StringMap Int32} (ht : discovery.trusted = true) :
    fastPathSwitches resource discovery readyCounts
        (plan (planInput resource discovery health cachedHealth missing))
      = failoverDue (planInput resource discovery health cachedHealth missing) readyCounts := by
  set input := planInput resource discovery health cachedHealth missing with hinput
  have hti : input.discoveryTrusted = true := ht
  have hplace : ∀ name, writerInPlace input name = false ↔ ¬ decidedWriter input = [name] := by
    intro name
    rw [← Bool.not_eq_true, writerInPlace_iff]
  rw [Bool.eq_iff_iff, fastPathSwitches_iff]
  unfold failoverDue
  simp only [failoverCandidate_eq_some, plan_not_frozen hti, plan_membership_writer hti, ne_eq,
    decide_not, Bool.and_eq_true, Bool.not_eq_true', decide_eq_false_iff_not, true_and, ht, hplace]
  constructor
  · rintro ⟨w, ⟨rfl, hne, hlast, hnil, hen, hplan⟩, hready⟩
    exact ⟨⟨⟨⟨⟨hne, hnil⟩, hlast⟩, hen⟩, hplan⟩, hready⟩
  · rintro ⟨⟨⟨⟨⟨hne, hnil⟩, hlast⟩, hen⟩, hplan⟩, hready⟩
    exact ⟨_, ⟨rfl, hne, hlast, hnil, hen, hplan⟩, hready⟩

theorem presentReaders_in_place : ∀ x ∈ presentReaders input, ReaderInPlace input x :=
  fun _ hx => (mem_presentReaders input).mp hx

/-- A plan whose writer is still the planner's satisfies the fallback rule. -/
theorem fallbackHolds_of_planned {final : Output}
    (hw : final.membership.writer = decidedWriter input)
    (hr : final.membership.reader = decidedReader input)
    (hs : final.readerFallbackSuppressed = fallbackSuppressed input) :
    FallbackHolds input final := by
  intro hen hsup hne
  rw [hs] at hsup
  by_cases hpres : presentReaders input = []
  · have hread : decidedReader input = decidedWriter input := by
      simp [decidedReader, hpres, hsup, hen]
    rw [hr, hread, ← hw]
    exact ⟨hne, fun _ => rfl⟩
  · have hread : decidedReader input = presentReaders input := by
      simp [decidedReader, hpres]
    rw [hr, hread]
    refine ⟨hpres, fun hnone => ?_⟩
    obtain ⟨y, hy⟩ := List.exists_mem_of_ne_nil _ hpres
    exact absurd (presentReaders_in_place y hy) (hnone y hy)

/-- Readers that are there on their own account need no fallback, whatever the writer. -/
theorem fallbackHolds_of_readers {final : Output} (hpres : presentReaders input ≠ [])
    (hr : final.membership.reader = presentReaders input) : FallbackHolds input final := by
  intro _ _ _
  rw [hr]
  refine ⟨hpres, fun hnone => ?_⟩
  obtain ⟨y, hy⟩ := List.exists_mem_of_ne_nil _ hpres
  exact absurd (presentReaders_in_place y hy) (hnone y hy)

end Fallback

/-- **Reader fallback survives everything but the fast path.**  The final plan keeps the
documented rule exactly when it is not the case that the fallback is in force and a failover is
due, in which the fast path replaces the writer that the readers were taken from. -/
theorem reader_fallback_iff (resource : PgBouncerAurora) (discovery : DiscoveryResult)
    (health : StringMap HealthStatus) (cachedHealth : Bool)
    (missing : List MissingInstanceStatus) (readyCounts : StringMap Int32)
    (ht : discovery.trusted = true) :
    FallbackHolds (planInput resource discovery health cachedHealth missing)
        (applyWriterFailoverFastPath resource discovery readyCounts
          (plan (planInput resource discovery health cachedHealth missing))) ↔
      ¬ (fallbackInForce (planInput resource discovery health cachedHealth missing) = true ∧
        failoverDue (planInput resource discovery health cachedHealth missing) readyCounts
          = true) := by
  rw [← fastPathSwitches_eq_failoverDue ht, fallbackInForce_iff]
  set input := planInput resource discovery health cachedHealth missing with hinput
  have hti : input.discoveryTrusted = true := ht
  obtain ⟨hm, -, -, hs⟩ := plan_trusted hti
  obtain ⟨-, hfr, hfs⟩ := @fastPath_frame resource discovery readyCounts (plan input)
  replace hfr := hfr.trans (congrArg MembershipStatus.reader hm)
  rw [hs] at hfs
  cases hsw : fastPathSwitches resource discovery readyCounts (plan input) with
  | false =>
    rw [fastPath_of_not_switches hsw]
    exact iff_of_true (fallbackHolds_of_planned (by rw [hm]) (by rw [hm]) hs) (by simp)
  | true =>
    by_cases hpres : presentReaders input = []
    · cases hen : readerEmptyFallbackEnabled input.resource with
      | false =>
        refine iff_of_true (fun h => ?_) (by simp)
        rw [hen] at h
        cases h
      | true =>
        cases hsup : fallbackSuppressed input with
        | true =>
          refine iff_of_true (fun _ h => ?_) (by simp)
          rw [hfs, hsup] at h
          cases h
        | false =>
          -- the readers are the planner's writer, which is not the writer any more
          obtain ⟨w, hcand, -⟩ := fastPathSwitches_iff.mp hsw
          obtain ⟨-, -, rfl, -, -, -, -, hplan⟩ := failoverCandidate_eq_some.mp hcand
          have hfw : (applyWriterFailoverFastPath resource discovery readyCounts
              (plan input)).membership.writer = [singleDiscoveredWriter discovery.instances] := by
            rw [fastPath_of_switches hsw]
          have hread : decidedReader input = (plan input).membership.writer := by
            simp [decidedReader, hpres, hsup, hen, hm]
          refine iff_of_false (fun h => ?_) (by simp [hpres])
          obtain ⟨-, hrw⟩ := h hen (hfs.trans hsup) (by rw [hfw]; simp)
          refine hplan ?_
          rw [← hread, ← hfw]
          refine hfr.symm.trans (hrw fun x hx hin => ?_)
          have : x ∈ presentReaders input := (mem_presentReaders input).mpr hin
          rw [hpres] at this
          cases this
    · refine iff_of_true (fallbackHolds_of_readers hpres ?_) (by simp [hpres])
      rw [hfr]
      simp [decidedReader, hpres]

/-- The same failover after `a` has gone missing: no reader is left, and the planner falls
back to `a`, which it still retains as the writer. -/
def missingWriterResource : PgBouncerAurora :=
  { name := "orders"
    status := { lastAppliedMembership := ⟨["a"], ["b"]⟩ } }

def missingWriterDiscovery : DiscoveryResult :=
  { trusted := true, instances := [{ name := "b", role := .writer }] }

def missingWriterInput : Input :=
  planInput missingWriterResource missingWriterDiscovery ∅ true
    [{ instanceName := "a", missingCount := 1 }]

/-- The final plan has the writer `b` and the reader `a`, which it has just dropped. -/
theorem fallback_names_dropped_writer :
    missingWriterDiscovery.trusted = true ∧
    (applyWriterFailoverFastPath missingWriterResource missingWriterDiscovery
      (readyPodCounts failoverPods) (plan missingWriterInput)).membership = ⟨["b"], ["a"]⟩ ∧
    ¬ FallbackHolds missingWriterInput
      (applyWriterFailoverFastPath missingWriterResource missingWriterDiscovery
        (readyPodCounts failoverPods) (plan missingWriterInput)) := by
  refine ⟨rfl, by decide, fun h => ?_⟩
  obtain ⟨-, hrw⟩ := h (by decide) (by decide) (by decide)
  refine absurd (hrw ?_) (by decide)
  intro x hx hin
  exact absurd ((mem_presentReaders _).mpr hin) (by
    have hnil : presentReaders missingWriterInput = [] := by decide
    rw [hnil]
    simp)

/-- Without a ready pod for `b` the fast path stays out and the rule holds. -/
theorem reader_fallback_without_pods :
    missingWriterDiscovery.trusted = true ∧
    FallbackHolds missingWriterInput
      (applyWriterFailoverFastPath missingWriterResource missingWriterDiscovery ∅
        (plan missingWriterInput)) :=
  ⟨rfl, (reader_fallback_iff missingWriterResource missingWriterDiscovery ∅ true
    [{ instanceName := "a", missingCount := 1 }] ∅ rfl).mpr (by decide)⟩

end Controller

end AuroraOperator

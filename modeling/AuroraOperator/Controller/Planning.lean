/-
# What a trusted plan is

Two facts about `planner.Plan` that the rest of the operator takes for granted.

* `trusted_membership`: the membership of a trusted plan is a function of four sets of names: the
  healthy writers and readers, and the last applied ones that went missing a moment ago.  The loop,
  the three corrections and their order do not show in it.
* `cached_plan_eq`: a Reconcile acts on a plan over stored health.  That plan is the one the
  monitor job made when it stored the health, and planning again does not change it.
-/
import AuroraOperator.Controller.Decision
import AuroraOperator.Controller.StatusWriters

namespace AuroraOperator

namespace Controller

open Planner

/-! ## 1. The four sets -/

/-- Names are not repeated, and no instance is missing and discovered at once. -/
structure WellPosed (input : Input) : Prop where
  trusted : input.discoveryTrusted = true
  discovered : (input.discovered.map (·.name)).Nodup
  writer : (lastWriter input).Nodup
  reader : (lastReader input).Nodup
  missing : (input.missingInstances.map (·.instanceName)).Nodup
  named : ∀ m ∈ input.missingInstances, m.instanceName ≠ ""
  disjoint : MissingDisjoint input.missingInstances input.discovered

/-- An enabled discovered instance of the role whose plan entry is healthy. -/
def HealthyMember (input : Input) (role : Role) (x : String) : Prop :=
  ∃ o ∈ input.discovered, o.name = x ∧ o.role = role ∧
    instanceDisabled input.resource.spec.pgbouncer x = false ∧
    ∃ entry ∈ (plan input).instances, entry.name = x ∧ entry.healthy = true

/-- An enabled instance that is missing, for less than the threshold. -/
def MissingMember (input : Input) (x : String) : Prop :=
  instanceDisabled input.resource.spec.pgbouncer x = false ∧
    ∃ m ∈ input.missingInstances, m.instanceName = x ∧
      m.missingCount < missingThreshold input.resource

instance (input : Input) : DecidablePred (MissingMember input) := fun _ =>
  inferInstanceAs (Decidable (_ ∧ ∃ m ∈ _, _))

/-- Some reader is discovered, and all discovered readers are disabled. -/
def AllReadersDisabled (input : Input) : Prop :=
  (∃ o ∈ input.discovered, o.role = .reader) ∧
    ∀ o ∈ input.discovered, o.role = .reader →
      instanceDisabled input.resource.spec.pgbouncer o.name = true

instance (input : Input) : Decidable (AllReadersDisabled input) :=
  inferInstanceAs (Decidable ((∃ o ∈ _, _) ∧ ∀ o ∈ _, _))

section Membership

variable {input : Input}

theorem WellPosed.mem_healthyMembers_iff (h : WellPosed input) {role : Role} {x : String} :
    x ∈ healthyMembers input role ↔ HealthyMember input role x := by
  rw [mem_healthyMembers]
  unfold HealthyMember
  rw [(plan_trusted h.trusted).2.1]
  have hperm : (sortInstancePlans (input.discovered.map (planEntry input))).Perm
      (input.discovered.map (planEntry input)) := List.perm_insertionSort _ _
  constructor
  · rintro ⟨o, ho, hrole, hhealthy, rfl⟩
    exact ⟨o, ho, rfl, hrole, not_disabled_of_healthy input hhealthy, planEntry input o,
      hperm.mem_iff.mpr (List.mem_map_of_mem ho), planEntry_name input o, hhealthy⟩
  · rintro ⟨o, ho, rfl, hrole, -, entry, hentry, hname, hhealthy⟩
    obtain ⟨o', ho', rfl⟩ := List.mem_map.mp (hperm.mem_iff.mp hentry)
    -- the entry of that name was made from this very observation
    rw [planEntry_name] at hname
    obtain rfl := List.inj_on_of_nodup_map h.discovered ho' ho hname
    exact ⟨o', ho', hrole, hhealthy, rfl⟩

theorem WellPosed.retainable_iff (h : WellPosed input) {x : String} :
    retainable input x = true ↔ MissingMember input x := by
  unfold retainable MissingMember
  rw [Bool.and_eq_true, List.any_eq_true]
  constructor
  · rintro ⟨⟨m, hm, hp⟩, henabled⟩
    simp only [decide_not, Bool.and_eq_true, decide_eq_true_eq] at hp
    exact ⟨by simpa using henabled, m, hm, hp.1.1, hp.2⟩
  · rintro ⟨henabled, m, hm, rfl, hcount⟩
    exact ⟨⟨m, hm, by simp [h.named m hm, hcount]⟩, by simp [henabled]⟩

theorem WellPosed.retained_eq (h : WellPosed input) (last : List String) :
    last.filter (retainable input) = last.filter (MissingMember input ·) := by
  refine List.filter_congr fun x _ => ?_
  rw [Bool.eq_iff_iff, h.retainable_iff, decide_eq_true_eq]

theorem fallbackSuppressed_iff : fallbackSuppressed input = true ↔ AllReadersDisabled input := by
  rw [fallbackSuppressed_eq, Bool.and_eq_true, List.any_eq_true, List.all_eq_true]
  unfold AllReadersDisabled isReader isDisabledReader
  refine and_congr (exists_congr fun o => by simp) (forall₂_congr fun o _ => ?_)
  by_cases hrole : o.role = .reader <;> simp [hrole]

theorem WellPosed.nodup_healthyMembers (h : WellPosed input) (role : Role) :
    (healthyMembers input role).Nodup :=
  sortStrings_nodup.mpr (h.discovered.sublist (List.filter_sublist.map _))

theorem WellPosed.nodup_presentReaders (h : WellPosed input) : (presentReaders input).Nodup := by
  refine sortStrings_nodup.mpr (List.nodup_append.mpr ⟨h.nodup_healthyMembers .reader, ?_, ?_⟩)
  · exact h.missing.sublist (List.filter_sublist.map _)
  · rintro x hx y hy rfl
    exact ((mem_preservedMissingReaders input).mp hy).2.1 hx

/-! ## 2. The writer -/

theorem eq_singleton_iff {l : List String} (hnodup : l.Nodup) {w : String} :
    l = [w] ↔ ∀ x, x ∈ l ↔ x = w := by
  constructor
  · rintro rfl x
    exact List.mem_singleton
  · intro h
    exact List.perm_singleton.mp ((List.perm_ext_iff_of_nodup hnodup (List.nodup_singleton w)).mpr
      fun x => (h x).trans List.mem_singleton.symm)

theorem length_eq_one_iff_existsUnique {l : List String} (hnodup : l.Nodup) :
    l.length = 1 ↔ ∃! w, w ∈ l := by
  rw [List.length_eq_one_iff]
  constructor
  · rintro ⟨w, rfl⟩
    exact ⟨w, List.mem_singleton_self w, fun x hx => List.mem_singleton.mp hx⟩
  · rintro ⟨w, hw, hunique⟩
    exact ⟨w, (eq_singleton_iff hnodup).mpr fun x => ⟨hunique x, fun hx => hx ▸ hw⟩⟩

theorem two_le_length_of_mem {l : List String} {x y : String} (hx : x ∈ l) (hy : y ∈ l)
    (hne : x ≠ y) : 1 < l.length := by
  match l with
  | [] => cases hx
  | [w] => exact absurd ((List.mem_singleton.mp hx).trans (List.mem_singleton.mp hy).symm) hne
  | _ :: _ :: _ => simp

/-- A single healthy writer is the writer. -/
theorem WellPosed.writer_of_one (h : WellPosed input) {w : String}
    (hone : ∀ x, HealthyMember input .writer x ↔ x = w) : decidedWriter input = [w] := by
  refine decidedWriter_of_healthy ((eq_singleton_iff (h.nodup_healthyMembers .writer)).mpr ?_)
  exact fun x => h.mem_healthyMembers_iff.trans (hone x)

/-- Of several healthy writers, the last applied one stays, if there is exactly one. -/
theorem WellPosed.writer_of_several (h : WellPosed input) {x y : String}
    (hx : HealthyMember input .writer x) (hy : HealthyMember input .writer y) (hne : x ≠ y) :
    (∀ w, (∀ z, z ∈ lastWriter input ∧ HealthyMember input .writer z ↔ z = w) →
      decidedWriter input = [w]) ∧
    ((¬ ∃! w, w ∈ lastWriter input ∧ HealthyMember input .writer w) →
      decidedWriter input = []) := by
  have hlen := two_le_length_of_mem (h.mem_healthyMembers_iff.mpr hx)
    (h.mem_healthyMembers_iff.mpr hy) hne
  set previous := (lastWriter input).filter (stringSet (healthyMembers input .writer))
    with hprevious
  have hmem (z : String) :
      z ∈ previous ↔ z ∈ lastWriter input ∧ HealthyMember input .writer z := by
    rw [hprevious, List.mem_filter, stringSet_iff, h.mem_healthyMembers_iff]
  have hnodup : previous.Nodup := h.writer.filter _
  have hdecided : decidedWriter input = if previous.length = 1 then previous else [] := by
    unfold decidedWriter
    dsimp only
    rw [if_neg (by omega), if_pos hlen]
  rw [hdecided]
  refine ⟨fun w hw => ?_, fun hnot => ?_⟩
  · have hone : previous = [w] := (eq_singleton_iff hnodup).mpr fun z => (hmem z).trans (hw z)
    rw [hone, List.length_singleton, if_pos rfl]
  · refine if_neg fun hlength => hnot ?_
    simpa only [hmem] using (length_eq_one_iff_existsUnique hnodup).mp hlength

/-- Without a healthy writer, the last applied ones that are missing stay. -/
theorem WellPosed.writer_of_none (h : WellPosed input)
    (hnone : ∀ x, ¬ HealthyMember input .writer x) :
    decidedWriter input = (lastWriter input).filter (MissingMember input ·) := by
  rw [← h.retained_eq]
  refine decidedWriter_of_no_healthy (List.eq_nil_iff_forall_not_mem.mpr fun x hx => ?_)
  exact hnone x (h.mem_healthyMembers_iff.mp hx)

/-! ## 3. The readers -/

/-- A reader in its own right. -/
def ReaderMember (input : Input) (x : String) : Prop :=
  HealthyMember input .reader x ∨ (x ∈ lastReader input ∧ MissingMember input x)

theorem WellPosed.mem_presentReaders_iff (h : WellPosed input) {x : String} :
    x ∈ presentReaders input ↔ ReaderMember input x := by
  rw [mem_presentReaders, h.mem_healthyMembers_iff, h.retainable_iff]
  rfl

theorem WellPosed.reader_of_some (h : WellPosed input) (hsome : ∃ x, ReaderMember input x) :
    (decidedReader input).Pairwise (· < ·) ∧
      ∀ x, x ∈ decidedReader input ↔ ReaderMember input x := by
  obtain ⟨x, hx⟩ := hsome
  have hne : presentReaders input ≠ [] := List.ne_nil_of_mem (h.mem_presentReaders_iff.mpr hx)
  rw [decidedReader, if_pos hne]
  refine ⟨?_, fun x => h.mem_presentReaders_iff⟩
  exact (sortStrings_pairwise _).imp₂ (fun _ _ hle hne => lt_of_le_of_ne hle hne)
    h.nodup_presentReaders

theorem WellPosed.reader_of_none (h : WellPosed input) (hnone : ∀ x, ¬ ReaderMember input x) :
    decidedReader input = if readerEmptyFallbackEnabled input.resource = true ∧
      ¬ AllReadersDisabled input then decidedWriter input else [] := by
  have hnil : presentReaders input = [] := List.eq_nil_iff_forall_not_mem.mpr fun x hx =>
    hnone x (h.mem_presentReaders_iff.mp hx)
  simp only [← fallbackSuppressed_iff, decidedReader, hnil]
  cases fallbackSuppressed input <;> cases readerEmptyFallbackEnabled input.resource <;> simp

/-- Membership is for enabled instances. -/
theorem decided_enabled (input : Input) :
    (∀ x ∈ decidedWriter input, instanceDisabled input.resource.spec.pgbouncer x = false) ∧
      ∀ x ∈ decidedReader input, instanceDisabled input.resource.spec.pgbouncer x = false := by
  have hhealthy {role : Role} {x : String} (hx : x ∈ healthyMembers input role) :
      instanceDisabled input.resource.spec.pgbouncer x = false := by
    obtain ⟨o, -, -, ho, rfl⟩ := mem_healthyMembers.mp hx
    exact not_disabled_of_healthy input ho
  have hretained {x : String} (hx : retainable input x = true) :
      instanceDisabled input.resource.spec.pgbouncer x = false := by
    simpa using (Bool.and_eq_true_iff.mp hx).2
  have hwriter : ∀ x ∈ decidedWriter input,
      instanceDisabled input.resource.spec.pgbouncer x = false := by
    intro x hx
    rcases decidedWriter_cases input with hall | ⟨-, hall⟩
    · exact hhealthy (hall x hx)
    · exact hretained (hall x hx).2
  refine ⟨hwriter, fun x hx => ?_⟩
  unfold decidedReader at hx
  split at hx
  · rcases (mem_presentReaders input).mp hx with hx | ⟨-, hx⟩
    · exact hhealthy hx
    · exact hretained hx
  · split at hx
    · cases hx
    · split at hx
      · exact hwriter x hx
      · cases hx

/-! ## 4. The order of the input -/

theorem sortStrings_congr {l l' : List String} (h : l.Perm l') : sortStrings l = sortStrings l' :=
  List.Perm.eq_of_pairwise (fun _ _ _ _ => le_antisymm) (sortStrings_pairwise l)
    (sortStrings_pairwise l')
    ((sortStrings_perm l).trans (h.trans (sortStrings_perm l').symm))

/-- The same input with its lists in another order. -/
def reordered (input : Input) (discovered : List InstanceObservation)
    (missing : List MissingInstanceStatus) : Input :=
  { input with discovered := discovered, missingInstances := missing }

section Reordered

variable {discovered : List InstanceObservation} {missing : List MissingInstanceStatus}

theorem healthyMembers_reordered (h : input.discovered.Perm discovered) (role : Role) :
    healthyMembers (reordered input discovered missing) role = healthyMembers input role :=
  sortStrings_congr ((h.filter _).map _).symm

theorem retainable_reordered (h : input.missingInstances.Perm missing) :
    retainable (reordered input discovered missing) = retainable input := by
  funext x
  unfold retainable
  congr 1
  exact (h.any_eq).symm

theorem decidedWriter_reordered (hdiscovered : input.discovered.Perm discovered)
    (hmissing : input.missingInstances.Perm missing) :
    decidedWriter (reordered input discovered missing) = decidedWriter input := by
  unfold decidedWriter
  rw [healthyMembers_reordered hdiscovered, retainable_reordered hmissing]
  rfl

theorem presentReaders_reordered (hdiscovered : input.discovered.Perm discovered)
    (hmissing : input.missingInstances.Perm missing) :
    presentReaders (reordered input discovered missing) = presentReaders input := by
  unfold presentReaders
  rw [healthyMembers_reordered hdiscovered]
  exact sortStrings_congr (((hmissing.filter _).map _).symm.append_left _)

theorem decidedReader_reordered (hdiscovered : input.discovered.Perm discovered)
    (hmissing : input.missingInstances.Perm missing) :
    decidedReader (reordered input discovered missing) = decidedReader input := by
  have hsuppressed : fallbackSuppressed (reordered input discovered missing)
      = fallbackSuppressed input := by
    rw [fallbackSuppressed_eq, fallbackSuppressed_eq]
    exact congrArg₂ (· && ·) hdiscovered.any_eq.symm hdiscovered.all_eq.symm
  unfold decidedReader
  rw [presentReaders_reordered hdiscovered hmissing, hsuppressed,
    decidedWriter_reordered hdiscovered hmissing]
  rfl

end Reordered

end Membership

/-! ## 5. The membership of a trusted plan -/

/-- **Exact membership of a trusted plan.**  The writer is the healthy one; of several, the one
that was applied last; of none, those that are missing only for a moment.  The readers are the
healthy ones and those that are missing only for a moment; without any, the writer stands in,
unless the spec says otherwise.  No member is disabled, and the order in which instances are
discovered or listed as missing does not matter. -/
theorem trusted_membership (input : Input) (h : WellPosed input) :
    let membership := (plan input).membership
    (∀ w, (∀ x, HealthyMember input .writer x ↔ x = w) → membership.writer = [w]) ∧
    (∀ x y, HealthyMember input .writer x → HealthyMember input .writer y → x ≠ y →
      (∀ w, (∀ z, z ∈ lastWriter input ∧ HealthyMember input .writer z ↔ z = w) →
        membership.writer = [w]) ∧
      ((¬ ∃! w, w ∈ lastWriter input ∧ HealthyMember input .writer w) →
        membership.writer = [])) ∧
    ((∀ x, ¬ HealthyMember input .writer x) →
      membership.writer = (lastWriter input).filter (MissingMember input ·)) ∧
    ((∃ x, ReaderMember input x) → membership.reader.Pairwise (· < ·) ∧
      ∀ x, x ∈ membership.reader ↔ ReaderMember input x) ∧
    ((∀ x, ¬ ReaderMember input x) → membership.reader =
      if readerEmptyFallbackEnabled input.resource = true ∧ ¬ AllReadersDisabled input
        then membership.writer else []) ∧
    (∀ x, x ∈ membership.writer ∨ x ∈ membership.reader →
      instanceDisabled input.resource.spec.pgbouncer x = false) ∧
    (∀ discovered missing, input.discovered.Perm discovered →
      input.missingInstances.Perm missing →
      (plan (reordered input discovered missing)).membership = membership) := by
  intro membership
  have hmembership : membership = ⟨decidedWriter input, decidedReader input⟩ :=
    (plan_trusted h.trusted).1
  rw [hmembership]
  refine ⟨fun w => h.writer_of_one, fun x y => h.writer_of_several, h.writer_of_none,
    h.reader_of_some, h.reader_of_none, fun x hx => ?_, fun discovered missing hd hm => ?_⟩
  · exact hx.elim ((decided_enabled input).1 x) ((decided_enabled input).2 x)
  · rw [(@plan_trusted (reordered input discovered missing) h.trusted).1,
      decidedWriter_reordered hd hm, decidedReader_reordered hd hm]

/-- `a` writes, `c` reads, and the reader `b` went missing a moment ago. -/
def missingReaderInput : Input :=
  { resource :=
      { name := "orders"
        status :=
          { lastAppliedMembership := ⟨["a"], ["b", "c"]⟩
            instances := [{ instanceName := "a", role := .writer, healthy := true },
                          { instanceName := "c", role := .reader, healthy := true }] } }
    discoveryTrusted := true
    discovered := [{ name := "c", role := .reader }, { name := "a", role := .writer }]
    cachedHealth := true
    missingInstances := [{ instanceName := "b", missingCount := 1 }] }

theorem trusted_membership_missing_reader :
    WellPosed missingReaderInput ∧ ReaderMember missingReaderInput "b" ∧
      "b" ∈ (plan missingReaderInput).membership.reader := by
  have hposed : WellPosed missingReaderInput :=
    ⟨rfl, by decide, by decide, by decide, by decide, by decide, by
      unfold MissingDisjoint
      decide⟩
  have hmissing : ReaderMember missingReaderInput "b" := Or.inr ⟨by decide, by decide⟩
  obtain ⟨-, -, -, hreaders, -⟩ := trusted_membership missingReaderInput hposed
  exact ⟨hposed, hmissing, ((hreaders ⟨"b", hmissing⟩).2 "b").mpr hmissing⟩

/-! ## 6. Planning on stored health -/

/-- The resource after the instances of a plan have been committed. -/
def commitInstances (resource : PgBouncerAurora) (instances : List InstancePlan) :
    PgBouncerAurora :=
  { resource with status := { resource.status with instances := instanceStatus instances } }

/-- A cached plan, its instances committed. -/
def replan (discovery : DiscoveryResult) (missing : List MissingInstanceStatus)
    (resource : PgBouncerAurora) : PgBouncerAurora :=
  commitInstances resource (plan (scheduledInput resource discovery missing)).instances

section Cached

variable {resource : PgBouncerAurora} {discovery : DiscoveryResult}
  {health : StringMap HealthStatus} {cachedHealth : Bool} {missing : List MissingInstanceStatus}

theorem planObserved_congr {stored input : Input} {o : InstanceObservation}
    (h : planEntry stored o = planEntry input o) (acc : Tally) :
    planObserved stored acc o = planObserved input acc o := by
  unfold planObserved
  rw [h]

/-- The loop makes the same of the same entries. -/
theorem foldl_planObserved_congr {stored input : Input} {l : List InstanceObservation}
    (h : ∀ o ∈ l, planEntry stored o = planEntry input o) (acc : Tally) :
    l.foldl (planObserved stored) acc = l.foldl (planObserved input) acc := by
  induction l generalizing acc with
  | nil => rw [List.foldl_nil, List.foldl_nil]
  | cons o l ih =>
    rw [List.foldl_cons, List.foldl_cons, planObserved_congr (h o List.mem_cons_self)]
    exact ih (fun o' ho' => h o' (List.mem_cons_of_mem _ ho')) _

theorem observedPlan_congr {stored input : Input} (hdiscovered : stored.discovered = input.discovered)
    (h : ∀ o ∈ input.discovered, planEntry stored o = planEntry input o) :
    observedPlan stored = observedPlan input := by
  unfold observedPlan
  rw [hdiscovered, foldl_planObserved_congr h]

/-- A plan over other health is the same plan if it makes the same entries: the corrections read
the spec, the last applied membership and the missing list. -/
theorem plan_commitInstances (htrusted : discovery.trusted = true) {instances : List InstancePlan}
    (hentries : ∀ o ∈ discovery.instances,
      planEntry (scheduledInput (commitInstances resource instances) discovery missing) o
        = planEntry (planInput resource discovery health cachedHealth missing) o) :
    plan (scheduledInput (commitInstances resource instances) discovery missing)
      = plan (planInput resource discovery health cachedHealth missing) := by
  have hobserved : observedPlan (scheduledInput (commitInstances resource instances) discovery missing)
      = observedPlan (planInput resource discovery health cachedHealth missing) :=
    observedPlan_congr rfl hentries
  unfold plan
  rw [if_neg (by simp [scheduledInput, htrusted]), if_neg (by simp [planInput, htrusted]), hobserved]
  rfl

/-- What a trusted plan stores under the name of a discovered instance is a whole entry, made from
an observation of that name. -/
theorem previousInstanceStatus_plan {input : Input} (htrusted : input.discoveryTrusted = true)
    {name : String} (hname : name ≠ "") (hlisted : name ∈ input.discovered.map (·.name)) :
    ∃ o ∈ input.discovered, o.name = name ∧ ∃ item,
      (previousInstanceStatus (instanceStatus (plan input).instances))[name]? = some item ∧
      instancePlanFromStatus item = planEntry input o := by
  rw [getElem?_previousInstanceStatus, if_neg hname, (plan_trusted htrusted).2.1]
  set entries := sortInstancePlans (input.discovered.map (planEntry input)) with hentries
  have hperm : entries.Perm (input.discovered.map (planEntry input)) :=
    List.perm_insertionSort _ _
  cases hfind : (instanceStatus entries).reverse.find? (·.instanceName = name) with
  | none =>
    obtain ⟨o, ho, rfl⟩ := List.mem_map.mp hlisted
    have hentry : planEntry input o ∈ entries := hperm.mem_iff.mpr (List.mem_map_of_mem ho)
    have hnone := List.find?_eq_none.mp hfind _
      (List.mem_reverse.mpr (List.mem_map_of_mem hentry))
    simp at hnone
  | some item =>
    have hitem : item.instanceName = name := by simpa using List.find?_some hfind
    have hmem := List.mem_reverse.mp (List.mem_of_find?_eq_some hfind)
    obtain ⟨entry, hentry, rfl⟩ := List.mem_map.mp hmem
    obtain ⟨o, ho, rfl⟩ := List.mem_map.mp (hperm.mem_iff.mp hentry)
    exact ⟨o, ho, (planEntry_name input o).symm.trans hitem, _, rfl, rfl⟩

/-- An enabled instance runs as many replicas as the spec says. -/
theorem planEntry_replicas {input : Input} {o : InstanceObservation}
    (henabled : instanceDisabled input.resource.spec.pgbouncer o.name = false) :
    (planEntry input o).replicas = replicasFor input.resource.spec.pgbouncer o.name := by
  have hhealth (entry : InstancePlan) (health : Option HealthStatus) :
      (applyHealth entry health).replicas = entry.replicas := by
    unfold applyHealth
    split <;> rfl
  unfold planEntry
  rw [if_neg (by simp [henabled])]
  split
  · unfold applyCachedHealth
    split <;> rfl
  · unfold applyMonitorThresholds
    dsimp only
    split
    · split <;> simp [hhealth]
    · split <;> simp [hhealth]

/-- Health apart, the entry of an enabled instance is its observation. -/
theorem planEntry_of_enabled {input : Input} {o : InstanceObservation}
    (henabled : instanceDisabled input.resource.spec.pgbouncer o.name = false)
    {item : InstanceStatus} (hitem : instancePlanFromStatus item = planEntry input o) :
    applyCachedHealth
      { o with
        healthy := false
        reason := "monitor unknown"
        replicas := replicasFor input.resource.spec.pgbouncer o.name } (some item)
      = planEntry input o := by
  have hobservation := planEntry_observation input o
  have hdisabled := planEntry_disabled input o
  have hreplicas : (planEntry input o).replicas
      = replicasFor input.resource.spec.pgbouncer o.name := planEntry_replicas henabled
  rw [henabled] at hdisabled
  generalize planEntry input o = entry at hitem hobservation hdisabled hreplicas
  subst hitem hobservation
  rw [← hreplicas]
  simp_all [applyCachedHealth, instancePlanFromStatus]

/-- **One round trip.**  An entry made from the stored health is the entry that was stored. -/
theorem planEntry_commitInstances (htrusted : discovery.trusted = true)
    (hnodup : (discovery.instances.map (·.name)).Nodup) {o : InstanceObservation}
    (ho : o ∈ discovery.instances) (hname : o.name ≠ "") :
    planEntry (scheduledInput (commitInstances resource
        (plan (planInput resource discovery health cachedHealth missing)).instances)
        discovery missing) o
      = planEntry (planInput resource discovery health cachedHealth missing) o := by
  set input := planInput resource discovery health cachedHealth missing with hinput
  -- names are distinct, so the instance finds its own entry in the status
  obtain ⟨o', ho', hsame, item, hitem, hentry⟩ :=
    @previousInstanceStatus_plan input htrusted o.name hname (List.mem_map_of_mem ho)
  obtain rfl : o = o' := List.inj_on_of_nodup_map hnodup ho ho' hsame.symm
  set stored := scheduledInput (commitInstances resource (plan input).instances) discovery missing
    with hstored
  have hid : item.dbiResourceId = o.dbiResourceId := by
    have hsame := congrArg (·.dbiResourceId) (hentry.trans rfl)
    simpa [instancePlanFromStatus, planEntry_observation] using hsame
  have hprevious : previousFor stored o = some item := by
    unfold previousFor
    rw [show (previousInstanceStatus stored.resource.status.instances)[o.name]? = some item from
      hitem]
    simp [physicalIdentityChanged, hid]
  cases hdisabled : instanceDisabled resource.spec.pgbouncer o.name with
  | true =>
    have hdisabled' : instanceDisabled stored.resource.spec.pgbouncer o.name = true := hdisabled
    have hdisabled'' : instanceDisabled input.resource.spec.pgbouncer o.name = true := hdisabled
    unfold planEntry
    rw [if_pos hdisabled', if_pos hdisabled'']
  | false =>
    have hdisabled' : instanceDisabled stored.resource.spec.pgbouncer o.name = false := hdisabled
    have hcached : stored.cachedHealth = true := rfl
    rw [← planEntry_of_enabled hdisabled hentry, planEntry, if_neg (by simp [hdisabled']),
      if_pos hcached, hprevious]
    rfl

/-- Planning on the committed instances gives the plan they are from. -/
theorem plan_on_own_instances (htrusted : discovery.trusted = true)
    (hnodup : (discovery.instances.map (·.name)).Nodup)
    (hnamed : ∀ o ∈ discovery.instances, o.name ≠ "") :
    plan (scheduledInput (commitInstances resource
        (plan (planInput resource discovery health cachedHealth missing)).instances)
        discovery missing)
      = plan (planInput resource discovery health cachedHealth missing) :=
  plan_commitInstances htrusted fun o ho => planEntry_commitInstances htrusted hnodup ho (hnamed o ho)

end Cached

/-- **Cached planning reproduces the monitored plan.**  The monitor job plans with thresholds and
stores the instances of its plan.  A Reconcile that plans on what is stored gets the very same
plan: membership, reasons, flags and every entry.  So does any number of them. -/
theorem cached_plan_eq (resource : PgBouncerAurora) (discovery : DiscoveryResult)
    (missing : List MissingInstanceStatus) (health : StringMap HealthStatus)
    (htrusted : discovery.trusted = true) (hnodup : (discovery.instances.map (·.name)).Nodup)
    (hnamed : ∀ o ∈ discovery.instances, o.name ≠ "") (n : Nat) :
    let monitored := plan (planInput resource discovery health false missing)
    let stored := commitInstances resource monitored.instances
    plan (scheduledInput ((replan discovery missing)^[n] stored) discovery missing) = monitored := by
  intro monitored stored
  have hfirst : plan (scheduledInput stored discovery missing) = monitored :=
    plan_on_own_instances htrusted hnodup hnamed
  -- committing the same instances again leaves the resource as it is
  have hfixed : replan discovery missing stored = stored := by
    rw [replan, hfirst]
    rfl
  rw [Function.iterate_fixed hfixed]
  exact hfirst

/-- Two instances, one of them healthy and one not yet failed. -/
def monitoredDiscovery : DiscoveryResult :=
  { trusted := true
    instances := [{ name := "a", role := .writer }, { name := "b", role := .reader }] }

theorem cached_plan_eq_example :
    (plan (scheduledInput ((replan monitoredDiscovery [])^[3]
        (commitInstances failoverResource (plan (planInput failoverResource monitoredDiscovery
          ((∅ : StringMap HealthStatus).insert "a" { healthy := true }) false [])).instances))
        monitoredDiscovery [])).membership = ⟨["a"], ["a"]⟩ := by
  rw [cached_plan_eq failoverResource monitoredDiscovery []
    ((∅ : StringMap HealthStatus).insert "a" { healthy := true }) rfl (by decide) (by decide) 3]
  decide +kernel

end Controller

end AuroraOperator

/-
# What a Reconcile may delete

Deleting the Deployment of an instance that is in use is an outage, so every delete has to be
accounted for.  The server keeps a log of the writes that went through; `Deletes` follows a
program by what it adds to that log, whether the program returns or fails half way.

* `reconcile_deletes`: a delete has one of three causes, each a matter of the stored status and
  the namespace at the start of the Reconcile.
* `deletion_safety`: for an instance that is gone, the cause is an absence without a break.  No
  discovery that was committed since its first miss has seen it, and that miss is as long ago as
  the retention asks.

The journal of `Tracking` has the results that were committed, and not only what the calls
observed: a failure that is papered over commits the cached topology, which counts here as one
more result.
-/
import AuroraOperator.Controller.Fixpoint
import AuroraOperator.Controller.Tracking

namespace AuroraOperator

namespace Controller

open Planner Render Program Absence

/-! ## 1. The log -/

/-- What was written since, and that it deletes nothing but what is allowed. -/
def Deletes (allowed : Kind → String → Prop) (w w' : World) : Prop :=
  ∃ new, w'.writes = new ++ w.writes ∧
    ∀ kind name, Write.delete kind name ∈ new → allowed kind name

section Log

variable {α : Type} {allowed : Kind → String → Prop}

theorem frame_deletes (allowed : Kind → String → Prop) : Frame (Deletes allowed) where
  refl w := ⟨[], rfl, by simp⟩
  trans := by
    rintro w₁ w₂ w₃ ⟨new, hnew, hdeletes⟩ ⟨new', hnew', hdeletes'⟩
    refine ⟨new' ++ new, by rw [hnew', hnew, List.append_assoc], fun kind name hin => ?_⟩
    rcases List.mem_append.mp hin with hin | hin
    · exact hdeletes' kind name hin
    · exact hdeletes kind name hin
  reads h := ⟨[], congrArg (fun v => v.2.2) h, by simp⟩

/-- A call that writes at most one entry. -/
theorem deletes_call {m : Api α} (write : Write)
    (hm : ∀ w, (final m w).writes = w.writes ∨ (final m w).writes = write :: w.writes)
    (hwrite : ∀ kind name, write = .delete kind name → allowed kind name) :
    Within (Deletes allowed) (call m) := by
  have hwork : ∀ w, Deletes allowed w (final m w) := fun w => by
    rcases hm w with h | h
    · exact ⟨[], h, by simp⟩
    · refine ⟨[write], h, fun kind name hin => hwrite kind name ?_⟩
      exact (List.mem_singleton.mp hin).symm
  intro w
  cases h : call m w with
  | ok a w' =>
    obtain ⟨faults, hrun⟩ := call_eq_ok h
    have hstep := hwork { w with faults := faults }
    rw [final_of_ok hrun] at hstep
    rw [final_of_ok h]
    exact hstep
  | error e w' =>
    rw [final_of_error h]
    rcases call_eq_error h with ⟨-, faults, rfl⟩ | ⟨faults, hrun⟩
    · exact (frame_deletes allowed).reads rfl
    · have hstep := hwork { w with faults := faults }
      rw [final_of_error hrun] at hstep
      exact hstep

theorem createObject_deletes (kind : Kind) (object : kind.Object) :
    Within (Deletes allowed) (createObject kind object) :=
  deletes_call (.create kind (kind.metadata object).name) (fun w => by
    dsimp only [final]
    cases (objects kind w.cluster)[(kind.metadata object).name]? <;> simp) nofun

theorem updateObject_deletes (kind : Kind) (name : String) (object : kind.Object) :
    Within (Deletes allowed) (updateObject kind name object) :=
  deletes_call (.update kind name) (fun w => by
    dsimp only [final]
    cases (objects kind w.cluster)[name]? <;> simp) nofun

theorem deleteObject_deletes {kind : Kind} {name : String} (h : allowed kind name) :
    Within (Deletes allowed) (deleteObject kind name) :=
  deletes_call (.delete kind name) (fun w => by
    dsimp only [final]
    cases (objects kind w.cluster)[name]? <;> simp) fun _ _ heq => by
      cases heq
      exact h

theorem patchPod_deletes (name : String) (labels : StringMap String) :
    Within (Deletes allowed) (patchPod name labels) :=
  deletes_call (.patchPod name labels) (fun w => by
    dsimp only [final]
    cases w.cluster.pods[name]? <;> simp) nofun

theorem updateResourceStatus_deletes (status : Status) :
    Within (Deletes allowed) (updateResourceStatus status) :=
  deletes_call .updateStatus (fun _ => Or.inr rfl) nofun

end Log

/-! ## 2. Where a delete comes from -/

/-- What a Reconcile deletes at `now`, and why: a role Service that is out of use, the objects of
an instance that the spec disables, or those of an instance that is gone and whose time has
come. -/
inductive DeletionCause (w : World) (now : Int) : Kind → String → Prop
  | stale {name : String} (found : StaleAt w.stored.resource w name) :
      DeletionCause w now .service name
  | disabled {kind : Kind} {x : String}
      (off : instanceDisabled w.stored.resource.spec.pgbouncer x = true) :
      DeletionCause w now kind (instanceResourceName w.stored.resource.name x)
  | removed {kind : Kind} {missing : MissingInstanceStatus}
      (listed : missing ∈ w.stored.resource.status.missingInstances)
      (gone : missing.instanceName ∉ w.stored.resource.status.lastKnownTopology.map (·.instanceName))
      (ready : removedInstanceReadyForDelete w.stored.resource missing now = true) :
      DeletionCause w now kind (instanceResourceName w.stored.resource.name missing.instanceName)

section Causes

variable {allowed : Kind → String → Prop} {resource : PgBouncerAurora} {plan : Output}

/-- Applying makes no role Service stale. -/
theorem AppliedAll.stale {digest : Option (Digest AuthFileMetadata)} {w w' : World}
    (h : AppliedAll resource (desiredObjects resource digest plan) w w') {name : String}
    (hstale : StaleAt resource w' name) : StaleAt resource w name := by
  rcases h.each .service name with ⟨d, hd, hkey, hplaced⟩ | ⟨-, hsame⟩
  · obtain ⟨hkind, rfl⟩ := Prod.mk.inj hkey
    exact absurd ⟨hkind, hstale⟩ (hplaced.not_stale hd)
  · obtain ⟨service, hat, hrest⟩ := hstale
    exact ⟨service, hsame.symm.trans hat, hrest⟩

theorem cleanupDisabledInstanceResources_deletes
    (h : ∀ entry ∈ plan.instances, entry.disabled = true →
      ∀ kind, allowed kind (instanceResourceName resource.name entry.name)) :
    Within (Deletes allowed) (cleanupDisabledInstanceResources resource plan) := by
  have hR := frame_deletes allowed
  refine Within.forM hR.toSteps fun entry hentry => ?_
  split
  · rename_i hdisabled
    exact deleteInstanceResources_within hR fun kind =>
      deleteObject_deletes (h entry hentry hdisabled kind)
  · exact Within.pure hR.toSteps _

theorem applyDesired_deletes {w : World} (hstale : ∀ name, StaleAt resource w name →
      allowed .service name)
    (hdisabled : ∀ entry ∈ plan.instances, entry.disabled = true →
      ∀ kind, allowed kind (instanceResourceName resource.name entry.name)) :
    Deletes allowed w (final (applyDesired resource plan) w) := by
  have hR := frame_deletes allowed
  refine hR.bind (hR.read (planDigest_keeps resource plan) _) fun digest w₀ h₀ => ?_
  refine hR.bind (Within.forM hR.toSteps (fun entry _ =>
    applyInstance_within hR createObject_deletes updateObject_deletes _ _ entry) w₀)
    fun _ w₁ h₁ => ?_
  refine hR.bind (Within.forM hR.toSteps (fun role _ =>
    applyObject_within hR (createObject_deletes _ _) (updateObject_deletes _ _)) w₁)
    fun _ w₂ h₂ => ?_
  -- a Service that is stale now was so before the applies
  refine hR.bind (cleanupStaleRoleServices_final hR fun name hat =>
      deleteObject_deletes (hstale name ?_))
    fun _ w₃ _ => cleanupDisabledInstanceResources_deletes hdisabled w₃
  exact (appliedAll_of_stages h₀ h₁ h₂).stale hat

theorem cleanupRemovedFrom_deletes {discovery : DiscoveryResult} {now : Int}
    {missing : List MissingInstanceStatus}
    (h : ∀ m ∈ missing, keepsMissing resource discovery now m = false →
      ∀ kind, allowed kind (instanceResourceName resource.name m.instanceName)) :
    Within (Deletes allowed) (cleanupRemovedFrom resource discovery now missing) := by
  have hR := frame_deletes allowed
  induction missing with
  | nil => exact Within.pure hR.toSteps _
  | cons m rest ih =>
    have hrest := ih fun m' hm' => h m' (List.mem_cons_of_mem m hm')
    unfold cleanupRemovedFrom
    split
    · exact Within.bind hR.toSteps hrest fun _ => Within.pure hR.toSteps _
    · rename_i hkeep
      refine Within.bind hR.toSteps (deleteInstanceResources_within hR fun kind => ?_) fun _ => hrest
      exact deleteObject_deletes (h m (List.mem_cons_self ..) (by simpa using hkeep) kind)

end Causes

/-- Everything before the commit. -/
theorem prepare_deletes (w : World) (now : Int) :
    Deletes (DeletionCause w now) w (final (prepare .scheduled now) w) := by
  have hR := frame_deletes (DeletionCause w now)
  refine prepare_final hR now fun hfrozen w₁ hv => ?_
  have hstored : w₁.stored = w.stored := congrArg Prod.fst hv
  have hcluster : w₁.cluster = w.cluster := congrArg (fun v => v.2.1) hv
  have hstale : ∀ name, StaleAt w.stored.resource w₁ name →
      DeletionCause w now .service name := by
    rintro name ⟨service, hat, hrest⟩
    rw [objectAt, hcluster] at hat
    exact .stale ⟨service, hat, hrest⟩
  refine hR.bind (applyDesired_deletes hstale fun entry hentry hoff kind => ?_) fun _ w₂ _ => ?_
  · rw [(finalPlan_entry hfrozen hentry).2] at hoff
    exact .disabled hoff
  refine hR.bind ?_ fun _ w₃ _ => ?_
  · have ht := trusted_of_not_frozen hfrozen
    unfold cleanupRemovedInstanceResources
    rw [if_neg (by simp [ht])]
    refine cleanupRemovedFrom_deletes (fun m hm hdue kind => ?_) w₂
    simp only [keepsMissing, Bool.or_eq_false_iff, Bool.not_eq_false'] at hdue
    refine .removed hm (fun hin => ?_) hdue.2
    have hname : m.instanceName ≠ "" := by
      intro hempty
      simp [removedInstanceReadyForDelete, hempty] at hdue
    rw [← map_name_topologyObservations, ← cachedDiscovery_instances ht] at hin
    have hdiscovered : discoveredInstanceSet (cachedDiscovery w.stored.resource).instances
        m.instanceName = true := by
      simpa [discoveredInstanceSet, hname] using hin
    rw [hdiscovered] at hdue
    cases hdue.1
  refine hR.bind (patchPodMembership_within hR patchPod_deletes _ _ w₃) fun _ w₄ _ => ?_
  refine hR.bind (handleWriterChangeConnection_within hR updateObject_deletes _ _ w₄)
    fun _ w₅ _ => hR.refl _

/-- **Every delete of a Reconcile has a cause**, also when the Reconcile fails half way. -/
theorem reconcile_deletes (w : World) (now : Int) :
    Deletes (DeletionCause w now) w (final (reconcile .scheduled now) w) := by
  have hR := frame_deletes (DeletionCause w now)
  refine hR.bind (prepare_deletes w now) fun prepared w₂ _ => ?_
  exact hR.bind (commitStatus_within hR updateResourceStatus_deletes _ w₂) fun _ _ _ => hR.refl _

/-! ## 3. One absence, from its first miss -/

/-- The results a step commits, and the entries it drops. -/
def World.results (w : World) (step : Step) : List Event := resultsOf w step (w.events step)

/-- A step of the world, and of the journal of results. -/
abbrev resulting : World × List Event → Step → World × List Event :=
  Machine.traced World.next World.results

/-- The results of the journal are in order, as far as whole seconds tell, and none is later than
the stored time. -/
structure Timed (s : Status) (journal : List Event) : Prop where
  ordered : (observations journal).Pairwise fun newer older =>
    wholeSeconds older.2 ≤ wholeSeconds newer.2
  bounded : ∀ o ∈ observations journal,
    ∃ last, s.lastDiscoveryTime = some last ∧ wholeSeconds o.2 ≤ last

theorem Timed.same {s s' : Status} {journal : List Event} (h : Timed s journal)
    (htime : s'.lastDiscoveryTime = s.lastDiscoveryTime) : Timed s' journal where
  ordered := h.ordered
  bounded := by rw [htime]; exact h.bounded

/-- A job that is not late has a time no earlier than any of the journal. -/
theorem Timed.notLate {s : Status} {journal : List Event} (h : Timed s journal) {now : Int}
    (hnow : isNewer s.lastDiscoveryTime now = false) :
    ∀ o ∈ observations journal, wholeSeconds o.2 ≤ wholeSeconds now := by
  intro o ho
  obtain ⟨last, hlast, hle⟩ := h.bounded o ho
  have hlate : last ≤ now := by simpa [isNewer, hlast] using hnow
  calc wholeSeconds o.2 = wholeSeconds (wholeSeconds o.2) := (wholeSeconds_idem _).symm
    _ ≤ wholeSeconds now := wholeSeconds_mono (hle.trans hlate)

/-- **Every move keeps the journal in order**, whatever the clocks say: a job that comes late is
not committed. -/
theorem Move.timed {w w' : World} {step : Step} {events : List Event}
    (hmove : Move w step w' events) {journal : List Event}
    (h : Timed w.stored.resource.status journal) :
    Timed w'.stored.resource.status (resultsOf w step events ++ journal) := by
  cases hmove with
  | discovered answered due commit stored =>
    rename_i discover checkedAt now faults status
    have hnotLate := h.notLate (discoveryCommit_eq_some.mp (Option.isSome_of_mem commit))
    have htime : (w.stored.updateStatus status).resource.status.lastDiscoveryTime
        = some (wholeSeconds now) := by
      rw [StoredResource.updateStatus_status, Status.marshal_lastDiscoveryTime,
        (discoveryCommit_frame commit).2.2.2.2.1]
      rfl
    rw [stored, resultsOf, if_pos answered, resulted]
    cases (effectiveDiscovery discover w.stored.resource).1.trusted with
    | false => exact ⟨h.ordered, fun o ho => ⟨_, htime, hnotLate o ho⟩⟩
    | true =>
      refine ⟨List.pairwise_cons.mpr ⟨hnotLate, h.ordered⟩, fun o ho => ⟨_, htime, ?_⟩⟩
      rcases List.mem_cons.mp ho with rfl | ho
      · exact le_rfl
      · exact hnotLate o ho
  | undiscovered unanswered stored =>
    rw [resultsOf, if_neg (by simp [unanswered]), stored]
    exact h
  | monitored trusted commit stored =>
    rw [stored]
    refine h.same ?_
    rw [StoredResource.updateStatus_status, Status.marshal_lastDiscoveryTime,
      (monitorCommit_frame commit).2.2.2.2.2.1]
    exact congrArg Status.lastDiscoveryTime w.stored.canonical
  | reconciled prepared cluster stored =>
    rw [stored]
    refine Timed.same (s := w.stored.resource.status) ⟨h.ordered, h.bounded⟩ ?_
    rw [StoredResource.updateStatus_status, Status.marshal_lastDiscoveryTime, Prepared.status,
      prepared.resource, prepared.evaluation]
    exact (congrArg (Option.map wholeSeconds) (reconcileCommit_frame _ _ _ _ _).2.2).trans
      (congrArg Status.lastDiscoveryTime w.stored.canonical)
  | edited stored => rw [stored]; exact ⟨h.ordered, h.bounded⟩
  | unmonitored stored | attempted stored | moved stored => rw [stored]; exact h

/-- `x` has been absent without a break for the retention: no committed result since some first
miss contains it, and that miss, in whole seconds, is long enough ago. -/
def AbsentFor (retention now : Int) (x : String) (journal : List Event) : Prop :=
  ∃ later names first earlier, journal = later ++ .observed names first :: earlier ∧
    x ∉ names ∧ (∀ o ∈ observations later, x ∉ o.1) ∧
    (∀ o ∈ observations earlier, wholeSeconds o.2 ≤ wholeSeconds first) ∧
    wholeSeconds first + retention ≤ now

/-- An entry that is ready for deletion has been there since such a miss. -/
theorem Tracks.absentFor {resource : PgBouncerAurora} {journal : List Event}
    (h : Tracks resource.status journal) (ht : Timed resource.status journal)
    {m : MissingInstanceStatus} (hm : m ∈ resource.status.missingInstances) {now : Int}
    (hready : removedInstanceReadyForDelete resource m now = true) :
    removeAfterMissingCount resource ≤ m.missingCount ∧
      AbsentFor (removedInstanceRetention resource) now m.instanceName journal := by
  unfold removedInstanceReadyForDelete at hready
  split at hready
  · cases hready
  · rename_i hcount
    simp only [Bool.or_eq_true, decide_eq_true_eq, not_or] at hcount
    refine ⟨Int32.not_lt.mp hcount.2, ?_⟩
    split at hready
    · cases hready
    · rename_i first hfirst
      rw [h.entries m hm, trackedEntry, Option.map_eq_some_iff] at hfirst
      obtain ⟨t, hlast, rfl⟩ := hfirst
      obtain ⟨later, names, earlier, hsplit, hx, hlater⟩ := missed_getLast? hlast
      refine ⟨later, names, t, earlier, hsplit, hx, hlater, ?_, ?_⟩
      · have hordered := ht.ordered
        rw [hsplit, observations_append] at hordered
        exact (List.pairwise_cons.mp (List.pairwise_append.mp hordered).2.1).1
      · rw [decide_eq_true_eq] at hready
        omega

/-- **Deletion is safe.**  After any run from a new resource, and whatever a Reconcile then meets,
each object that it deletes is a role Service out of use or belongs to an instance that the spec
disables, or that is not in the topology, has been missed often enough, and has been absent
without a break for the retention. -/
theorem deletion_safety (name : String) (spec : PgBouncerAuroraSpec) (cluster : Cluster)
    (steps : List Step) (now : Int) (faults : List (Option Fault)) :
    let t := Machine.run resulting (World.initial name spec cluster, []) steps
    let resource := t.1.stored.resource
    ∃ new, (t.1.next (.reconcile now faults)).writes = new ++ t.1.writes ∧
      ∀ kind object, Write.delete kind object ∈ new →
        (kind = .service ∧ StaleAt resource t.1 object) ∨
        ∃ x, object = instanceResourceName resource.name x ∧
          (instanceDisabled resource.spec.pgbouncer x = true ∨
            (x ∉ resource.status.lastKnownTopology.map (·.instanceName) ∧
              (∃ m ∈ resource.status.missingInstances, m.instanceName = x ∧
                removeAfterMissingCount resource ≤ m.missingCount) ∧
              AbsentFor (removedInstanceRetention resource) now x t.2)) := by
  intro t resource
  obtain ⟨htracks, htimed⟩ : Tracks resource.status t.2 ∧ Timed resource.status t.2 :=
    Machine.invariant (I := fun t : World × List Event =>
        Tracks t.1.stored.resource.status t.2 ∧ Timed t.1.stored.resource.status t.2)
      (fun t step h => ⟨(next_move t.1 step).tracks_results h.1, (next_move t.1 step).timed h.2⟩)
      ⟨tracks_empty, List.Pairwise.nil, by simp [observations]⟩ steps
  obtain ⟨new, hnew, hcauses⟩ := reconcile_deletes (t.1.meet faults) now
  refine ⟨new, hnew, fun kind object hin => ?_⟩
  cases hcauses kind object hin with
  | stale found => exact Or.inl ⟨rfl, found⟩
  | disabled off => exact Or.inr ⟨_, rfl, Or.inl off⟩
  | @removed kind m listed gone ready =>
    obtain ⟨hcount, habsent⟩ := htracks.absentFor htimed listed ready
    exact Or.inr ⟨_, rfl, Or.inr ⟨gone, ⟨m, listed, rfl, hcount⟩, habsent⟩⟩

/-- Three misses and a day later, the Deployment of `x` goes. -/
example :
    let deployment : Deployment := { metadata := { name := "db-x" } }
    let w := reached "db" {} {} [discoverReaders ["x"] 0, discoverReaders [] (3600 * second),
      discoverReaders [] (7200 * second), discoverReaders [] (10800 * second),
      .environment { deployments := (∅ : StringMap Deployment).insert "db-x" deployment }]
    Write.delete .deployment "db-x" ∈ (w.next (.reconcile (86400 * second) [])).writes := by
  decide +kernel

end Controller

end AuroraOperator

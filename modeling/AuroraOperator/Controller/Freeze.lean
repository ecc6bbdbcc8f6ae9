/-
# The freeze

While the last verdict on discovery is "untrusted", the operator is frozen: whatever runs,
nothing that carries traffic is touched.  `frozen_run` is that statement over whole runs, with
every job free to fail anywhere and the spec free to change.

The argument is one step lemma a kind of step.  A failed discovery cannot fall back on the
cached topology, because that needs a trusted verdict; a monitor job stops at the verdict; a
Reconcile plans, but the plan is frozen, so it neither applies it nor commits a membership.
-/
import AuroraOperator.Controller.System

namespace AuroraOperator

namespace Controller

open Planner Render Program

/-! ## 1. What is retained -/

/-- What the status remembers for the time when discovery works again. -/
structure Retained (s s' : Status) : Prop where
  membership : s'.lastAppliedMembership = s.lastAppliedMembership
  appliedTime : s'.lastAppliedTime = s.lastAppliedTime
  topology : s'.lastKnownTopology = s.lastKnownTopology
  topologyHash : s'.topologyHash = s.topologyHash
  missing : s'.missingInstances = s.missingInstances
  instances : s'.instances = s.instances

theorem Retained.refl (s : Status) : Retained s s := ⟨rfl, rfl, rfl, rfl, rfl, rfl⟩

theorem Retained.trans {s s' s'' : Status} (h : Retained s s') (h' : Retained s' s'') :
    Retained s s'' where
  membership := h'.membership.trans h.membership
  appliedTime := h'.appliedTime.trans h.appliedTime
  topology := h'.topology.trans h.topology
  topologyHash := h'.topologyHash.trans h.topologyHash
  missing := h'.missing.trans h.missing
  instances := h'.instances.trans h.instances

/-- What a commit retains of a stored status survives the storing: the times in it have been
cut to whole seconds before. -/
theorem Retained.stored {stored : StoredResource} {status : Status}
    (h : Retained stored.resource.status status) :
    Retained stored.resource.status (stored.updateStatus status).resource.status := by
  refine h.trans ?_
  have hc := stored.canonical
  refine ⟨rfl, ?_, rfl, rfl, ?_, rfl⟩
  · rw [StoredResource.updateStatus_status, Status.marshal_lastAppliedTime, h.appliedTime]
    exact congrArg Status.lastAppliedTime hc
  · rw [StoredResource.updateStatus_status, Status.marshal_missingInstances, h.missing]
    exact congrArg Status.missingInstances hc

/-! ## 2. One step -/

/-- A step during an outage: its discovery, if it makes one, fails or is not trusted. -/
def DuringOutage (w : World) : Step → Prop
  | .discover discover _ _ _ => Unobserved discover w.stored.resource
  | _ => True

section Outage

variable {resource : PgBouncerAurora}

theorem cachedDiscovery_untrusted (h : lastDiscoveryTrusted resource = false) :
    (cachedDiscovery resource).trusted = false := by
  rw [← Bool.not_eq_true, cachedDiscovery_trusted_iff, h]
  simp

/-- After an untrusted verdict, a failed discovery stays a failed discovery. -/
theorem effectiveDiscovery_untrusted {discover : Discover}
    (h : lastDiscoveryTrusted resource = false)
    (hfail : Unobserved discover resource) :
    (effectiveDiscovery discover resource).1.trusted = false := by
  unfold effectiveDiscovery
  cases hd : discover resource with
  | error err => rfl
  | ok discovery =>
    have ht := hfail discovery hd
    simp [ht, discoveryAfterFailureThreshold_untrusted h]

theorem discoveryWork_retained {discover : Discover} {now : Int} {status : Status}
    (h : lastDiscoveryTrusted resource = false)
    (hfail : Unobserved discover resource)
    (hcommit : (discoveryWork discover resource now).commit resource = some status) :
    Retained resource.status status ∧ discoveryVerdict status.conditions = false := by
  have ht := effectiveDiscovery_untrusted h hfail
  obtain ⟨hmembership, happlied, hinstances, -, -, hverdict⟩ := discoveryCommit_frame hcommit
  obtain ⟨htopology, hmissing, hhash⟩ := discoveryCommit_untrusted hcommit ht
  exact ⟨⟨hmembership, happlied, htopology, hhash, hmissing, hinstances⟩, hverdict.trans ht⟩

end Outage

/-- A Reconcile on an untrusted snapshot. -/
theorem prepared_retained {now : Int} {w w₁ : World} {p : Prepared}
    (hp : PrepareSpec now w p w₁) (h : lastDiscoveryTrusted w.stored.resource = false) :
    Retained w.stored.resource.status
      (w.stored.updateStatus (p.status w.stored.resource)).resource.status ∧
    discoveryVerdict (p.status w.stored.resource).conditions = false := by
  have hcached := cachedDiscovery_untrusted h
  have hmissing := hp.stored_missing.trans (hp.skipped (hp.not_applied hcached)).1
  rw [Prepared.status, hp.resource, hp.evaluation] at hmissing ⊢
  have hfrozen : p.plan.frozen = true := by
    rw [hp.plan]
    exact finalPlan_frozen hcached
  obtain ⟨hmembership, happlied, hinstances⟩ := reconcileCommit_frozen w.stored.resource p.plan
    p.missing p.now w.stored.resource (scheduledEvaluation w.stored.resource) hfrozen
  obtain ⟨htopology, hhash, -⟩ := reconcileCommit_frame w.stored.resource p.plan p.missing p.now
    w.stored.resource
  refine ⟨⟨hmembership, ?_, htopology, hhash, ?_, hinstances⟩, ?_⟩
  · rw [StoredResource.updateStatus_status, Status.marshal_lastAppliedTime, happlied]
    exact congrArg Status.lastAppliedTime w.stored.canonical
  · exact hmissing
  · rw [reconcileCommit_verdict]
    exact hcached

/-- **One step retains everything and leaves the verdict.** -/
theorem Move.frozen {w w' : World} {step : Step} {events : List Event}
    (hmove : Move w step w' events) (h : lastDiscoveryTrusted w.stored.resource = false)
    (hstep : DuringOutage w step) :
    Retained w.stored.resource.status w'.stored.resource.status ∧
    lastDiscoveryTrusted w'.stored.resource = false := by
  have hsame : ∀ {s : StoredResource}, s = w.stored →
      Retained w.stored.resource.status s.resource.status ∧
        lastDiscoveryTrusted s.resource = false := by
    rintro _ rfl
    exact ⟨Retained.refl _, h⟩
  cases hmove with
  | discovered answered due commit stored =>
    obtain ⟨hret, hverdict⟩ := discoveryWork_retained h hstep commit
    rw [stored]
    exact ⟨hret.stored, (discoveryVerdict_marshal _).trans hverdict⟩
  | monitored trusted commit stored =>
    rw [cachedDiscovery_untrusted h] at trusted
    cases trusted
  | reconciled prepared cluster stored =>
    obtain ⟨hret, hverdict⟩ := prepared_retained prepared h
    rw [stored]
    exact ⟨hret, (discoveryVerdict_marshal _).trans hverdict⟩
  | edited stored =>
    rw [stored]
    exact ⟨Retained.refl _, h⟩
  | undiscovered unanswered stored | unmonitored stored | attempted stored | moved stored =>
    exact hsame stored

/-! ## 3. Whole runs -/

/-- The cluster, if only the environment acted on it. -/
def environmentOnly (cluster : Cluster) : Step → Cluster
  | .environment cluster' => cluster'
  | _ => cluster

/-- The objects of the namespace change by the environment's hand only, and none of the
operator's writes is to them. -/
theorem frozen_step_namespace {w : World} (h : lastDiscoveryTrusted w.stored.resource = false)
    (step : Step) :
    (w.next step).namespaceSide = (environmentOnly w.cluster step, w.namespaceSide.2) := by
  cases step with
  | discover discover checkedAt now faults | monitor check checkedAt now faults =>
    exact runJob_keeps _ _ (w.meet faults)
  | reconcile now faults =>
    exact reconcile_frozen (w := w.meet faults) (cachedDiscovery_untrusted h)
  | editSpec spec => rfl
  | environment cluster => rfl

/-- **The freeze.**  From any state with an untrusted verdict, along any run in which no
discovery is trusted: no object is written or deleted, the status keeps everything that decides
about traffic, and the verdict stays. -/
theorem frozen_run (w : World) (h : lastDiscoveryTrusted w.stored.resource = false)
    (steps : List Step) (hsteps : Machine.Along World.next DuringOutage w steps) :
    let w' := Machine.run World.next w steps
    lastDiscoveryTrusted w'.stored.resource = false ∧
      Retained w.stored.resource.status w'.stored.resource.status ∧
      w'.cluster = steps.foldl environmentOnly w.cluster ∧
      w'.writes.filter (!·.isStatus) = w.writes.filter (!·.isStatus) := by
  induction steps generalizing w with
  | nil => exact ⟨h, Retained.refl _, rfl, rfl⟩
  | cons step steps ih =>
    obtain ⟨hret, hverdict⟩ := (next_move w step).frozen h hsteps.1
    have hnamespace := frozen_step_namespace h step
    obtain ⟨hfinal, hrest, hcluster, hwrites⟩ := ih (w.next step) hverdict hsteps.2
    refine ⟨hfinal, hret.trans hrest, hcluster.trans ?_, hwrites.trans ?_⟩
    · exact congrArg (fun c => steps.foldl environmentOnly c) (congrArg Prod.fst hnamespace)
    · exact congrArg Prod.snd hnamespace

/-- A resource that has a writer and a reader, and whose last verdict is "untrusted". -/
def frozenResource : StoredResource where
  resource :=
    { name := "db"
      status :=
        { lastKnownTopology := [{ instanceName := "a", role := .writer },
            { instanceName := "b", role := .reader }]
          lastAppliedMembership := ⟨["a"], ["b"]⟩
          lastAppliedTime := some (5 * second)
          missingInstances := [{ instanceName := "c", missingCount := 2 }]
          conditions := [{ type := .discoveryTrusted, status := .false }] } }
  canonical := by decide

theorem frozen_run_outage :
    let w : World := { stored := frozenResource }
    let steps : List Step :=
      [.reconcile (10 * second) [], .discover (fun _ => .error "timeout") 0 (20 * second) [],
        .monitor (fun _ _ => .ok ∅) 0 (30 * second) [], .editSpec {}, .reconcile (40 * second) []]
    let w' := Machine.run World.next w steps
    lastDiscoveryTrusted w'.stored.resource = false ∧
      w'.stored.resource.status.lastAppliedMembership = ⟨["a"], ["b"]⟩ ∧
      w'.writes.filter (!·.isStatus) = [] := by
  have h := frozen_run { stored := frozenResource } (by decide)
    [.reconcile (10 * second) [], .discover (fun _ => .error "timeout") 0 (20 * second) [],
      .monitor (fun _ _ => .ok ∅) 0 (30 * second) [], .editSpec {}, .reconcile (40 * second) []]
    ⟨trivial, (fun _ h => by cases h), trivial, trivial, trivial, trivial⟩
  exact ⟨h.1, h.2.1.membership, h.2.2.2⟩

end Controller

end AuroraOperator

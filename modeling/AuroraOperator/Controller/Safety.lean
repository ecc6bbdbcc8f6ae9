/-
# Writer safety, and labels that tell the truth

Two results about every state the operator can reach, from a new resource and with its own
provider, whatever the database and the cluster do:

* `writer_safety`: a plan that is not frozen sends writes to at most one instance, and never to
  a disabled one or to a reader;
* `labels_match_membership`: after a Reconcile that succeeds on such a plan, the labels on the
  pods and the membership in the status say the same, whether or not it applied anything.
-/
import AuroraOperator.Controller.Invariants

namespace AuroraOperator

namespace Controller

open Discovery Planner Render Program

/-! ## 1. Writer safety -/

/-- A writer that went missing, but not for long. -/
structure RetainedWriter (resource : PgBouncerAurora) (name : String) : Prop where
  absent : name ∉ (cachedDiscovery resource).instances.map (·.name)
  tracked : ∃ m ∈ resource.status.missingInstances,
    m.instanceName = name ∧ m.missingCount < removeAfterMissingCount resource
  lastApplied : resource.status.lastAppliedMembership.writer = [name]

/-- What makes the writers of a plan safe to send writes to. -/
structure SafeWriter (resource : PgBouncerAurora) (plan : Output) : Prop where
  atMostOne : plan.membership.writer.length ≤ 1
  enabled : ∀ name ∈ plan.membership.writer,
    instanceDisabled resource.spec.pgbouncer name = false
  notReader : ∀ name ∈ plan.membership.writer,
    ∀ o ∈ (cachedDiscovery resource).instances, o.name = name → o.role ≠ .reader
  origin : ∀ name ∈ plan.membership.writer,
    discoveredWriters (cachedDiscovery resource).instances = [name] ∨
      RetainedWriter resource name

section Origin

variable {resource : PgBouncerAurora} {cluster : Cluster}

/-- **Where a planned writer comes from**: it is a discovered writer, or a retained one.  The
planner's branches and the fast path all end in one of the two. -/
theorem planned_writer_cases (hsound : Sound resource.status)
    (h : (finalPlan resource cluster).frozen = false) {name : String}
    (hname : name ∈ (finalPlan resource cluster).membership.writer) :
    instanceDisabled resource.spec.pgbouncer name = false ∧
      ((∃ o ∈ (cachedDiscovery resource).instances, o.role = .writer ∧ o.name = name) ∨
        RetainedWriter resource name) := by
  rcases finalPlan_writer h with hw | ⟨w, hw, hsingle, hne, hen⟩
  · rw [hw] at hname
    rcases decidedWriter_cases (reconcileInput resource) with hhealthy | ⟨-, hkept⟩
    · obtain ⟨o, ho, hr, hh, rfl⟩ := mem_healthyMembers.mp (hhealthy name hname)
      exact ⟨not_disabled_of_healthy _ hh, Or.inl ⟨o, ho, hr, rfl⟩⟩
    · obtain ⟨hlast, hret⟩ := hkept name hname
      unfold retainable at hret
      rw [Bool.and_eq_true, List.any_eq_true] at hret
      obtain ⟨⟨m, hm, hp⟩, hen⟩ := hret
      simp only [Bool.and_eq_true, decide_eq_true_eq] at hp
      obtain ⟨⟨hmname, -⟩, hcount⟩ := hp
      rw [Bool.not_eq_true'] at hen
      refine ⟨hen, Or.inr ⟨?_, ⟨m, hm, hmname, hcount⟩, ?_⟩⟩
      · rw [cachedDiscovery_instances (trusted_of_not_frozen h), map_name_topologyObservations,
          ← hmname]
        exact hsound.disjoint _ (List.mem_map_of_mem hm)
      · -- at most one writer was applied, so it is this one
        have hone := hsound.writer
        have hmem : name ∈ resource.status.lastAppliedMembership.writer := hlast
        match hl : resource.status.lastAppliedMembership.writer, hone, hmem with
        | [x], _, hmem => rw [List.mem_singleton.mp hmem]
  · rw [hw] at hname
    obtain rfl := List.mem_singleton.mp hname
    obtain ⟨o, ho, hr, hon⟩ := exists_single_writer (hsingle ▸ hne)
    exact ⟨hen, Or.inl ⟨o, ho, hr, hon.trans hsingle.symm⟩⟩

theorem Sound.safeWriter (hsound : Sound resource.status)
    (h : (finalPlan resource cluster).frozen = false) :
    SafeWriter resource (finalPlan resource cluster) := by
  have hwf := hsound.wellFormed (trusted_of_not_frozen h)
  refine ⟨finalPlan_writer_length h hsound.writer, ?_, ?_, ?_⟩
  · exact fun name hname => (planned_writer_cases hsound h hname).1
  · intro name hname o ho hon
    rcases (planned_writer_cases hsound h hname).2 with ⟨o', ho', hr, hon'⟩ | hret
    · rw [hwf.role_eq ho' ho (hon.trans hon'.symm), hr]
      decide
    · exact absurd (List.mem_map.mpr ⟨o, ho, hon⟩) hret.absent
  · intro name hname
    rcases (planned_writer_cases hsound h hname).2 with ⟨o, ho, hr, rfl⟩ | hret
    · exact Or.inl (hwf.discoveredWriters_eq ho hr)
    · exact Or.inr hret

end Origin

/-- **Writer safety over whole runs.** -/
theorem writer_safety (name : String) (spec : PgBouncerAuroraSpec) (cluster : Cluster)
    (steps : List Step) (hsteps : ∀ step ∈ steps, FromProvider step) (pods : Cluster)
    (h : (finalPlan (reached name spec cluster steps).stored.resource pods).frozen = false) :
    SafeWriter (reached name spec cluster steps).stored.resource
      (finalPlan (reached name spec cluster steps).stored.resource pods) :=
  (sound_run name spec cluster hsteps).safeWriter h

/-- A provider whose database lists a writer `a` and a reader `b`. -/
def exampleProvider : Provider where
  rows := some (.ok [⟨"a", "MASTER_SESSION_ID"⟩, ⟨"b", "session"⟩])
  metadata := none

def exampleSpec : PgBouncerAuroraSpec := { discovery := { domainName := "rds" } }

def exampleSteps : List Step :=
  [.discover (fun resource => .ok (exampleProvider.discover resource)) 0 (10 * second) [],
    .monitor (fun _ _ => .ok ((∅ : StringMap HealthStatus).insert "a" { healthy := true }))
      0 (20 * second) [],
    .monitor (fun _ _ => .ok ((∅ : StringMap HealthStatus).insert "a" { healthy := true }))
      0 (30 * second) []]

theorem exampleSteps_fromProvider : ∀ step ∈ exampleSteps, FromProvider step := by
  intro step hstep
  simp only [exampleSteps, List.mem_cons, List.not_mem_nil, or_false] at hstep
  rcases hstep with rfl | rfl | rfl
  · rintro resource discovery h
    exact ⟨exampleProvider, (Except.ok.inj h).symm⟩
  · trivial
  · trivial

theorem writer_safety_example :
    SafeWriter (reached "db" exampleSpec {} exampleSteps).stored.resource
      (finalPlan (reached "db" exampleSpec {} exampleSteps).stored.resource {}) :=
  writer_safety "db" exampleSpec {} exampleSteps exampleSteps_fromProvider {} (by decide +kernel)

/-! ## 2. Labels and status agree -/

/-- When `membershipChanged` sees no difference and the new list has no name twice, the two
lists name the same instances. -/
theorem mem_iff_of_not_membershipChanged {a b : List String} (h : membershipChanged a b = false)
    (hb : b.Nodup) {name : String} : name ∈ a ↔ name ∈ b := by
  unfold membershipChanged at h
  simp only [Bool.or_eq_false_iff, decide_eq_false_iff_not, not_not, List.any_eq_false,
    Bool.not_eq_true', Bool.not_eq_false, stringSet_iff, ne_eq] at h
  have hperm : b.Perm a := (List.subperm_of_subset hb h.2).perm_of_length_le h.1.le
  exact hperm.mem_iff.symm

/-- The membership label of a pod says whether its instance is a member. -/
def LabelTells (labels : StringMap String) (key : String) (members : List String)
    (name : String) : Prop :=
  labels[key]? = if name ∈ members then some "true" else none

theorem LabelTells.congr {labels : StringMap String} {key : String} {a b : List String}
    {name : String} (h : LabelTells labels key a name) (hab : name ∈ a ↔ name ∈ b) :
    LabelTells labels key b name := by
  unfold LabelTells at h ⊢
  simpa only [hab] using h

theorem labelTells_of_exact {labels : StringMap String} {key : String} {members : List String}
    {name : String} (h : boolMembershipLabelExact labels key (stringSet members name) = true) :
    LabelTells labels key members name := by
  unfold boolMembershipLabelExact at h
  unfold LabelTells
  by_cases hin : name ∈ members
  · rw [if_pos hin]
    simpa [stringSet_iff.mpr hin] using h
  · rw [if_neg hin]
    have hset : stringSet members name = false := by
      rw [← Bool.not_eq_true, stringSet_iff]
      exact hin
    simpa [hset] using h

/-- The stored membership and the plan's name the same instances. -/
theorem PrepareSpec.stored_members {now : Int} {w w₁ : World} {p : Prepared}
    (hp : PrepareSpec now w p w₁) (hsound : Sound w.stored.resource.status)
    (hf : p.plan.frozen = false) :
    SameMembers p.plan.membership (p.status w.stored.resource).lastAppliedMembership := by
  unfold Prepared.status
  rw [reconcileCommit_membership _ _ _ _ _ _ hf]
  split
  · exact SameMembers.of_eq rfl
  · rename_i hsame
    rw [Bool.not_eq_true, Bool.or_eq_false_iff] at hsame
    rw [hp.plan] at hf hsame ⊢
    have hwf := hsound.wellFormed (trusted_of_not_frozen hf)
    have hwriter := nodup_of_length_le_one (finalPlan_writer_length hf hsound.writer)
    have hreader := finalPlan_reader_nodup hf hsound.writer hwf.nodup hsound.nodup
    exact ⟨fun _ => (mem_iff_of_not_membershipChanged hsame.1 hwriter).symm,
      fun _ => (mem_iff_of_not_membershipChanged hsame.2 hreader).symm⟩

/-- **Committed membership is what the pods carry.** -/
theorem labels_match_membership (name : String) (spec : PgBouncerAuroraSpec) (cluster : Cluster)
    (steps : List Step) (hsteps : ∀ step ∈ steps, FromProvider step) (now : Int)
    (faults : List (Option Fault)) {p : Prepared} {w' : World}
    (hrun : reconcile .scheduled now ((reached name spec cluster steps).meet faults) = .ok p w')
    (hf : p.plan.frozen = false) {podName : String} {pod : Pod}
    (hpod : w'.cluster.pods[podName]? = some pod)
    (hmanaged : managed w'.stored.resource pod.labels = true) (hinstance : podInstance pod ≠ "") :
    LabelTells pod.labels labelWriter w'.stored.resource.status.lastAppliedMembership.writer
        (podInstance pod) ∧
      LabelTells pod.labels labelReader w'.stored.resource.status.lastAppliedMembership.reader
        (podInstance pod) := by
  have hsound := sound_run name spec cluster hsteps
  set w := reached name spec cluster steps
  obtain ⟨w₁, hprepare, hcluster, hstored⟩ := reconcile_eq_ok hrun
  have hp := prepare_eq_ok hprepare
  rw [hstored] at hmanaged
  rw [hcluster] at hpod
  have hexact := hp.labels hf podName pod hpod hmanaged hinstance
  unfold podExact membershipLabelsExact at hexact
  simp only [Bool.and_eq_true] at hexact
  obtain ⟨⟨hwriter, hreader⟩, -⟩ := hexact
  have hsame := hp.stored_members hsound hf
  rw [hstored]
  exact ⟨(labelTells_of_exact hwriter).congr (hsame.1 _),
    (labelTells_of_exact hreader).congr (hsame.2 _)⟩

/-- A cluster with a pod of the instance `a`, which has no membership label yet. -/
def exampleCluster : Cluster where
  pods := (∅ : StringMap Pod).insert "pod"
    { labels := (((∅ : StringMap String).insert labelManagedBy managedByValue).insert labelCluster
        (clusterLabelValue "db")).insert labelInstance "a"
      ready := true }

theorem labels_match_membership_example :
    ∃ p w', reconcile .scheduled (40 * second) ((reached "db" exampleSpec exampleCluster
        exampleSteps).meet []) = .ok p w' ∧
      w'.stored.resource.status.lastAppliedMembership.writer = ["a"] ∧
      ∃ pod, w'.cluster.pods["pod"]? = some pod ∧
        LabelTells pod.labels labelWriter w'.stored.resource.status.lastAppliedMembership.writer
          (podInstance pod) := by
  have hok : returns (fun p w' => !p.plan.frozen &&
      w'.stored.resource.status.lastAppliedMembership.writer == ["a"] &&
      (w'.cluster.pods["pod"]?).any fun pod =>
        managed w'.stored.resource pod.labels && podInstance pod ≠ "")
      (reconcile .scheduled (40 * second))
      ((reached "db" exampleSpec exampleCluster exampleSteps).meet []) = true := by decide +kernel
  obtain ⟨p, w', hrun, hok⟩ := returns_iff.mp hok
  simp only [Bool.and_eq_true, Bool.not_eq_true', beq_iff_eq, Option.any_eq_true,
    decide_eq_true_eq] at hok
  obtain ⟨⟨hf, hwriter⟩, pod, hpod, hmanaged, hinstance⟩ := hok
  exact ⟨p, w', hrun, hwriter, pod, hpod, (labels_match_membership "db" exampleSpec
    exampleCluster exampleSteps exampleSteps_fromProvider (40 * second) [] hrun hf hpod hmanaged
    hinstance).1⟩

end Controller

end AuroraOperator

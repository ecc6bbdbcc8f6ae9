/-
# The same change of the writer, twice

A restart is an annotation on the pod template, and Kubernetes rolls the pods when it changes.
The operator writes the digest of the change: from which writer to which, and what the instances
look like.  When the writer goes back and the same change comes again, the digest is the same,
and a Deployment that still carries it is not rolled.

* `change_restarts`: along every run in which no change is met by a Deployment that carries it
  already, each applied change of the writer gives every existing Deployment of the old and new
  writer another annotation.
* `repeated_change_skips_restart`: the writer moves from `a` to `b`, goes away with `b`, comes back
  as `a`, and moves to `b` again.  Nothing has restarted `a` in between, so its Deployment carries
  the annotation of the first change, and the second one leaves it alone.
-/
import AuroraOperator.Controller.WriterChange
import AuroraOperator.Controller.Success

namespace AuroraOperator

namespace Controller

open Planner Render Program

/-! ## 1. Changes and their annotations -/

/-- The restart annotation of a Deployment. -/
abbrev restartOf (deployment : Deployment) : Option Value :=
  deployment.template.annotations[restartedAtAnnotationKey]?

/-- A Reconcile that meets no failure returns; and if it applies a change of the writer from a
non-empty set, the annotation of every existing Deployment of the old and new writers changes. -/
def ChangeRestarts (w : World) (step : Step) : Prop :=
  ∀ now, step = .reconcile now [] →
    effectiveWriterChangeConnectionHandling w.stored.resource = .restartWriters →
    ∃ p w', reconcile .scheduled now (w.meet []) = .ok p w' ∧
      (p.applied = true → w.writer ≠ [] → w'.writer ≠ w.writer →
        ∀ name ∈ w.writer ++ w'.writer, ∀ deployment deployment',
          w.cluster.deployments[instanceResourceName w.stored.resource.name name]?
            = some deployment →
          w'.cluster.deployments[instanceResourceName w.stored.resource.name name]?
            = some deployment' →
          restartOf deployment' ≠ restartOf deployment)

/-- The annotation for a change of the writer, under the policy to restart the writers. -/
def changeDigest (old new : List String) (instances : List InstancePlan) : Value :=
  .restartToken (hashObject
    { policy := .restartWriters
      previousWriter := sortStrings old
      desiredWriter := sortStrings new
      restartTargets := sortStrings (old ++ new).dedup
      instances := instanceApplyShapeFromPlan instances })

/-- No existing Deployment of the old and new writers carries the annotation of the change that is
planned. -/
def ChangeIsNew (w : World) (step : Step) : Prop :=
  ∀ now, step = .reconcile now [] →
    effectiveWriterChangeConnectionHandling w.stored.resource = .restartWriters →
    SwitchPlanned w → ∀ name ∈ w.writer ++ w.planned.membership.writer, ∀ deployment,
      w.cluster.deployments[instanceResourceName w.stored.resource.name name]? = some deployment →
      restartOf deployment
        ≠ some (changeDigest w.writer w.planned.membership.writer w.planned.instances)

/-! ## 2. New changes restart -/

theorem planToken_eq {resource : PgBouncerAurora} {plan : Output}
    (h : effectiveWriterChangeConnectionHandling resource = .restartWriters) :
    planToken resource plan = changeDigest resource.status.lastAppliedMembership.writer
      plan.membership.writer plan.instances := by
  unfold planToken
  rw [h]
  rfl

/-- One Reconcile: after it, every target carries the annotation of the change, so one that did not
before has another one now. -/
theorem changeRestarts_of_new {w : World} (hc : Consistent w.stored.resource.status) {step : Step}
    (hnew : ChangeIsNew w step) : ChangeRestarts w step := by
  intro now hstep hpolicy
  obtain ⟨p, w', hrun, -⟩ := reconcile_succeeds now (w.meet []) rfl
  refine ⟨p, w', hrun, fun happlied hnonempty hchanged name hname before after hbefore hafter => ?_⟩
  obtain ⟨w₁, hprepare, hcluster, hstored⟩ := reconcile_eq_ok hrun
  have hp := prepare_eq_ok hprepare
  have hrestarts : effectiveWriterChangeConnectionHandling w.stored.resource ≠ .keepExisting := by
    rw [hpolicy]
    decide
  have hplanned : SwitchPlanned w :=
    (hp.writerSwitch_iff hc hstored).mp ⟨hrestarts, hnonempty, hchanged⟩
  rw [hp.committed_writer hc hstored hplanned] at hname
  have hcarried : restartOf after = some (planToken w.stored.resource w.planned) := by
    have htargets := hp.restarted happlied
    rw [hp.plan] at htargets
    rw [hcluster] at hafter
    exact htargets (hplanned.restartsFor hc) name
      (writer_mem_targets hplanned.unfrozen hrestarts hname) after hafter
  rw [hcarried, planToken_eq hpolicy]
  exact (hnew now hstep hpolicy hplanned name hname before hbefore).symm

/-- **Every applied change restarts the old and new writers**, along a run in which every change is
new to their Deployments. -/
theorem change_restarts (name : String) (spec : PgBouncerAuroraSpec) (cluster : Cluster)
    (steps : List Step)
    (hnew : Machine.Along World.next ChangeIsNew (World.initial name spec cluster) steps) :
    Machine.Along World.next ChangeRestarts (World.initial name spec cluster) steps :=
  Machine.Along.imp (I := fun w => Consistent w.stored.resource.status)
    (fun _ _ hc hnew => changeRestarts_of_new hc hnew)
    (fun w step hc _ => (next_move w step).consistent hc) consistent_empty hnew

/-- Deployments that were never restarted have met no change. -/
theorem changeIsNew_of_unmarked {w : World}
    (h : w.cluster.deployments.toList.all (fun entry => (restartOf entry.2).isNone) = true)
    (step : Step) : ChangeIsNew w step := by
  intro now hstep hpolicy hplanned name hname deployment hdeployment hcarried
  have hnone := List.all_eq_true.mp h _
    (Std.ExtTreeMap.mem_toList_iff_getElem?_eq_some.mpr hdeployment)
  dsimp only at hnone
  rw [hcarried] at hnone
  cases hnone

theorem changeIsNew_of_not_reconcile {w : World} {step : Step} (h : ∀ now, step ≠ .reconcile now []) :
    ChangeIsNew w step := fun now hstep => absurd hstep (h now)

/-- The first failover of a resource. -/
theorem change_restarts_first_failover :
    Machine.Along World.next ChangeRestarts failoverStart
      (failoverSteps ++ [.reconcile (60 * second) []]) :=
  change_restarts _ _ _ _ ⟨changeIsNew_of_not_reconcile nofun, changeIsNew_of_not_reconcile nofun,
    changeIsNew_of_unmarked (by decide +kernel) _, changeIsNew_of_not_reconcile nofun,
    changeIsNew_of_not_reconcile nofun, changeIsNew_of_unmarked (by decide +kernel) _, trivial⟩

/-! ## 3. A change that comes again -/

/-- The spec of `failoverStart`, with `b` switched off. -/
def withoutB : PgBouncerAuroraSpec :=
  { failoverStart.stored.resource.spec with
    pgbouncer := { instanceOverrides := [{ name := "b", enabled := some false }] } }

/-- After the failover from `a` to `b`, `b` is switched off, so that there is no writer.  `a` comes
back, `b` is switched on, and the database fails over to it again. -/
def failbackSteps : List Step :=
  failoverSteps ++ [.reconcile (60 * second) [], .editSpec withoutB, .reconcile (70 * second) [],
    .editSpec failoverStart.stored.resource.spec, discoverWriter "a" (80 * second),
    monitorHealthy "a" (90 * second), .reconcile (100 * second) [],
    discoverWriter "b" (110 * second), monitorHealthy "b" (120 * second)]

/-- A check that an attempt applies a change of the writer and leaves the annotation of an old
writer's Deployment as it was. -/
def skipsRestart (w : World) (now : Int) (old : String) : Bool :=
  effectiveWriterChangeConnectionHandling w.stored.resource == .restartWriters &&
    w.writer == [old] &&
    returns (fun p w' => p.applied && w'.writer != [old] &&
      (w.cluster.deployments[instanceResourceName w.stored.resource.name old]?).any fun before =>
        (w'.cluster.deployments[instanceResourceName w.stored.resource.name old]?).any fun after =>
          restartOf after == restartOf before) (reconcile .scheduled now) (w.meet [])

theorem not_changeRestarts_of_skips {w : World} {now : Int} (old : String)
    (h : skipsRestart w now old = true) : ¬ ChangeRestarts w (.reconcile now []) := by
  intro hrestarts
  simp only [skipsRestart, Bool.and_eq_true, beq_iff_eq, returns_iff] at h
  obtain ⟨⟨hpolicy, hold⟩, p, w', hrun, ⟨happlied, hnew⟩, hsame⟩ := h
  simp only [Option.any_eq_true, beq_iff_eq] at hsame
  obtain ⟨before, hbefore, after, hafter, heq⟩ := hsame
  obtain ⟨p₁, w₁, hrun₁, hchange⟩ := hrestarts now rfl hpolicy
  rw [hrun] at hrun₁
  cases hrun₁
  exact hchange happlied (by simp [hold]) (by rw [hold]; simpa using hnew) old (by simp [hold])
    before after hbefore hafter heq

/-- **A change that comes again does not restart the old writer.** -/
theorem repeated_change_skips_restart :
    ¬ ChangeRestarts (Machine.run World.next failoverStart failbackSteps)
      (.reconcile (130 * second) []) :=
  not_changeRestarts_of_skips "a" (by decide +kernel)

end Controller

end AuroraOperator

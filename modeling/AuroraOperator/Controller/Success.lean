/-
# Without failures a Reconcile goes through

A call can fail because the API server does, or because an object is not as the program assumes:
it is to be created and exists, or to be updated and is gone.  Programs look before they write,
and nobody else writes while they run, so the second kind does not happen.

`reconcile_succeeds`: in a world without failures every attempt returns, whatever the namespace
holds.
-/
import AuroraOperator.Controller.Stages

namespace AuroraOperator

namespace Controller

open Planner Render Program

/-! ## 1. Programs that return -/

section Succeeds

variable {α β : Type}

/-- In a world without failures the program returns, and leaves it so. -/
def Succeeds (m : Api α) : Prop :=
  ∀ w : World, w.faults = [] → ∃ a w', m w = .ok a w' ∧ w'.faults = []

theorem Succeeds.pure (a : α) : Succeeds (Pure.pure a) := fun w hw => ⟨a, w, rfl, hw⟩

theorem Succeeds.bind {m : Api α} {f : α → Api β} (hm : Succeeds m) (hf : ∀ a, Succeeds (f a)) :
    Succeeds (m >>= f) := by
  intro w hw
  obtain ⟨a, w₁, h₁, hw₁⟩ := hm w hw
  obtain ⟨b, w₂, h₂, hw₂⟩ := hf a w₁ hw₁
  exact ⟨b, w₂, bind_eq_ok.mpr ⟨a, w₁, h₁, h₂⟩, hw₂⟩

theorem Succeeds.forM {f : α → Api PUnit} (hf : ∀ a, Succeeds (f a)) (l : List α) :
    Succeeds (l.forM f) := by
  induction l with
  | nil => exact Succeeds.pure _
  | cons a l ih => exact Succeeds.bind (hf a) fun _ => ih

/-- The first attempt is enough. -/
theorem Succeeds.retry {m : Api α} (hm : Succeeds m) (again : ApiError → Bool) (n : Nat) :
    Succeeds (Program.retry again m n) := by
  intro w hw
  obtain ⟨a, w', h, hw'⟩ := hm w hw
  exact ⟨a, w', retry_of_ok h n, hw'⟩

/-- A call that can only fail for want of the thing it is about. -/
theorem Succeeds.ignoreNotFound {m : Api α}
    (hm : ∀ w : World, w.faults = [] → (∃ a w', m w = .ok a w' ∧ w'.faults = []) ∨
      ∃ w', m w = .error .notFound w' ∧ w'.faults = []) : Succeeds (Controller.ignoreNotFound m) := by
  intro w hw
  rcases hm w hw with ⟨a, w', h, hw'⟩ | ⟨w', h, hw'⟩
  · exact ⟨some a, w', recover_eq_some.mpr h, hw'⟩
  · exact ⟨none, w', recover_eq_none.mpr ⟨_, h, by simp⟩, hw'⟩

/-- A call whose work does not fail. -/
theorem Succeeds.call {m : Api α}
    (hm : ∀ w : World, w.faults = [] → ∃ a w', m w = .ok a w' ∧ w'.faults = []) :
    Succeeds (Controller.call m) := by
  intro w hw
  rw [call_of_no_faults m hw]
  exact hm w hw

theorem Succeeds.ite (c : Prop) [Decidable c] {m n : Api α} (hm : Succeeds m) (hn : Succeeds n) :
    Succeeds (if c then m else n) := by
  split
  · exact hm
  · exact hn

/-- A program that first looks something up: what follows starts in the same world, and knows what
was found there. -/
theorem Succeeds.lookup {lookup : Cluster → Option β} {f : Option β → Api α}
    (hf : ∀ w : World, w.faults = [] →
      ∃ a w', f (lookup w.cluster) w = .ok a w' ∧ w'.faults = []) :
    Succeeds (Controller.ignoreNotFound (fetch lookup) >>= f) := by
  intro w hw
  obtain ⟨a, w', h, hw'⟩ := hf w hw
  have hread : Controller.ignoreNotFound (fetch lookup) w = .ok (lookup w.cluster) w := by
    unfold Controller.ignoreNotFound recover fetch Controller.call
    rw [hw]
    dsimp only
    cases lookup w.cluster <;> rfl
  exact ⟨a, w', bind_eq_ok.mpr ⟨_, _, hread, h⟩, hw'⟩

end Succeeds

/-! ## 2. Labelling -/

theorem patchPodLabels_succeeds (done : Pod → Bool) (labels : Pod → StringMap String)
    (name : String) : Succeeds (patchPodLabels done labels name) := by
  refine Succeeds.retry (Succeeds.lookup fun w hw => ?_) _ _
  cases hpod : w.cluster.pods[name]? with
  | none => exact ⟨_, w, rfl, hw⟩
  | some pod =>
    dsimp only
    split
    · exact ⟨_, w, rfl, hw⟩
    · refine Succeeds.bind (Succeeds.ignoreNotFound fun w hw => ?_) (fun _ => Succeeds.pure _) w hw
      unfold patchPod call
      rw [hw]
      dsimp only
      cases w.cluster.pods[name]? with
      | none => exact Or.inr ⟨w, rfl, hw⟩
      | some pod => exact Or.inl ⟨_, _, rfl, hw⟩

theorem addMembershipLabels_succeeds (plan : Output) (names : List String) :
    Succeeds (addMembershipLabels plan names) := by
  induction names with
  | nil => exact Succeeds.pure _
  | cons name rest ih =>
    exact Succeeds.bind (patchPodLabels_succeeds _ _ _) fun _ =>
      Succeeds.bind ih fun _ => Succeeds.pure _

theorem patchPodMembership_succeeds (resource : PgBouncerAurora) (plan : Output) :
    Succeeds (patchPodMembership resource plan) := by
  refine Succeeds.bind (fun w hw => ⟨_, w, call_of_no_faults _ hw, hw⟩) fun _ =>
    Succeeds.bind (addMembershipLabels_succeeds _ _) fun _ => Succeeds.forM (fun _ => ?_) _
  exact Succeeds.bind (patchPodLabels_succeeds _ _ _) fun _ => Succeeds.pure _

/-! ## 3. Applying -/

theorem updateObject_of_found {kind : Kind} {name : String} {object found : kind.Object} {w : World}
    (hw : w.faults = []) (hfound : (objects kind w.cluster)[name]? = some found) :
    ∃ w', updateObject kind name object w = .ok () w' ∧ w'.faults = [] := by
  unfold updateObject call
  rw [hw]
  dsimp only
  rw [hfound]
  exact ⟨_, rfl, hw⟩

theorem createObject_of_absent {kind : Kind} {object : kind.Object} {w : World}
    (hw : w.faults = []) (habsent : (objects kind w.cluster)[(kind.metadata object).name]? = none) :
    ∃ w', createObject kind object w = .ok () w' ∧ w'.faults = [] := by
  unfold createObject call
  rw [hw]
  dsimp only
  rw [habsent]
  exact ⟨_, rfl, hw⟩

theorem applyObject_succeeds (kind : Kind) (desired : kind.Object) (hollow : List Part) :
    Succeeds (applyObject kind desired hollow) := by
  refine Succeeds.retry (Succeeds.lookup fun w hw => ?_) _ _
  cases hfound : (objects kind w.cluster)[(kind.metadata desired).name]? with
  | none =>
    obtain ⟨w', hcreate, hw'⟩ := createObject_of_absent hw hfound
    exact ⟨(), w', by simp [mapError, hcreate], hw'⟩
  | some existing =>
    dsimp only
    split
    · exact ⟨(), w, rfl, hw⟩
    · obtain ⟨w', hupdate, hw'⟩ := updateObject_of_found hw hfound
      exact ⟨(), w', hupdate, hw'⟩

theorem deleteIfPresent_succeeds (kind : Kind) (name : String) :
    Succeeds (deleteIfPresent kind name) := by
  refine Succeeds.bind (Succeeds.ignoreNotFound fun w hw => ?_) fun _ => Succeeds.pure _
  unfold deleteObject call
  rw [hw]
  dsimp only
  cases (objects kind w.cluster)[name]? with
  | none => exact Or.inr ⟨w, rfl, hw⟩
  | some object => exact Or.inl ⟨_, _, rfl, hw⟩

theorem deleteInstanceResources_succeeds (resource : PgBouncerAurora) (instanceName : String) :
    Succeeds (deleteInstanceResources resource instanceName) :=
  Succeeds.forM (fun _ => deleteIfPresent_succeeds _ _) _

theorem listObjects_succeeds (kind : Kind) (resource : PgBouncerAurora) :
    Succeeds (listObjects kind resource) := Succeeds.call fun w hw => ⟨_, w, rfl, hw⟩

theorem listPods_succeeds (resource : PgBouncerAurora) : Succeeds (listPods resource) :=
  Succeeds.call fun w hw => ⟨_, w, rfl, hw⟩

theorem authFileHash_succeeds (resource : PgBouncerAurora) : Succeeds (authFileHash resource) :=
  fun w hw => ⟨_, w, authFileHash_of_no_faults resource hw, hw⟩

theorem applyInstance_succeeds (resource : PgBouncerAurora)
    (digest : Option (Digest AuthFileMetadata)) (entry : InstancePlan) :
    Succeeds (applyInstance resource digest entry) :=
  Succeeds.bind (applyObject_succeeds _ _ _) fun _ =>
    Succeeds.bind (applyObject_succeeds _ _ _) fun _ => applyObject_succeeds _ _ _

theorem applyWith_succeeds (resource : PgBouncerAurora) (plan : Output)
    (digest : Option (Digest AuthFileMetadata)) : Succeeds (applyWith resource plan digest) := by
  refine Succeeds.bind (Succeeds.forM (applyInstance_succeeds _ _) _) fun _ => ?_
  refine Succeeds.bind (Succeeds.forM (fun _ => applyObject_succeeds _ _ _) _) fun _ => ?_
  refine Succeeds.bind (Succeeds.bind (listObjects_succeeds _ _) fun _ => Succeeds.forM (fun _ =>
    Succeeds.ite _ (deleteIfPresent_succeeds _ _) (Succeeds.pure _)) _) fun _ => ?_
  exact Succeeds.forM (fun _ =>
    Succeeds.ite _ (deleteInstanceResources_succeeds _ _) (Succeeds.pure _)) _

theorem applyDesired_succeeds (resource : PgBouncerAurora) (plan : Output) :
    Succeeds (applyDesired resource plan) :=
  Succeeds.bind (Succeeds.ite _ (authFileHash_succeeds _) (Succeeds.pure _)) fun _ =>
    applyWith_succeeds resource plan _

theorem cleanupRemovedFrom_succeeds (resource : PgBouncerAurora) (discovery : DiscoveryResult)
    (now : Int) (missing : List MissingInstanceStatus) :
    Succeeds (cleanupRemovedFrom resource discovery now missing) := by
  induction missing with
  | nil => exact Succeeds.pure _
  | cons m rest ih =>
    exact Succeeds.ite _ (Succeeds.bind ih fun _ => Succeeds.pure _)
      (Succeeds.bind (deleteInstanceResources_succeeds _ _) fun _ => ih)

theorem restartDeployment_succeeds (token : Value) (name : String) :
    Succeeds (restartDeployment token name) := by
  refine Succeeds.retry (Succeeds.lookup fun w hw => ?_) _ _
  cases hfound : (objects .deployment w.cluster)[name]? with
  | none => exact ⟨(), w, rfl, hw⟩
  | some deployment =>
    dsimp only
    split
    · exact ⟨(), w, rfl, hw⟩
    · obtain ⟨w', hupdate, hw'⟩ := updateObject_of_found hw hfound
      exact ⟨(), w', hupdate, hw'⟩

theorem handleWriterChangeConnection_succeeds (resource : PgBouncerAurora) (plan : Output) :
    Succeeds (handleWriterChangeConnection resource plan) :=
  Succeeds.ite _ (Succeeds.pure _) <| Succeeds.ite _ (Succeeds.pure _) <|
    Succeeds.forM (fun _ => restartDeployment_succeeds _ _) _

theorem finishApply_succeeds (resource : PgBouncerAurora) (discovery : DiscoveryResult)
    (plan : Output) (missing : List MissingInstanceStatus) (now : Int) :
    Succeeds (finishApply resource discovery plan missing now) :=
  Succeeds.bind (Succeeds.ite _ (Succeeds.pure _) (cleanupRemovedFrom_succeeds _ _ _ _)) fun _ =>
    Succeeds.bind (patchPodMembership_succeeds _ _) fun _ =>
      Succeeds.bind (handleWriterChangeConnection_succeeds _ _) fun _ => Succeeds.pure _

/-! ## 4. Whole attempts -/

theorem shouldApplyPlan_succeeds (resource : PgBouncerAurora) (evaluation : Evaluation)
    (plan : Output) (missing : List MissingInstanceStatus) (now : Int) :
    Succeeds (shouldApplyPlan resource evaluation plan missing now) := by
  refine Succeeds.ite _ (Succeeds.pure _) <| Succeeds.ite _ (Succeeds.pure _) <|
    Succeeds.ite _ (Succeeds.pure _) <| Succeeds.ite _ (Succeeds.pure _) ?_
  refine Succeeds.bind (listObjects_succeeds _ _) fun configMaps => ?_
  split
  · exact Succeeds.pure _
  · refine Succeeds.bind (listObjects_succeeds _ _) fun deployments => ?_
    split
    · exact Succeeds.pure _
    · refine Succeeds.bind (Succeeds.ite _ (Succeeds.pure _) (Succeeds.bind
        (authFileHash_succeeds _) fun _ => Succeeds.pure _)) fun drifted => ?_
      refine Succeeds.ite _ (Succeeds.pure _) (Succeeds.bind (listObjects_succeeds _ _) fun _ => ?_)
      split
      · exact Succeeds.pure _
      · exact Succeeds.bind (listPods_succeeds _) fun _ =>
          Succeeds.ite _ (Succeeds.pure _) (Succeeds.pure _)

theorem getResource_succeeds : Succeeds getResource := Succeeds.call fun w hw => ⟨_, w, rfl, hw⟩

theorem planFor_succeeds (resource : PgBouncerAurora) (evaluation : Evaluation)
    (missing : List MissingInstanceStatus) : Succeeds (planFor resource evaluation missing) := by
  unfold planFor
  dsimp only
  split
  · exact Succeeds.pure _
  · exact Succeeds.bind (listPods_succeeds _) fun _ => Succeeds.pure _

theorem prepare_succeeds (now : Int) : Succeeds (prepare .scheduled now) := by
  refine Succeeds.bind getResource_succeeds fun _ => Succeeds.bind getResource_succeeds fun _ => ?_
  refine Succeeds.bind (Succeeds.pure _) fun _ => Succeeds.bind (planFor_succeeds _ _ _) fun _ => ?_
  refine Succeeds.bind (shouldApplyPlan_succeeds _ _ _ _ _) fun _ => ?_
  exact Succeeds.bind (Succeeds.ite _ (Succeeds.bind (applyDesired_succeeds _ _) fun _ =>
    finishApply_succeeds _ _ _ _ _) (Succeeds.pure _)) fun _ => Succeeds.pure _

theorem commitStatus_succeeds (next : PgBouncerAurora → Option Status) :
    Succeeds (commitStatus next) := by
  refine Succeeds.retry (Succeeds.bind getResource_succeeds fun fresh => ?_) _ _
  split
  · exact Succeeds.pure _
  · exact Succeeds.ite _ (Succeeds.pure _) (Succeeds.bind
      (Succeeds.call fun w hw => ⟨_, _, rfl, hw⟩) fun _ => Succeeds.pure _)

/-- **Without failures a Reconcile goes through.** -/
theorem reconcile_succeeds (now : Int) : Succeeds (reconcile .scheduled now) :=
  Succeeds.bind (prepare_succeeds now) fun _ =>
    Succeeds.bind (commitStatus_succeeds _) fun _ => Succeeds.pure _

end Controller

end AuroraOperator

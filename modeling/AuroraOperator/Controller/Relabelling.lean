/-
# Relabelling, patch by patch

A Service sends traffic to the pods that carry its label.  While members move from one set of
pods to another, the labels are patched one pod at a time, any patch can fail, and the Services
are in use all along.  So what matters is not only the labels at the end, but those after every
single patch.

`relabelling_never_empties` is about every run of `patchPodMembership`, and reads the moments of
the run off the server's journal.  There are two parts.  In the first, no pod loses its label;
in the second, no pod that is to have the label lacks it.  The second part begins only when the
first is through.
-/
import AuroraOperator.Lib.Journal
import AuroraOperator.Controller.Failures
import AuroraOperator.Controller.Fixpoint

namespace AuroraOperator

namespace Controller

open Planner Render Program

/-! ## 1. Who has the label, and who is to have it -/

/-- The pods of the resource that carry the label of the role. -/
def carriers (resource : PgBouncerAurora) (role : Role) (pods : StringMap Pod) : Set String :=
  {name | ∃ pod, pods[name]? = some pod ∧ managed resource pod.labels = true ∧
    pod.labels[roleSelectorKey role]? = some "true"}

/-- The pods of the resource whose instance the plan has as a member. -/
def wanted (resource : PgBouncerAurora) (plan : Output) (role : Role) (pods : StringMap Pod) :
    Set String :=
  {name | ∃ pod, pods[name]? = some pod ∧ managed resource pod.labels = true ∧
    podInstance pod ∈ membersOf plan.membership role}

/-- Of the labels, only those of the membership may differ. -/
def SameIdentity (labels labels' : StringMap String) : Prop :=
  ∀ key : String, key ≠ labelWriter → key ≠ labelReader → key ≠ labelRole →
    labels'[key]? = labels[key]?

section Labels

variable {resource : PgBouncerAurora} {plan : Output} {labels labels' : StringMap String}

theorem SameIdentity.managed (h : SameIdentity labels labels') :
    managed resource labels' = managed resource labels := by
  unfold Controller.managed
  rw [h labelManagedBy (by decide) (by decide) (by decide),
    h labelCluster (by decide) (by decide) (by decide)]

theorem SameIdentity.podInstance {pod : Pod} (h : SameIdentity pod.labels labels) :
    podInstance { pod with labels := labels } = podInstance pod := by
  unfold Controller.podInstance
  rw [h labelInstance (by decide) (by decide) (by decide)]

theorem getElem?_addedLabels (desired : DesiredLabels) (labels : StringMap String)
    (other : String) :
    (addedLabels desired labels)[other]? =
      if labelRole = other ∧ desired.role.isSome then desired.role.map Role.text
      else if labelReader = other ∧ desired.reader then some "true"
      else if labelWriter = other ∧ desired.writer then some "true"
      else labels[other]? := by
  unfold addedLabels
  rcases desired with ⟨writer, reader, role⟩
  cases role <;> cases reader <;> cases writer <;> simp [Std.ExtTreeMap.getElem?_insert]

theorem addedLabels_identity (desired : DesiredLabels) (labels : StringMap String) :
    SameIdentity labels (addedLabels desired labels) := by
  intro key hwriter hreader hrole
  rw [getElem?_addedLabels, if_neg fun h => hrole h.1.symm, if_neg fun h => hreader h.1.symm,
    if_neg fun h => hwriter h.1.symm]

theorem exactLabels_identity (desired : DesiredLabels) (labels : StringMap String) :
    SameIdentity labels (exactLabels desired labels) := by
  intro key hwriter hreader hrole
  rw [getElem?_exactLabels, if_neg hrole.symm, if_neg hreader.symm, if_neg hwriter.symm]

/-- The label of a role is among the desired ones. -/
def DesiredLabels.has (desired : DesiredLabels) : Role → Bool
  | .writer => desired.writer
  | .reader => desired.reader

theorem desiredLabels_has {pod : Pod} {role : Role} :
    (desiredLabels plan pod).has role = true ↔
      podInstance pod ∈ membersOf plan.membership role := by
  cases role <;> exact stringSet_iff

/-- An addition gives a desired label, and leaves others alone. -/
theorem addedLabels_role (desired : DesiredLabels) (labels : StringMap String) (role : Role) :
    (addedLabels desired labels)[roleSelectorKey role]? =
      if desired.has role then some "true" else labels[roleSelectorKey role]? := by
  rw [getElem?_addedLabels]
  cases role with
  | writer =>
    cases h : desired.writer <;>
      simp [roleSelectorKey, DesiredLabels.has, labelRole, labelReader, labelWriter, h]
  | reader =>
    cases h : desired.reader <;>
      simp [roleSelectorKey, DesiredLabels.has, labelRole, labelReader, labelWriter, h]

/-- An exact patch takes the others away. -/
theorem exactLabels_role (desired : DesiredLabels) (labels : StringMap String) (role : Role) :
    (exactLabels desired labels)[roleSelectorKey role]? =
      if desired.has role then some "true" else none := by
  rw [getElem?_exactLabels]
  cases role with
  | writer =>
    cases h : desired.writer <;>
      simp [roleSelectorKey, DesiredLabels.has, labelRole, labelReader, labelWriter, h]
  | reader =>
    cases h : desired.reader <;>
      simp [roleSelectorKey, DesiredLabels.has, labelRole, labelReader, h]

theorem role_of_additionsDone {desired : DesiredLabels} {role : Role}
    (h : additionsDone desired labels = true) (hhas : desired.has role = true) :
    labels[roleSelectorKey role]? = some "true" := by
  simp only [additionsDone, Bool.and_eq_true, Bool.or_eq_true, Bool.not_eq_true', beq_iff_eq] at h
  cases role with
  | writer => exact h.1.1.resolve_left (by simpa [DesiredLabels.has] using hhas)
  | reader => exact h.1.2.resolve_left (by simpa [DesiredLabels.has] using hhas)

/-- An exact pod has the label if it is desired, and otherwise not even the key. -/
theorem role_of_podExact {pod : Pod} (h : podExact plan pod = true) (role : Role) :
    pod.labels[roleSelectorKey role]? =
      if (desiredLabels plan pod).has role then some "true" else none := by
  simp only [podExact, membershipLabelsExact, boolMembershipLabelExact, Bool.and_eq_true] at h
  cases role with
  | writer =>
    have hlabel := h.1.1
    simp only [roleSelectorKey, DesiredLabels.has, desiredLabels]
    split at hlabel <;> simp_all
  | reader =>
    have hlabel := h.1.2
    simp only [roleSelectorKey, DesiredLabels.has, desiredLabels]
    split at hlabel <;> simp_all

end Labels

/-! ## 2. What a patch does to the sets -/

section Sets

variable {resource : PgBouncerAurora} {plan : Output} {pods : StringMap Pod} {name : String}
  {pod : Pod} {labels : StringMap String}

/-- A patch leaves the identity of its pod alone, so the plan wants the same pods as before. -/
theorem wanted_patched (hpod : pods[name]? = some pod) (h : SameIdentity pod.labels labels)
    (role : Role) :
    wanted resource plan role (pods.insert name { pod with labels := labels })
      = wanted resource plan role pods := by
  ext other
  by_cases heq : name = other
  · subst heq
    simp [wanted, hpod, h.managed, h.podInstance]
  · simp [wanted, Std.ExtTreeMap.getElem?_insert, heq]

theorem mem_carriers_patched (h : SameIdentity pod.labels labels) {role : Role}
    {other : String} :
    other ∈ carriers resource role (pods.insert name { pod with labels := labels }) ↔
      (other = name ∧ managed resource pod.labels = true ∧
        labels[roleSelectorKey role]? = some "true") ∨
      (other ≠ name ∧ other ∈ carriers resource role pods) := by
  by_cases heq : name = other
  · subst heq
    simp [carriers, h.managed]
  · simp [carriers, Std.ExtTreeMap.getElem?_insert, heq, Ne.symm heq]

theorem mem_wanted (hpod : pods[name]? = some pod) {role : Role} :
    name ∈ wanted resource plan role pods ↔ managed resource pod.labels = true ∧
      (desiredLabels plan pod).has role = true := by
  simp [wanted, hpod, desiredLabels_has]

theorem mem_carriers (hpod : pods[name]? = some pod) {role : Role} :
    name ∈ carriers resource role pods ↔ managed resource pod.labels = true ∧
      pod.labels[roleSelectorKey role]? = some "true" := by
  simp [carriers, hpod]

/-- **An addition** lets its pod join, if it is wanted. -/
theorem carriers_added (hpod : pods[name]? = some pod) (role : Role) :
    carriers resource role
        (pods.insert name { pod with labels := addedLabels (desiredLabels plan pod) pod.labels })
      = carriers resource role pods ∪ (wanted resource plan role pods ∩ {name}) := by
  ext other
  rw [mem_carriers_patched (addedLabels_identity _ _), addedLabels_role, Set.mem_union,
    Set.mem_inter_iff, Set.mem_singleton_iff]
  by_cases heq : other = name
  · subst heq
    rw [mem_wanted hpod, mem_carriers hpod]
    split <;> simp_all
  · simp [heq]

/-- **An exact patch** decides about its pod. -/
theorem carriers_exact (hpod : pods[name]? = some pod) (role : Role) :
    carriers resource role
        (pods.insert name { pod with labels := exactLabels (desiredLabels plan pod) pod.labels })
      = (carriers resource role pods \ {name}) ∪ (wanted resource plan role pods ∩ {name}) := by
  ext other
  rw [mem_carriers_patched (exactLabels_identity _ _), exactLabels_role, Set.mem_union,
    Set.mem_inter_iff, Set.mem_sdiff, Set.mem_singleton_iff]
  by_cases heq : other = name
  · subst heq
    rw [mem_wanted hpod]
    split <;> simp_all
  · simp [heq]

end Sets

/-! ## 3. The two parts of a run -/

/-- While pods are added: nobody has lost the label, and only wanted pods have got it. -/
structure Adding (resource : PgBouncerAurora) (plan : Output) (before pods : StringMap Pod) :
    Prop where
  wanted_eq : ∀ role, wanted resource plan role pods = wanted resource plan role before
  keeps : ∀ role, carriers resource role before ⊆ carriers resource role pods
  only : ∀ role, carriers resource role pods
    ⊆ carriers resource role before ∪ wanted resource plan role before

/-- While the labels are made exact: every wanted pod has the label, and still nobody else has
got it. -/
structure Settling (resource : PgBouncerAurora) (plan : Output) (before pods : StringMap Pod) :
    Prop where
  wanted_eq : ∀ role, wanted resource plan role pods = wanted resource plan role before
  all : ∀ role, wanted resource plan role before ⊆ carriers resource role pods
  only : ∀ role, carriers resource role pods
    ⊆ carriers resource role before ∪ wanted resource plan role before

section Parts

variable {resource : PgBouncerAurora} {plan : Output} {before pods : StringMap Pod}
  {name : String} {pod : Pod}

theorem adding_start : Adding resource plan before before where
  wanted_eq _ := rfl
  keeps _ := subset_rfl
  only _ := Set.subset_union_left

theorem Adding.step (h : Adding resource plan before pods) (hpod : pods[name]? = some pod) :
    Adding resource plan before
      (pods.insert name { pod with labels := addedLabels (desiredLabels plan pod) pod.labels }) where
  wanted_eq role := (wanted_patched hpod (addedLabels_identity _ _) role).trans (h.wanted_eq role)
  keeps role := by
    rw [carriers_added hpod]
    exact (h.keeps role).trans Set.subset_union_left
  only role := by
    rw [carriers_added hpod, h.wanted_eq]
    exact Set.union_subset (h.only role) (Set.inter_subset_left.trans Set.subset_union_right)

theorem Settling.step (h : Settling resource plan before pods) (hpod : pods[name]? = some pod) :
    Settling resource plan before
      (pods.insert name { pod with labels := exactLabels (desiredLabels plan pod) pod.labels }) where
  wanted_eq role := (wanted_patched hpod (exactLabels_identity _ _) role).trans (h.wanted_eq role)
  all role := by
    rw [carriers_exact hpod, h.wanted_eq]
    intro other hother
    by_cases heq : other = name
    · exact Or.inr ⟨hother, heq⟩
    · exact Or.inl ⟨h.all role hother, heq⟩
  only role := by
    rw [carriers_exact hpod, h.wanted_eq]
    exact Set.union_subset (Set.sdiff_subset.trans (h.only role))
      (Set.inter_subset_left.trans Set.subset_union_right)

end Parts

/-! ## 4. The journal of patches -/

/-- What a write makes of the pods. -/
def Write.onPods : Write → StringMap Pod → StringMap Pod
  | .patchPod name labels, pods =>
    match pods[name]? with
    | some pod => pods.insert name { pod with labels := labels }
    | none => pods
  | _, pods => pods

/-- The pods after some writes, newest first. -/
abbrev podsAfter (pods : StringMap Pod) (writes : List Write) : StringMap Pod :=
  replay Write.onPods pods writes

/-- The writes account for the pods, and `I` holds after each. -/
abbrev PodsJournaled (I : StringMap Pod → Prop) : World → World → Prop :=
  Journaled World.writes (fun w => w.cluster.pods) Write.onPods I

theorem frame_podsJournaled (I : StringMap Pod → Prop) : Frame (PodsJournaled I) where
  toSteps := journaled_steps
  reads h := journaled_of_same (congrArg (fun v => v.2.2) h) (congrArg (fun v => v.2.1.pods) h)

section Journal

variable {I : StringMap Pod → Prop} {name : String}

theorem patchPod_journaled {labels : StringMap String} {w : World}
    (hI : I w.cluster.pods → I (Write.onPods (.patchPod name labels) w.cluster.pods)) :
    PodsJournaled I w (final (patchPod name labels) w) := by
  cases h : patchPod name labels w with
  | error e w' =>
    rw [final_of_error h]
    exact (frame_podsJournaled I).reads (patchPod_clean name labels h)
  | ok _ w' =>
    rw [final_of_ok h]
    obtain ⟨faults, hrun⟩ := call_eq_ok h
    dsimp only at hrun
    cases hpod : w.cluster.pods[name]? with
    | none => simp [hpod] at hrun
    | some pod =>
      simp only [hpod, EStateM.Result.ok.injEq, true_and] at hrun
      subst hrun
      have hview : w.cluster.pods.insert name { pod with labels := labels }
          = Write.onPods (.patchPod name labels) w.cluster.pods := by simp [Write.onPods, hpod]
      refine journaled_write rfl hview fun h => ?_
      have hafter := hI h
      rw [← hview] at hafter
      exact hafter

/-- A pod is patched as it was just read, since nobody else writes in between. -/
theorem patchPodLabels_journaled (done : Pod → Bool) (labels : Pod → StringMap String)
    (hI : ∀ pods pod, I pods → pods[name]? = some pod →
      I (pods.insert name { pod with labels := labels pod })) :
    Within (PodsJournaled I) (patchPodLabels done labels name) := by
  have hR := frame_podsJournaled I
  unfold patchPodLabels retryOnConflict
  refine Within.retry hR.toSteps (fun w => hR.bind (Within.recover (hR.read (fetch_keeps _)) w)
    fun found w₁ hread => ?_) 4
  cases found with
  | none => exact hR.refl w₁
  | some pod =>
    have hpod : w₁.cluster.pods[name]? = some pod := by
      have hsame := congrArg (fun v => v.2.1.pods[name]?)
        ((Keeps.recover (fetch_keeps _)).of_ok hread)
      exact hsame.trans (fetch_eq_ok (recover_eq_some.mp hread))
    dsimp only
    split
    · exact hR.refl w₁
    · refine hR.bind ?_ fun patched w₂ _ => hR.refl w₂
      have hfinal : final (ignoreNotFound (patchPod name (labels pod))) w₁
          = final (patchPod name (labels pod)) w₁ := final_recover _ _ _
      rw [hfinal]
      refine patchPod_journaled fun h => ?_
      have hafter := hI _ pod h hpod
      rwa [show Write.onPods (.patchPod name (labels pod)) w₁.cluster.pods
        = w₁.cluster.pods.insert name { pod with labels := labels pod } by
          simp [Write.onPods, hpod]]

end Journal

section Passes

variable {resource : PgBouncerAurora} {plan : Output} {before : StringMap Pod}

theorem addMembershipLabels_journaled (names : List String) :
    Within (PodsJournaled (Adding resource plan before)) (addMembershipLabels plan names) := by
  have hR := (frame_podsJournaled (Adding resource plan before)).toSteps
  induction names with
  | nil => exact Within.pure hR _
  | cons name rest ih =>
    refine Within.bind hR (patchPodLabels_journaled _ _ fun pods pod h hpod => h.step hpod)
      fun _ => Within.bind hR ih fun _ => Within.pure hR _

theorem patchExact_journaled (names : List String) :
    Within (PodsJournaled (Settling resource plan before))
      (names.forM (patchPodMembershipExact plan)) := by
  have hR := (frame_podsJournaled (Settling resource plan before)).toSteps
  refine Within.forM hR fun name _ => Within.bind hR ?_ fun _ => Within.pure hR _
  exact patchPodLabels_journaled _ _ fun pods pod h hpod => h.step hpod

end Passes

/-! ## 5. Failures on the way -/

section Stops

variable {soft : ApiError → Prop} (hsoft : soft .conflict)
include hsoft

theorem patchPodLabels_stops (done : Pod → Bool) (labels : Pod → StringMap String)
    (name : String) : StopsAtFault soft (patchPodLabels done labels name) := by
  refine StopsAtFault.retryOnConflict hsoft
    (StopsAtFault.bind (StopsAtFault.ignoreNotFound (fetch_stops _)) fun found => ?_)
  split
  · exact StopsAtFault.pure _
  · exact StopsAtFault.ite _ (StopsAtFault.pure _)
      (StopsAtFault.bind (StopsAtFault.ignoreNotFound (patchPod_stops _ _)) fun _ =>
        StopsAtFault.pure _)

theorem addMembershipLabels_stops (plan : Output) (names : List String) :
    StopsAtFault soft (addMembershipLabels plan names) := by
  induction names with
  | nil => exact StopsAtFault.pure _
  | cons name rest ih =>
    exact StopsAtFault.bind (patchPodLabels_stops hsoft _ _ _) fun _ =>
      StopsAtFault.bind ih fun _ => StopsAtFault.pure _

theorem patchPodMembership_stops (resource : PgBouncerAurora) (plan : Output) :
    StopsAtFault soft (patchPodMembership resource plan) :=
  StopsAtFault.bind (listPods_stops _) fun _ =>
    StopsAtFault.bind (addMembershipLabels_stops hsoft _ _) fun _ => StopsAtFault.forM (fun _ =>
      StopsAtFault.bind (patchPodLabels_stops hsoft _ _ _) fun _ => StopsAtFault.pure _) _

end Stops

/-! ## 6. The whole run -/

section Run

variable {resource : PgBouncerAurora} {plan : Output} {w w₁ w₂ : World}

/-- When the first pass returns, no wanted pod is left without its label. -/
theorem wanted_subset_added {pods : List (String × Pod)} {live : List String}
    (hlist : listPods resource w = .ok pods w₁)
    (hadd : addMembershipLabels plan (pods.map (·.1)) w₁ = .ok live w₂) (role : Role) :
    wanted resource plan role w.cluster.pods ⊆ carriers resource role w₂.cluster.pods := by
  rintro name ⟨pod, hpod, hmanaged, hmember⟩
  have hsame : w₁.cluster.pods = w.cluster.pods :=
    congrArg (fun v => v.2.1.pods) ((listPods_keeps _).of_ok hlist)
  have hin : name ∈ pods.map (·.1) :=
    List.mem_map.mpr ⟨(name, pod), (mem_listPods hlist).mpr ⟨hpod, hmanaged⟩, rfl⟩
  have hafter := (addMembershipLabels_eq_ok hadd (nodup_listed hlist)).1 name
  rw [if_pos hin, hsame, hpod, Option.map_some] at hafter
  have hhas := desiredLabels_has.mpr hmember
  rw [mem_carriers hafter]
  unfold relabel
  split
  · rename_i hdone
    exact ⟨hmanaged, role_of_additionsDone hdone hhas⟩
  · refine ⟨?_, ?_⟩
    · rw [(addedLabels_identity _ _).managed]
      exact hmanaged
    · rw [addedLabels_role, if_pos hhas]

/-- **Success**: the label is where the plan wants it, and its key nowhere else. -/
theorem carriers_of_ok {w' : World} (h : patchPodMembership resource plan w = .ok ⟨⟩ w')
    (role : Role) :
    carriers resource role w'.cluster.pods = wanted resource plan role w'.cluster.pods ∧
      ∀ (name : String) (pod : Pod), w'.cluster.pods[name]? = some pod →
        managed resource pod.labels = true →
        name ∉ wanted resource plan role w'.cluster.pods → roleSelectorKey role ∉ pod.labels := by
  have hlabel : ∀ (name : String) (pod : Pod), w'.cluster.pods[name]? = some pod →
      managed resource pod.labels = true → pod.labels[roleSelectorKey role]?
        = if (desiredLabels plan pod).has role then some "true" else none :=
    fun name pod hpod hmanaged => role_of_podExact (podExact_of_patched h hpod hmanaged) role
  constructor
  · ext name
    cases hpod : w'.cluster.pods[name]? with
    | none => simp [carriers, wanted, hpod]
    | some pod =>
      rw [mem_carriers hpod, mem_wanted hpod]
      refine and_congr_right fun hmanaged => ?_
      rw [hlabel name pod hpod hmanaged]
      split <;> simp_all
  · intro name pod hpod hmanaged hnot
    rw [mem_wanted hpod, not_and] at hnot
    have hnone := hlabel name pod hpod hmanaged
    rw [if_neg (hnot hmanaged)] at hnone
    rw [← Std.ExtTreeMap.isSome_getElem?_iff_mem, hnone]
    simp

/-- The two parts of a run, for both roles at once. -/
theorem relabelling_parts (resource : PgBouncerAurora) (plan : Output) (w : World) :
    ∃ added later : List Write,
      (final (patchPodMembership resource plan) w).writes = later ++ added ++ w.writes ∧
      (final (patchPodMembership resource plan) w).cluster.pods
        = podsAfter w.cluster.pods (later ++ added) ∧
      (∀ part, part <:+ added →
        Adding resource plan w.cluster.pods (podsAfter w.cluster.pods part)) ∧
      ((∀ part, part <:+ later →
          Settling resource plan w.cluster.pods (podsAfter w.cluster.pods (part ++ added))) ∨
        later = [] ∧ ∃ e w', patchPodMembership resource plan w = .error e w') ∧
      ∀ role, wanted resource plan role (final (patchPodMembership resource plan) w).cluster.pods
        = wanted resource plan role w.cluster.pods := by
  cases hlist : listPods resource w with
  | error e w₁ =>
    have hsame := (listPods_keeps resource).of_error hlist
    have hrun : patchPodMembership resource plan w = .error e w₁ :=
      bind_eq_error.mpr (Or.inl hlist)
    rw [final_of_error hrun]
    have hpods : w₁.cluster.pods = w.cluster.pods := congrArg (fun v => v.2.1.pods) hsame
    refine ⟨[], [], congrArg (fun v => v.2.2) hsame, hpods, fun part hpart => ?_,
      Or.inr ⟨rfl, e, w₁, hrun⟩, fun role => by rw [hpods]⟩
    rw [List.suffix_nil.mp hpart]
    exact adding_start
  | ok pods w₁ =>
    have hsame := (listPods_keeps resource).of_ok hlist
    have hpods : w₁.cluster.pods = w.cluster.pods := congrArg (fun v => v.2.1.pods) hsame
    have hwrites : w₁.writes = w.writes := congrArg (fun v => v.2.2) hsame
    have hfirst := @addMembershipLabels_journaled resource plan w.cluster.pods (pods.map (·.1)) w₁
    dsimp only [PodsJournaled, Journaled] at hfirst
    rw [hpods, hwrites] at hfirst
    obtain ⟨added, hadded, hview, hadding⟩ := hfirst adding_start
    cases hadd : addMembershipLabels plan (pods.map (·.1)) w₁ with
    | error e w₂ =>
      have hrun : patchPodMembership resource plan w = .error e w₂ :=
        bind_eq_error.mpr (Or.inr ⟨pods, w₁, hlist, bind_eq_error.mpr (Or.inl hadd)⟩)
      rw [final_of_error hadd] at hadded hview
      rw [final_of_error hrun]
      refine ⟨added, [], hadded, hview, hadding, Or.inr ⟨rfl, e, w₂, hrun⟩, fun role => ?_⟩
      rw [hview]
      exact (hadding added List.suffix_rfl).wanted_eq role
    | ok live w₂ =>
      rw [final_of_ok hadd] at hadded hview
      -- the additions are through, which starts the second part
      have hstart : Settling resource plan w.cluster.pods w₂.cluster.pods := by
        have hend := hadding added List.suffix_rfl
        rw [← hview] at hend
        exact ⟨hend.wanted_eq, wanted_subset_added hlist hadd, hend.only⟩
      obtain ⟨later, hlater, hview', hsettling⟩ :=
        patchExact_journaled live w₂ hstart
      have hfinal : final (patchPodMembership resource plan) w
          = final (live.forM (patchPodMembershipExact plan)) w₂ := by
        unfold patchPodMembership
        rw [final_bind_of_ok hlist, final_bind_of_ok hadd]
      rw [hfinal]
      dsimp only at hview hview' hlater
      refine ⟨added, later, by rw [hlater, hadded, List.append_assoc],
        by rw [hview', hview, podsAfter, replay_append], hadding, Or.inl fun part hpart => ?_, fun role => ?_⟩
      · rw [podsAfter, replay_append, ← hview]
        exact hsettling part hpart
      · rw [hview']
        exact (hsettling later List.suffix_rfl).wanted_eq role

/-- **Relabelling never empties a Service.**  Whatever the pods, the plan and the failures, the
writes of a run are additions followed by exact patches.  After any part of the additions, every
pod that had the label still has it; after all of them and any part of the rest, every pod that
is to have the label has it; no other pod gets it on the way.  Without all the additions there
are no exact patches, and the run has failed.  If it returns, the labels are the plan's.  A
failure other than a conflict is the end of the run. -/
theorem relabelling_never_empties (resource : PgBouncerAurora) (plan : Output) (w : World)
    (role : Role) :
    ∃ added later : List Write,
      (final (patchPodMembership resource plan) w).writes = later ++ added ++ w.writes ∧
      (final (patchPodMembership resource plan) w).cluster.pods
        = podsAfter w.cluster.pods (later ++ added) ∧
      (∀ part, part <:+ added →
        carriers resource role w.cluster.pods
            ⊆ carriers resource role (podsAfter w.cluster.pods part) ∧
          carriers resource role (podsAfter w.cluster.pods part)
            ⊆ carriers resource role w.cluster.pods ∪ wanted resource plan role w.cluster.pods) ∧
      ((∀ part, part <:+ later →
        wanted resource plan role w.cluster.pods
            ⊆ carriers resource role (podsAfter w.cluster.pods (part ++ added)) ∧
          carriers resource role (podsAfter w.cluster.pods (part ++ added))
            ⊆ carriers resource role w.cluster.pods ∪ wanted resource plan role w.cluster.pods) ∨
        later = [] ∧ ∃ e w', patchPodMembership resource plan w = .error e w') ∧
      (∀ w', patchPodMembership resource plan w = .ok ⟨⟩ w' →
        carriers resource role w'.cluster.pods = wanted resource plan role w.cluster.pods ∧
          ∀ (name : String) (pod : Pod), w'.cluster.pods[name]? = some pod →
            managed resource pod.labels = true →
            name ∉ wanted resource plan role w.cluster.pods →
            roleSelectorKey role ∉ pod.labels) ∧
      (OnlyMet (· = .conflict) w (final (patchPodMembership resource plan) w) ∨
        ∃ e w', patchPodMembership resource plan w = .error e w' ∧
          StoppedBy (· = .conflict) e w w') := by
  have hstops := @patchPodMembership_stops (· = .conflict) rfl resource plan w
  obtain ⟨added, later, hwrites, hpods, hadding, hsettling, hwanted⟩ :=
    relabelling_parts resource plan w
  refine ⟨added, later, hwrites, hpods, fun part hpart => ?_, ?_, fun w' hok => ?_, hstops⟩
  · exact ⟨(hadding part hpart).keeps role, (hadding part hpart).only role⟩
  · refine hsettling.imp_left fun hall part hpart => ?_
    exact ⟨(hall part hpart).all role, (hall part hpart).only role⟩
  · have hsets := carriers_of_ok hok role
    rw [final_of_ok hok] at hwanted
    rwa [hwanted role] at hsets

end Run

end Controller

end AuroraOperator

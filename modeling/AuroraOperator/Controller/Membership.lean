/-
# Applying a plan: pod labels

Traffic follows two labels on the pods.  `patchPodMembership` brings them to the plan in two
passes: the first only adds labels, the second makes them exact, so that a Service does not run
empty while its members move.

`patchPodMembership_exact` is what the passes achieve together when they succeed: every pod of
the resource carries exactly the plan's labels.
-/
import AuroraOperator.Controller.Apply

namespace AuroraOperator

namespace Controller

open Planner Render Program

/-! ## 1. One pod -/

/-- The labels a pod's instance is to have. -/
structure DesiredLabels where
  writer : Bool
  reader : Bool
  role : Option Role

def desiredLabels (plan : Output) (pod : Pod) : DesiredLabels :=
  { writer := stringSet plan.membership.writer (podInstance pod)
    reader := stringSet plan.membership.reader (podInstance pod)
    role := planRole plan (podInstance pod) }

def setBoolLabel (labels : StringMap String) (key : String) (value : Bool) : StringMap String :=
  if value then labels.insert key "true" else labels.erase key

/-- Nothing has to be added. -/
def additionsDone (desired : DesiredLabels) (labels : StringMap String) : Bool :=
  (!desired.writer || labels[labelWriter]? == some "true") &&
    (!desired.reader || labels[labelReader]? == some "true") &&
    (desired.role.isNone || labels[labelRole]? == desired.role.map Role.text)

def addedLabels (desired : DesiredLabels) (labels : StringMap String) : StringMap String :=
  let labels := if desired.writer then labels.insert labelWriter "true" else labels
  let labels := if desired.reader then labels.insert labelReader "true" else labels
  match desired.role with
  | some role => labels.insert labelRole role.text
  | none => labels

def exactLabels (desired : DesiredLabels) (labels : StringMap String) : StringMap String :=
  let labels := setBoolLabel labels labelWriter desired.writer
  let labels := setBoolLabel labels labelReader desired.reader
  match desired.role with
  | some role => labels.insert labelRole role.text
  | none => labels.erase labelRole

/-- Read a pod, and patch it unless it is as wanted.  The answer is whether it is still
there. -/
def patchPodLabels (done : Pod → Bool) (labels : Pod → StringMap String) (name : String) :
    Api Bool :=
  retryOnConflict do
    match ← ignoreNotFound (getPod name) with
    | none => pure false
    | some current =>
      if done current then pure true
      else do
        let patched ← ignoreNotFound (patchPod name (labels current))
        pure patched.isSome

def patchPodMembershipAdditions (plan : Output) (name : String) : Api Bool :=
  patchPodLabels (fun pod => additionsDone (desiredLabels plan pod) pod.labels)
    (fun pod => addedLabels (desiredLabels plan pod) pod.labels) name

def patchPodMembershipExact (plan : Output) (name : String) : Api Unit := do
  let _ ← patchPodLabels (podExact plan)
    (fun pod => exactLabels (desiredLabels plan pod) pod.labels) name

/-! ## 2. All pods -/

/-- The first pass: the pods that are still there. -/
def addMembershipLabels (plan : Output) : List String → Api (List String)
  | [] => pure []
  | name :: rest => do
    let live ← patchPodMembershipAdditions plan name
    let livePods ← addMembershipLabels plan rest
    pure (if live then name :: livePods else livePods)

def patchPodMembership (resource : PgBouncerAurora) (plan : Output) : Api Unit := do
  let pods ← listPods resource
  let livePods ← addMembershipLabels plan (pods.map (·.1))
  livePods.forM (patchPodMembershipExact plan)

/-! ## 3. Frames -/

section Frames

variable {R : World → World → Prop} (hR : Frame R)
include hR

theorem patchPodLabels_within {name : String} (hpatch : ∀ labels, Within R (patchPod name labels))
    (done : Pod → Bool) (labels : Pod → StringMap String) :
    Within R (patchPodLabels done labels name) := by
  unfold patchPodLabels retryOnConflict
  refine Within.retry hR.toSteps (Within.bind hR.toSteps
    (Within.recover (hR.read (fetch_keeps _))) fun found => ?_) 4
  split
  · exact Within.pure hR.toSteps _
  · exact Within.ite _ (Within.pure hR.toSteps _)
      (Within.bind hR.toSteps (Within.recover (hpatch _)) fun _ => Within.pure hR.toSteps _)

theorem addMembershipLabels_within {names : List String}
    (hpatch : ∀ name ∈ names, ∀ labels, Within R (patchPod name labels)) (plan : Output) :
    Within R (addMembershipLabels plan names) := by
  induction names with
  | nil => exact Within.pure hR.toSteps _
  | cons name rest ih =>
    have hrest := ih fun name' hname' => hpatch name' (List.mem_cons_of_mem name hname')
    exact Within.bind hR.toSteps
      (patchPodLabels_within hR (hpatch name (List.mem_cons_self ..)) _ _) fun _ =>
        Within.bind hR.toSteps hrest fun _ => Within.pure hR.toSteps _

omit hR in
theorem addMembershipLabels_subset {plan : Output} {names live : List String} {w w' : World}
    (h : addMembershipLabels plan names w = .ok live w') : live ⊆ names := by
  induction names generalizing w live with
  | nil =>
    cases h
    exact List.Subset.refl _
  | cons name rest ih =>
    obtain ⟨alive, w₁, -, h⟩ := bind_eq_ok.mp h
    obtain ⟨others, w₂, h₂, h⟩ := bind_eq_ok.mp h
    cases h
    split
    · exact List.cons_subset_cons name (ih h₂)
    · exact List.subset_cons_of_subset name (ih h₂)

/-- Labelling does what patching the listed pods does, any number of times. -/
theorem patchPodMembership_final {resource : PgBouncerAurora} (plan : Output) {w : World}
    (hpatch : ∀ name pod, w.cluster.pods[name]? = some pod → managed resource pod.labels = true →
      ∀ labels, Within R (patchPod name labels)) :
    R w (final (patchPodMembership resource plan) w) := by
  refine hR.bind (hR.read (listPods_keeps _) _) fun pods w₁ hlist => ?_
  have hlisted : ∀ name ∈ pods.map (·.1), ∀ labels, Within R (patchPod name labels) := by
    intro name hname
    obtain ⟨⟨name, pod⟩, hpod, rfl⟩ := List.mem_map.mp hname
    obtain ⟨hat, hmanaged⟩ := (mem_listPods hlist).mp hpod
    exact hpatch name pod hat hmanaged
  refine hR.bind (addMembershipLabels_within hR hlisted plan w₁) fun live w₂ hlive => ?_
  refine Within.forM hR.toSteps (fun name hname => ?_) w₂
  exact Within.bind hR.toSteps
    (patchPodLabels_within hR (hlisted name (addMembershipLabels_subset hlive hname)) _ _)
    fun _ => Within.pure hR.toSteps _

theorem patchPodMembership_within (hpatch : ∀ name labels, Within R (patchPod name labels))
    (resource : PgBouncerAurora) (plan : Output) : Within R (patchPodMembership resource plan) :=
  fun _ => patchPodMembership_final hR plan fun name _ _ _ => hpatch name

end Frames

/-- **Labelling touches neither objects nor the status.** -/
theorem patchPodMembership_keeps (resource : PgBouncerAurora) (plan : Output) :
    Keeps World.objectSide (patchPodMembership resource plan) :=
  patchPodMembership_within frame_objectSide patchPod_keeps resource plan

/-! ## 4. What a patch does -/

/-- What `patchPodLabels` makes of a pod. -/
def relabel (done : Pod → Bool) (labels : Pod → StringMap String) (pod : Pod) : Pod :=
  if done pod then pod else { pod with labels := labels pod }

/-- The pods after one of them was changed by `f`. -/
def PodChanged (f : Pod → Pod) (name : String) (before after : StringMap Pod) : Prop :=
  ∀ other : String, after[other]? = if other = name then before[other]?.map f else before[other]?

theorem podChanged_of_absent {f : Pod → Pod} {name : String} {pods : StringMap Pod}
    (h : pods[name]? = none) : PodChanged f name pods pods := by
  intro other
  split
  · rename_i heq
    rw [heq, h]
    rfl
  · rfl

theorem podChanged_of_fixed {f : Pod → Pod} {name : String} {pods : StringMap Pod} {pod : Pod}
    (h : pods[name]? = some pod) (hf : f pod = pod) : PodChanged f name pods pods := by
  intro other
  split
  · rename_i heq
    rw [heq, h, Option.map_some, hf]
  · rfl

theorem podChanged_insert {f : Pod → Pod} {name : String} {pods : StringMap Pod} {pod : Pod}
    (h : pods[name]? = some pod) : PodChanged f name pods (pods.insert name (f pod)) := by
  intro other
  rw [Std.ExtTreeMap.getElem?_insert]
  by_cases heq : other = name
  · simp [heq, h]
  · rw [if_neg (by simpa using Ne.symm heq), if_neg heq]

theorem patchPod_eq_ok {name : String} {labels : StringMap String} {w w' : World}
    (h : patchPod name labels w = .ok () w') :
    ∃ pod, w.cluster.pods[name]? = some pod ∧
      w'.cluster.pods = w.cluster.pods.insert name { pod with labels := labels } := by
  obtain ⟨faults, hrun⟩ := call_eq_ok h
  dsimp only at hrun
  cases hp : w.cluster.pods[name]? with
  | none => simp [hp] at hrun
  | some pod =>
    simp only [hp, EStateM.Result.ok.injEq, true_and] at hrun
    exact ⟨pod, rfl, by rw [← hrun]⟩

theorem patchPod_eq_notFound {name : String} {labels : StringMap String} {w w' : World}
    (h : patchPod name labels w = .error .notFound w') : w.cluster.pods[name]? = none := by
  rcases call_eq_error h with ⟨hne, -⟩ | ⟨faults, hrun⟩
  · exact absurd rfl hne
  · dsimp only at hrun
    cases hp : w.cluster.pods[name]? with
    | none => rfl
    | some pod => simp [hp] at hrun

/-- **One patch.**  When it returns, the one pod is relabelled if it is there, and the answer
says whether it is. -/
theorem patchPodLabels_ensures (done : Pod → Bool) (labels : Pod → StringMap String)
    (name : String) :
    Ensures (patchPodLabels done labels name) fun w live w' =>
      PodChanged (relabel done labels) name w.cluster.pods w'.cluster.pods ∧
        live = w.cluster.pods[name]?.isSome := by
  unfold patchPodLabels retryOnConflict
  refine Clean.ensures_retry World.visible ?clean ?indep ?body 4
  case clean =>
    refine Clean.bind (Keeps.recover (fetch_keeps _)) fun found => ?_
    split
    · exact Clean.of_keeps (Keeps.pure _)
    · exact Clean.ite _ (Clean.of_keeps (Keeps.pure _))
        (Clean.bind_pure (Clean.recover (patchPod_clean _ _)) _)
  case indep =>
    intro w w₁ live w' hv hq
    have hpods : w₁.cluster.pods = w.cluster.pods := congrArg (fun v => v.2.1.pods) hv
    rw [hpods] at hq
    exact hq
  case body =>
    intro w live w' h
    obtain ⟨found, w₁, h₁, h₂⟩ := bind_eq_ok.mp h
    have hpods : w₁.cluster.pods = w.cluster.pods :=
      congrArg (fun v => v.2.1.pods) ((Keeps.recover (fetch_keeps _)).of_ok h₁)
    cases found with
    | none =>
      obtain ⟨e, he, hcaught⟩ := recover_eq_none.mp h₁
      rw [decide_eq_true_eq] at hcaught
      subst hcaught
      have habsent : w.cluster.pods[name]? = none := fetch_eq_notFound he
      cases h₂
      rw [hpods, habsent]
      exact ⟨podChanged_of_absent habsent, rfl⟩
    | some pod =>
      have hpod : w.cluster.pods[name]? = some pod := fetch_eq_ok (recover_eq_some.mp h₁)
      dsimp only at h₂
      by_cases hd : done pod = true
      · rw [if_pos hd] at h₂
        cases h₂
        rw [hpods, hpod]
        exact ⟨podChanged_of_fixed hpod (by simp [relabel, hd]), rfl⟩
      · rw [if_neg hd] at h₂
        obtain ⟨patched, w₂, h₃, h₄⟩ := bind_eq_ok.mp h₂
        cases h₄
        cases patched with
        | none =>
          obtain ⟨e, he, hcaught⟩ := recover_eq_none.mp h₃
          rw [decide_eq_true_eq] at hcaught
          subst hcaught
          have hnone := patchPod_eq_notFound he
          rw [hpods, hpod] at hnone
          cases hnone
        | some u =>
          obtain ⟨pod', hpod', hins⟩ := patchPod_eq_ok (recover_eq_some.mp h₃)
          rw [hpods, hpod] at hpod'
          cases hpod'
          have hrel : { pod with labels := labels pod } = relabel done labels pod := by
            simp [relabel, hd]
          rw [hins, hpods, hpod, hrel]
          exact ⟨podChanged_insert hpod, rfl⟩

/-! ## 5. What the passes do -/

/-- The pods after those with the given names were changed by `f`. -/
def PodsChanged (f : Pod → Pod) (names : List String) (before after : StringMap Pod) : Prop :=
  ∀ other : String, after[other]? = if other ∈ names then before[other]?.map f else before[other]?

theorem podsChanged_nil (f : Pod → Pod) (pods : StringMap Pod) : PodsChanged f [] pods pods := by
  intro other
  rw [if_neg (by simp)]

/-- One more pod, by another name, on top. -/
theorem PodsChanged.step {f : Pod → Pod} {names : List String} {name : String}
    {before middle after : StringMap Pod} (h : PodsChanged f names before middle)
    (hnew : name ∉ names) (hone : PodChanged f name middle after) :
    PodsChanged f (names ++ [name]) before after := by
  intro other
  rw [hone other]
  by_cases heq : other = name
  · subst heq
    rw [if_pos rfl, if_pos (by simp), h other, if_neg hnew]
  · rw [if_neg heq, h other]
    simp [heq]

/-- The first pass relabels all the pods, and finds those that are there. -/
theorem addMembershipLabels_eq_ok {plan : Output} {names livePods : List String} {w w' : World}
    (h : addMembershipLabels plan names w = .ok livePods w') (hnodup : names.Nodup) :
    PodsChanged (relabel (fun pod => additionsDone (desiredLabels plan pod) pod.labels)
        (fun pod => addedLabels (desiredLabels plan pod) pod.labels)) names
      w.cluster.pods w'.cluster.pods ∧
    livePods = names.filter fun name => w.cluster.pods[name]?.isSome := by
  induction names generalizing w livePods with
  | nil =>
    cases h
    exact ⟨podsChanged_nil _ _, rfl⟩
  | cons name rest ih =>
    obtain ⟨hnotin, hrest⟩ := List.nodup_cons.mp hnodup
    obtain ⟨live, w₁, h₁, h₂⟩ := bind_eq_ok.mp h
    obtain ⟨restLive, w₂, h₃, h₄⟩ := bind_eq_ok.mp h₂
    cases h₄
    obtain ⟨hone, hlive⟩ := patchPodLabels_ensures _ _ _ h₁
    obtain ⟨hmany, hrestLive⟩ := ih h₃ hrest
    constructor
    · intro other
      rw [hmany other]
      by_cases heq : other = name
      · subst heq
        rw [if_neg hnotin, hone other, if_pos rfl, if_pos (by simp)]
      · simp only [List.mem_cons, heq, false_or, hone other, if_false]
    · have hsame : rest.filter (fun n => w₁.cluster.pods[n]?.isSome)
          = rest.filter (fun n => w.cluster.pods[n]?.isSome) := by
        refine List.filter_congr fun n hn => ?_
        rw [hone n, if_neg (fun heq : n = name => hnotin (heq ▸ hn))]
      rw [hrestLive, hsame, hlive, List.filter_cons]

/-- The second pass makes the labels of the pods it is given exact. -/
theorem patchExact_eq_ok {plan : Output} {names : List String} {w w' : World}
    (h : names.forM (patchPodMembershipExact plan) w = .ok ⟨⟩ w') (hnodup : names.Nodup) :
    PodsChanged (relabel (podExact plan)
        (fun pod => exactLabels (desiredLabels plan pod) pod.labels)) names
      w.cluster.pods w'.cluster.pods := by
  refine Ensures.forM (I := fun done v => PodsChanged (relabel (podExact plan)
    (fun pod => exactLabels (desiredLabels plan pod) pod.labels)) done w.cluster.pods
    v.cluster.pods) ?_ h (podsChanged_nil _ _)
  intro before name after hsplit s s' hI hrun
  obtain ⟨live, s₁, h₁, h₂⟩ := bind_eq_ok.mp hrun
  cases h₂
  have hnew : name ∉ before := by
    rw [hsplit, List.nodup_append] at hnodup
    exact fun hin => hnodup.2.2 name hin name (by simp) rfl
  exact hI.step hnew (patchPodLabels_ensures _ _ _ h₁).1

/-! ## 6. Exact labels -/

theorem getElem?_setBoolLabel (labels : StringMap String) (key other : String) (value : Bool) :
    (setBoolLabel labels key value)[other]? =
      if key = other then (if value then some "true" else none) else labels[other]? := by
  unfold setBoolLabel
  cases value <;> simp [Std.ExtTreeMap.getElem?_insert, Std.ExtTreeMap.getElem?_erase]

theorem getElem?_exactLabels (desired : DesiredLabels) (labels : StringMap String)
    (other : String) :
    (exactLabels desired labels)[other]? =
      if labelRole = other then desired.role.map Role.text
      else if labelReader = other then (if desired.reader then some "true" else none)
      else if labelWriter = other then (if desired.writer then some "true" else none)
      else labels[other]? := by
  unfold exactLabels
  cases desired.role with
  | none =>
    simp only [Std.ExtTreeMap.getElem?_erase, getElem?_setBoolLabel]
    by_cases h : labelRole = other <;> simp [h]
  | some role =>
    simp only [Std.ExtTreeMap.getElem?_insert, getElem?_setBoolLabel]
    by_cases h : labelRole = other <;> simp [h]

/-- After the exact patch a pod is exact: the patch leaves the instance label alone, so the
plan asks for the same labels as before. -/
theorem podExact_relabel (plan : Output) (pod : Pod) :
    podExact plan (relabel (podExact plan)
      (fun pod => exactLabels (desiredLabels plan pod) pod.labels) pod) = true := by
  unfold relabel
  split
  · assumption
  · set next : Pod := { pod with labels := exactLabels (desiredLabels plan pod) pod.labels }
      with hnext
    have hget : ∀ key : String, next.labels[key]? = (exactLabels (desiredLabels plan pod) pod.labels)[key]? :=
      fun _ => rfl
    have hinst : podInstance next = podInstance pod := by
      unfold podInstance
      rw [hget, getElem?_exactLabels, if_neg (by decide), if_neg (by decide), if_neg (by decide)]
    unfold podExact membershipLabelsExact boolMembershipLabelExact roleMembershipLabelExact
    simp only [hinst, hget, getElem?_exactLabels, desiredLabels]
    rw [if_neg (by decide : ¬ labelRole = labelWriter), if_neg (by decide : ¬ labelReader = labelWriter),
      if_neg (by decide : ¬ labelRole = labelReader)]
    cases stringSet plan.membership.writer (podInstance pod) <;>
      cases stringSet plan.membership.reader (podInstance pod) <;> simp

/-- No pod is listed twice. -/
theorem nodup_listed {resource : PgBouncerAurora} {w w' : World} {pods : List (String × Pod)}
    (h : listPods resource w = .ok pods w') : (pods.map (·.1)).Nodup := by
  rw [listPods_eq_ok h]
  refine List.Nodup.sublist (List.Sublist.map _ List.filter_sublist) ?_
  rw [Std.ExtTreeMap.map_fst_toList_eq_keys]
  exact Std.ExtTreeMap.nodup_keys

/-- When the labelling succeeds, every pod of the resource is exact, also one that is no
instance's. -/
theorem podExact_of_patched {resource : PgBouncerAurora} {plan : Output} {w w' : World}
    (h : patchPodMembership resource plan w = .ok ⟨⟩ w') {name : String} {pod : Pod}
    (hpod : w'.cluster.pods[name]? = some pod) (hman : managed resource pod.labels = true) :
    podExact plan pod = true := by
  obtain ⟨pods, w₁, h₁, h⟩ := bind_eq_ok.mp h
  obtain ⟨livePods, w₂, h₂, h₃⟩ := bind_eq_ok.mp h
  have hpods : w₁.cluster.pods = w.cluster.pods :=
    congrArg (fun v => v.2.1.pods) ((listPods_keeps _).of_ok h₁)
  have hnodup := nodup_listed h₁
  obtain ⟨hadd, hlive⟩ := addMembershipLabels_eq_ok h₂ hnodup
  have hexact := patchExact_eq_ok h₃ (by rw [hlive]; exact hnodup.filter _)
  rw [hpods] at hadd hlive
  rw [hexact name] at hpod
  by_cases hin : name ∈ livePods
  · rw [if_pos hin] at hpod
    obtain ⟨middle, -, rfl⟩ := Option.map_eq_some_iff.mp hpod
    exact podExact_relabel plan middle
  · -- a pod outside the passes is untouched, so it was not one of the resource's
    rw [if_neg hin, hadd name] at hpod
    by_cases hlisted : name ∈ pods.map (·.1)
    · rw [if_pos hlisted] at hpod
      obtain ⟨original, horig, -⟩ := Option.map_eq_some_iff.mp hpod
      refine absurd ?_ hin
      rw [hlive, List.mem_filter]
      exact ⟨hlisted, by rw [horig]; rfl⟩
    · rw [if_neg hlisted] at hpod
      exact absurd (List.mem_map.mpr ⟨(name, pod), (mem_listPods h₁).mpr ⟨hpod, hman⟩, rfl⟩)
        hlisted

/-- **When the labelling succeeds, every pod of the resource carries the plan's labels.** -/
theorem patchPodMembership_exact {resource : PgBouncerAurora} {plan : Output} {w w' : World}
    (h : patchPodMembership resource plan w = .ok ⟨⟩ w') :
    LabelsExact resource plan w'.cluster :=
  fun _ _ hpod hman _ => podExact_of_patched h hpod hman

end Controller

end AuroraOperator

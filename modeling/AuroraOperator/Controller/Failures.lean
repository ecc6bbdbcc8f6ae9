/-
# Failures and what becomes of them

A program meets failures call by call.  Some kinds are expected and dealt with, such as a conflict,
after which the program tries again; any other is to end the program at once and be its answer, so
that nothing is done on wrong assumptions.

`StopsAtFault soft m` says that of `m`: it survives failures of the kinds in `soft`, and the first
one of another kind is the last thing it meets.
-/
import AuroraOperator.Controller.Server

namespace AuroraOperator

namespace Controller

open Program

/-! ## 1. The judgement -/

/-- The failures met between the two are of the given kinds. -/
def OnlyMet (soft : ApiError → Prop) (w w' : World) : Prop :=
  ∃ met, w.faults = met ++ w'.faults ∧ ∀ fault : Fault, some fault ∈ met → soft fault.val

/-- The last call between the two failed with `e`; the others met failures of the given kinds at
most. -/
def StoppedBy (soft : ApiError → Prop) (e : ApiError) (w w' : World) : Prop :=
  ∃ met, ∃ fault : Fault, fault.val = e ∧ w.faults = met ++ some fault :: w'.faults ∧
    ∀ fault : Fault, some fault ∈ met → soft fault.val

/-- A failure of another kind is the end of the program, and what it returns. -/
def StopsAtFault {α : Type} (soft : ApiError → Prop) (m : Api α) : Prop :=
  ∀ w, OnlyMet soft w (final m w) ∨ ∃ e w', m w = .error e w' ∧ StoppedBy soft e w w'

section Faults

variable {α β : Type} {soft : ApiError → Prop}

theorem OnlyMet.refl (w : World) : OnlyMet soft w w := ⟨[], rfl, by simp⟩

theorem OnlyMet.trans {w₁ w₂ w₃ : World} (h₁ : OnlyMet soft w₁ w₂) (h₂ : OnlyMet soft w₂ w₃) :
    OnlyMet soft w₁ w₃ := by
  obtain ⟨met₁, heq₁, hall₁⟩ := h₁
  obtain ⟨met₂, heq₂, hall₂⟩ := h₂
  refine ⟨met₁ ++ met₂, by rw [heq₁, heq₂, List.append_assoc], fun fault hin => ?_⟩
  exact (List.mem_append.mp hin).elim (hall₁ fault) (hall₂ fault)

theorem OnlyMet.stopped {w₁ w₂ w₃ : World} {e : ApiError} (h₁ : OnlyMet soft w₁ w₂)
    (h₂ : StoppedBy soft e w₂ w₃) : StoppedBy soft e w₁ w₃ := by
  obtain ⟨met₁, heq₁, hall₁⟩ := h₁
  obtain ⟨met₂, fault, he, heq₂, hall₂⟩ := h₂
  refine ⟨met₁ ++ met₂, fault, he, by rw [heq₁, heq₂, List.append_assoc], fun fault hin => ?_⟩
  exact (List.mem_append.mp hin).elim (hall₁ fault) (hall₂ fault)

/-- Being stopped by an expected failure is meeting only those. -/
theorem StoppedBy.onlyMet {w w' : World} {e : ApiError} (h : StoppedBy soft e w w')
    (he : soft e) : OnlyMet soft w w' := by
  obtain ⟨met, last, hlast, heq, hall⟩ := h
  refine ⟨met ++ [some last], by rw [heq, List.append_assoc]; rfl, fun fault hin => ?_⟩
  rcases List.mem_append.mp hin with hin | hin
  · exact hall fault hin
  · cases List.mem_singleton.mp hin
    rw [hlast]
    exact he

/-- A program that returned was not stopped. -/
theorem StopsAtFault.of_ok {m : Api α} (hm : StopsAtFault soft m) {w w' : World} {a : α}
    (h : m w = .ok a w') : OnlyMet soft w w' := by
  rcases hm w with hmet | ⟨e, w₁, he, -⟩
  · rwa [final_of_ok h] at hmet
  · rw [h] at he
    cases he

theorem StopsAtFault.of_error {m : Api α} (hm : StopsAtFault soft m) {w w' : World} {e : ApiError}
    (h : m w = .error e w') : OnlyMet soft w w' ∨ StoppedBy soft e w w' := by
  rcases hm w with hmet | ⟨e₁, w₁, he, hstop⟩
  · rw [final_of_error h] at hmet
    exact Or.inl hmet
  · rw [h] at he
    cases he
    exact Or.inr hstop

theorem stopsAtFault_of {m : Api α} {w : World}
    (hok : ∀ a w', m w = .ok a w' → OnlyMet soft w w')
    (herror : ∀ e w', m w = .error e w' → OnlyMet soft w w' ∨ StoppedBy soft e w w') :
    OnlyMet soft w (final m w) ∨ ∃ e w', m w = .error e w' ∧ StoppedBy soft e w w' := by
  cases h : m w with
  | ok a w' =>
    rw [final_of_ok h]
    exact Or.inl (hok a w' h)
  | error e w' =>
    rw [final_of_error h]
    exact (herror e w' h).imp_right fun hstop => ⟨e, w', rfl, hstop⟩

/-! ## 2. The rules -/

theorem StopsAtFault.pure (a : α) : StopsAtFault soft (Pure.pure a) := fun w => Or.inl (.refl w)

theorem StopsAtFault.bind {m : Api α} {f : α → Api β} (hm : StopsAtFault soft m)
    (hf : ∀ a, StopsAtFault soft (f a)) : StopsAtFault soft (m >>= f) := by
  intro w
  refine stopsAtFault_of (fun b w' h => ?_) fun e w' h => ?_
  · obtain ⟨a, w₁, h₁, h₂⟩ := bind_eq_ok.mp h
    exact (hm.of_ok h₁).trans ((hf a).of_ok h₂)
  · rcases bind_eq_error.mp h with h₁ | ⟨a, w₁, h₁, h₂⟩
    · exact hm.of_error h₁
    · exact ((hf a).of_error h₂).imp (hm.of_ok h₁).trans (hm.of_ok h₁).stopped

theorem StopsAtFault.forM {f : α → Api PUnit} (hf : ∀ a, StopsAtFault soft (f a)) (l : List α) :
    StopsAtFault soft (l.forM f) := by
  induction l with
  | nil => exact StopsAtFault.pure _
  | cons a l ih => exact StopsAtFault.bind (hf a) fun _ => ih

theorem StopsAtFault.ite (c : Prop) [Decidable c] {m n : Api α} (hm : StopsAtFault soft m)
    (hn : StopsAtFault soft n) : StopsAtFault soft (if c then m else n) := by
  split
  · exact hm
  · exact hn

/-- A call meets at most one failure. -/
theorem StopsAtFault.call {m : Api α} (hm : ∀ w, (final m w).faults = w.faults) :
    StopsAtFault soft (Controller.call m) := by
  intro w
  have hwork : ∀ faults, OnlyMet soft { w with faults := faults }
      (final m { w with faults := faults }) := fun faults => ⟨[], (hm _).symm, by simp⟩
  cases hfaults : w.faults with
  | nil =>
    have hrun : Controller.call m w = m w := by simp [Controller.call, hfaults]
    left
    have hmet := hwork w.faults
    simpa only [final, hrun] using hmet
  | cons first rest =>
    cases first with
    | none =>
      have hrun : Controller.call m w = m { w with faults := rest } := by
        simp [Controller.call, hfaults]
      left
      have hmet : OnlyMet soft w { w with faults := rest } := ⟨[none], hfaults, by simp⟩
      simpa only [final, hrun] using hmet.trans (hwork rest)
    | some fault =>
      exact Or.inr ⟨fault.val, { w with faults := rest }, by simp [Controller.call, hfaults],
        [], fault, rfl, hfaults, by simp⟩

/-- `notFound` is never a failure that was met, so ignoring it hides none. -/
theorem StopsAtFault.ignoreNotFound {m : Api α} (hm : StopsAtFault soft m) :
    StopsAtFault soft (Controller.ignoreNotFound m) := by
  intro w
  refine stopsAtFault_of (fun found w' h => ?_) fun e w' h => ?_
  · cases found with
    | some a => exact hm.of_ok (recover_eq_some.mp h)
    | none =>
      obtain ⟨e, he, hcaught⟩ := recover_eq_none.mp h
      rcases hm.of_error he with hmet | ⟨_, fault, hfault, -⟩
      · exact hmet
      · rw [decide_eq_true_eq] at hcaught
        exact absurd (hfault.trans hcaught) fault.property
  · exact hm.of_error (recover_eq_error.mp h).1

theorem StopsAtFault.retryOnConflict {m : Api α} (hsoft : soft .conflict)
    (hm : StopsAtFault soft m) : StopsAtFault soft (Controller.retryOnConflict m) := by
  unfold Controller.retryOnConflict
  suffices hall : ∀ n, StopsAtFault soft (retry (· = ApiError.conflict) m n) from hall 4
  intro n
  induction n with
  | zero => exact hm
  | succ n ih =>
    intro w
    cases h : m w with
    | ok a w₁ =>
      refine stopsAtFault_of (fun b w' hrun => ?_) fun e w' hrun => ?_
      · simp only [retry, h, EStateM.Result.ok.injEq] at hrun
        exact hrun.2 ▸ hm.of_ok h
      · simp [retry, h] at hrun
    | error e w₁ =>
      by_cases hconflict : e = .conflict
      · subst hconflict
        have hfirst : OnlyMet soft w w₁ := (hm.of_error h).elim id fun hstop => hstop.onlyMet hsoft
        have hrun : retry (· = ApiError.conflict) m (n + 1) w
            = retry (· = ApiError.conflict) m n w₁ := by simp [retry, h]
        refine stopsAtFault_of (fun b w' hb => ?_) fun e w' he => ?_
        · exact hfirst.trans (ih.of_ok (hrun.symm.trans hb))
        · exact (ih.of_error (hrun.symm.trans he)).imp hfirst.trans hfirst.stopped
      · have hrun : retry (· = ApiError.conflict) m (n + 1) w = .error e w₁ := by
          simp [retry, h, hconflict]
        refine stopsAtFault_of (fun b w' hb => ?_) fun e' w' he => ?_
        · rw [hrun] at hb
          cases hb
        · rw [hrun] at he
          cases he
          exact hm.of_error h

/-- Only expected failures may be renamed. -/
theorem StopsAtFault.mapError {f : ApiError → ApiError} (hf : ∀ e, soft e ∨ f e = e) {m : Api α}
    (hm : StopsAtFault soft m) : StopsAtFault soft (Program.mapError f m) := by
  intro w
  refine stopsAtFault_of (fun a w' h => hm.of_ok (mapError_eq_ok h)) fun e w' h => ?_
  cases hrun : m w with
  | ok a w₁ => simp [Program.mapError, hrun] at h
  | error e₁ w₁ =>
    simp only [Program.mapError, hrun, EStateM.Result.error.injEq] at h
    obtain ⟨rfl, rfl⟩ := h
    rcases hm.of_error hrun with hmet | hstop
    · exact Or.inl hmet
    · rcases hf e₁ with hsoft | hsame
      · exact Or.inl (hstop.onlyMet hsoft)
      · rw [hsame]
        exact Or.inr hstop

/-! ## 3. The calls -/

theorem getResource_stops : StopsAtFault soft getResource := StopsAtFault.call fun _ => rfl

theorem updateResourceStatus_stops (status : Status) :
    StopsAtFault soft (updateResourceStatus status) := StopsAtFault.call fun _ => rfl

theorem listObjects_stops (kind : Kind) (resource : PgBouncerAurora) :
    StopsAtFault soft (listObjects kind resource) := StopsAtFault.call fun _ => rfl

theorem listPods_stops (resource : PgBouncerAurora) : StopsAtFault soft (listPods resource) :=
  StopsAtFault.call fun _ => rfl

theorem fetch_stops (lookup : Cluster → Option α) : StopsAtFault soft (fetch lookup) :=
  StopsAtFault.call fun w => by
    dsimp only [final]
    cases lookup w.cluster <;> rfl

theorem createObject_stops (kind : Kind) (object : kind.Object) :
    StopsAtFault soft (createObject kind object) :=
  StopsAtFault.call fun w => by
    dsimp only [final]
    cases (objects kind w.cluster)[(kind.metadata object).name]? <;> rfl

theorem updateObject_stops (kind : Kind) (name : String) (object : kind.Object) :
    StopsAtFault soft (updateObject kind name object) :=
  StopsAtFault.call fun w => by
    dsimp only [final]
    cases (objects kind w.cluster)[name]? <;> rfl

theorem deleteObject_stops (kind : Kind) (name : String) :
    StopsAtFault soft (deleteObject kind name) :=
  StopsAtFault.call fun w => by
    dsimp only [final]
    cases (objects kind w.cluster)[name]? <;> rfl

theorem patchPod_stops (name : String) (labels : StringMap String) :
    StopsAtFault soft (patchPod name labels) :=
  StopsAtFault.call fun w => by
    dsimp only [final]
    cases w.cluster.pods[name]? <;> rfl

end Faults

end Controller

end AuroraOperator

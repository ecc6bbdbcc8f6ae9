/-
# Programs that can fail half way

A program over a state `σ` that may stop with an error `ε` is an `EStateM ε σ`.  When it
stops, the state keeps what was done so far; nothing is rolled back.  This file has the
rules the proofs about such programs need.

There are two main judgements, and they answer different questions.

* `Ensures m Q`: when `m` RETURNS, `Q` relates the state before, the result and the state
  after.
* `Within R m`: whether `m` returns or fails, `R` relates the state before and after.  With
  `R` a preorder, `Within R` holds of a program once it holds of its parts.  Frames ("the
  program leaves this alone") are the case `Keeps`.

A third judgement is for single requests: `Clean view m` says that a FAILED run of `m` left no
trace in what `view` shows.  A clean program can be retried as if it had not been tried.

Three combinators deal with errors.  `retry` runs a program again when it fails with an
error of a given kind, as often as its budget allows; `recover` turns such a failure into
`none`; `mapError` renames errors.
-/
import Mathlib.Data.List.Basic

namespace Program

open EStateM

variable {ε σ α β γ : Type}

/-! ## 1. Running -/

/-- The state a program leaves, whether it returned or failed. -/
def final (m : EStateM ε σ α) (s : σ) : σ :=
  match m s with
  | .ok _ s' => s'
  | .error _ s' => s'

theorem final_of_ok {m : EStateM ε σ α} {s s' : σ} {a : α} (h : m s = .ok a s') :
    final m s = s' := by
  simp only [final, h]

theorem final_of_error {m : EStateM ε σ α} {s s' : σ} {e : ε} (h : m s = .error e s') :
    final m s = s' := by
  simp only [final, h]

/-- The program returns, and its result and the state it leaves pass a test. -/
def returns (test : α → σ → Bool) (m : EStateM ε σ α) (s : σ) : Bool :=
  match m s with
  | .ok a s' => test a s'
  | .error _ _ => false

theorem returns_iff {test : α → σ → Bool} {m : EStateM ε σ α} {s : σ} :
    returns test m s = true ↔ ∃ a s', m s = .ok a s' ∧ test a s' = true := by
  unfold returns
  cases h : m s with
  | ok a s₁ => simp
  | error e s₁ => simp

@[simp] theorem pure_apply (a : α) (s : σ) : (pure a : EStateM ε σ α) s = .ok a s := rfl

/-- A sequence returns when both of its parts do. -/
theorem bind_eq_ok {m : EStateM ε σ α} {f : α → EStateM ε σ β} {s s' : σ} {b : β} :
    (m >>= f) s = .ok b s' ↔ ∃ a s₁, m s = .ok a s₁ ∧ f a s₁ = .ok b s' := by
  change EStateM.bind m f s = _ ↔ _
  unfold EStateM.bind
  cases h : m s with
  | ok a s₁ => simp
  | error e s₁ => simp

/-- A sequence fails in its first part, or in its second. -/
theorem bind_eq_error {m : EStateM ε σ α} {f : α → EStateM ε σ β} {s s' : σ} {e : ε} :
    (m >>= f) s = .error e s' ↔
      m s = .error e s' ∨ ∃ a s₁, m s = .ok a s₁ ∧ f a s₁ = .error e s' := by
  change EStateM.bind m f s = _ ↔ _
  unfold EStateM.bind
  cases h : m s with
  | ok a s₁ => simp
  | error e₁ s₁ => simp

theorem final_bind (m : EStateM ε σ α) (f : α → EStateM ε σ β) (s : σ) :
    final (m >>= f) s = match m s with
      | .ok a s₁ => final (f a) s₁
      | .error _ s₁ => s₁ := by
  change final (EStateM.bind m f) s = _
  simp only [final, EStateM.bind]
  cases m s <;> rfl

theorem final_bind_of_ok {m : EStateM ε σ α} {f : α → EStateM ε σ β} {s s₁ : σ} {a : α}
    (h : m s = .ok a s₁) : final (m >>= f) s = final (f a) s₁ := by
  rw [final_bind, h]

/-- Run a program again when it fails with an error that `again` accepts, at most `n` more
times. -/
def retry (again : ε → Bool) (m : EStateM ε σ α) : Nat → EStateM ε σ α
  | 0 => m
  | n + 1 => fun s =>
    match m s with
    | .ok a s' => .ok a s'
    | .error e s' => if again e then retry again m n s' else .error e s'

theorem retry_of_ok {again : ε → Bool} {m : EStateM ε σ α} {s s' : σ} {a : α} (h : m s = .ok a s') :
    ∀ n, retry again m n s = .ok a s'
  | 0 => h
  | n + 1 => by simp only [retry, h]

/-- Turn a failure with an error that `caught` accepts into `none`. -/
def recover (caught : ε → Bool) (m : EStateM ε σ α) : EStateM ε σ (Option α) := fun s =>
  match m s with
  | .ok a s' => .ok (some a) s'
  | .error e s' => if caught e then .ok none s' else .error e s'

theorem final_recover (caught : ε → Bool) (m : EStateM ε σ α) (s : σ) :
    final (recover caught m) s = final m s := by
  unfold final recover
  cases m s with
  | ok a s₁ => rfl
  | error e s₁ => cases h : caught e <;> simp [h]

/-- Rename the error of a failure. -/
def mapError (f : ε → ε) (m : EStateM ε σ α) : EStateM ε σ α := fun s =>
  match m s with
  | .ok a s' => .ok a s'
  | .error e s' => .error (f e) s'

theorem mapError_eq_ok {f : ε → ε} {m : EStateM ε σ α} {s s' : σ} {a : α}
    (h : mapError f m s = .ok a s') : m s = .ok a s' := by
  unfold mapError at h
  cases hs : m s with
  | ok b s₁ =>
    rw [hs] at h
    exact h
  | error e s₁ =>
    rw [hs] at h
    cases h

theorem recover_eq_some {caught : ε → Bool} {m : EStateM ε σ α} {s s' : σ} {a : α} :
    recover caught m s = .ok (some a) s' ↔ m s = .ok a s' := by
  unfold recover
  cases h : m s with
  | ok b s₁ => simp
  | error e s₁ => cases hc : caught e <;> simp [hc]

theorem recover_eq_none {caught : ε → Bool} {m : EStateM ε σ α} {s s' : σ} :
    recover caught m s = .ok none s' ↔ ∃ e, m s = .error e s' ∧ caught e = true := by
  unfold recover
  cases h : m s with
  | ok b s₁ => simp
  | error e s₁ => cases hc : caught e <;> simp [hc]

theorem recover_eq_error {caught : ε → Bool} {m : EStateM ε σ α} {s s' : σ} {e : ε} :
    recover caught m s = .error e s' ↔ m s = .error e s' ∧ caught e = false := by
  unfold recover
  cases h : m s with
  | ok b s₁ => simp
  | error e₁ s₁ =>
    cases hc : caught e₁ with
    | true =>
      simp only [hc, if_true, reduceCtorEq, Result.error.injEq, false_iff, not_and]
      rintro ⟨rfl, -⟩
      simp [hc]
    | false =>
      simp only [hc, Bool.false_eq_true, if_false, Result.error.injEq]
      exact ⟨fun heq => ⟨heq, heq.1 ▸ hc⟩, fun h => h.1⟩

/-! ## 2. What holds when a program returns -/

/-- When `m` returns, `Q` relates the state before, the result and the state after. -/
def Ensures (m : EStateM ε σ α) (Q : σ → α → σ → Prop) : Prop :=
  ∀ ⦃s a s'⦄, m s = .ok a s' → Q s a s'

namespace Ensures

/-- A returning `retry` is a returning run of the program, from the state that some number
of failed runs has left. -/
theorem retry {again : ε → Bool} {m : EStateM ε σ α} {Q : σ → α → σ → Prop}
    (hm : Ensures m Q)
    (hfail : ∀ ⦃s e s₁ a s'⦄, m s = .error e s₁ → Q s₁ a s' → Q s a s') (n : Nat) :
    Ensures (Program.retry again m n) Q := by
  induction n with
  | zero => exact hm
  | succ n ih =>
    intro s a s' h
    unfold Program.retry at h
    cases hs : m s with
    | ok b s₁ =>
      rw [hs] at h
      simp only [Result.ok.injEq] at h
      obtain ⟨rfl, rfl⟩ := h
      exact hm hs
    | error e s₁ =>
      rw [hs] at h
      dsimp only at h
      split at h
      · exact hfail hs (ih h)
      · cases h

/-- **The loop rule.**  An invariant of the part of the list that is done, kept by every
round that returns. -/
theorem forM {f : α → EStateM ε σ PUnit} {I : List α → σ → Prop} {l : List α}
    (hstep : ∀ (before : List α) (a : α) (after : List α), l = before ++ a :: after →
      ∀ ⦃s s'⦄, I before s → f a s = .ok ⟨⟩ s' → I (before ++ [a]) s')
    {s s' : σ} (h : l.forM f s = .ok ⟨⟩ s') (hs : I [] s) : I l s' := by
  have go : ∀ (after before : List α) (s : σ), l = before ++ after → I before s →
      after.forM f s = .ok ⟨⟩ s' → I l s' := by
    intro after
    induction after with
    | nil =>
      intro before s hl hI hrun
      have hs' : s = s' := by
        change (pure PUnit.unit : EStateM ε σ PUnit) s = _ at hrun
        rw [pure_apply] at hrun
        injection hrun
      rw [List.append_nil] at hl
      rw [hl, ← hs']
      exact hI
    | cons a after ih =>
      intro before s hl hI hrun
      change (f a >>= fun _ => after.forM f) s = _ at hrun
      obtain ⟨⟨⟩, s₁, h₁, h₂⟩ := bind_eq_ok.mp hrun
      exact ih (before ++ [a]) s₁ (by rw [hl]; simp) (hstep before a after hl hI h₁) h₂
  exact go l [] s (by simp) hs h

end Ensures

/-! ## 3. What holds whether it returns or fails -/

/-- Whether `m` returns or fails, `R` relates the state before and the state after. -/
def Within (R : σ → σ → Prop) (m : EStateM ε σ α) : Prop := ∀ s, R s (final m s)

/-- A transformation of the state that `m` is free to apply in steps: `R` is reflexive and
transitive. -/
structure Steps (R : σ → σ → Prop) : Prop where
  refl : ∀ s, R s s
  trans : ∀ {s₁ s₂ s₃}, R s₁ s₂ → R s₂ s₃ → R s₁ s₃

/-- A sequence from one state: the second part starts where the first one returned. -/
theorem Steps.bind {R : σ → σ → Prop} (hR : Steps R) {m : EStateM ε σ α}
    {f : α → EStateM ε σ β} {s : σ} (hm : R s (final m s))
    (hf : ∀ a s₁, m s = .ok a s₁ → R s₁ (final (f a) s₁)) : R s (final (m >>= f) s) := by
  rw [final_bind]
  unfold final at hm
  cases hs : m s with
  | ok a s₁ =>
    rw [hs] at hm
    exact hR.trans hm (hf a s₁ hs)
  | error e s₁ =>
    rw [hs] at hm
    exact hm

namespace Within

variable {R : σ → σ → Prop}

theorem of_ok {m : EStateM ε σ α} (h : Within R m) {s s' : σ} {a : α} (hm : m s = .ok a s') :
    R s s' := by
  have := h s
  rwa [final_of_ok hm] at this

theorem of_error {m : EStateM ε σ α} (h : Within R m) {s s' : σ} {e : ε}
    (hm : m s = .error e s') : R s s' := by
  have := h s
  rwa [final_of_error hm] at this

theorem pure (hR : Steps R) (a : α) : Within R (Pure.pure a : EStateM ε σ α) :=
  fun s => hR.refl s

theorem bind (hR : Steps R) {m : EStateM ε σ α} {f : α → EStateM ε σ β} (hm : Within R m)
    (hf : ∀ a, Within R (f a)) : Within R (m >>= f) :=
  fun s => hR.bind (hm s) fun a s₁ _ => hf a s₁

theorem forM (hR : Steps R) {f : α → EStateM ε σ PUnit} {l : List α}
    (hf : ∀ a ∈ l, Within R (f a)) : Within R (l.forM f) := by
  induction l with
  | nil => exact Within.pure hR _
  | cons a l ih =>
    exact Within.bind hR (hf a (List.mem_cons_self ..)) fun _ =>
      ih fun b hb => hf b (List.mem_cons_of_mem a hb)

theorem retry (hR : Steps R) {again : ε → Bool} {m : EStateM ε σ α} (hm : Within R m) (n : Nat) :
    Within R (Program.retry again m n) := by
  induction n with
  | zero => exact hm
  | succ n ih =>
    intro s
    cases hs : m s with
    | ok a s₁ =>
      have hrun : Program.retry again m (n + 1) s = .ok a s₁ := by simp [Program.retry, hs]
      rw [final_of_ok hrun]
      exact hm.of_ok hs
    | error e s₁ =>
      by_cases he : again e = true
      · have hrun : Program.retry again m (n + 1) s = Program.retry again m n s₁ := by
          simp [Program.retry, hs, he]
        have hfin : final (Program.retry again m (n + 1)) s
            = final (Program.retry again m n) s₁ := by simp only [final, hrun]
        rw [hfin]
        exact hR.trans (hm.of_error hs) (ih s₁)
      · have hrun : Program.retry again m (n + 1) s = .error e s₁ := by
          simp [Program.retry, hs, he]
        rw [final_of_error hrun]
        exact hm.of_error hs

theorem recover {caught : ε → Bool} {m : EStateM ε σ α} (hm : Within R m) :
    Within R (Program.recover caught m) := by
  intro s
  rw [final_recover]
  exact hm s

theorem mapError {f : ε → ε} {m : EStateM ε σ α} (hm : Within R m) :
    Within R (Program.mapError f m) := by
  intro s
  have hfin : final (Program.mapError f m) s = final m s := by
    unfold final Program.mapError
    cases m s <;> rfl
  rw [hfin]
  exact hm s

theorem ite (c : Prop) [Decidable c] {m n : EStateM ε σ α} (hm : Within R m) (hn : Within R n) :
    Within R (if c then m else n) := by
  split
  · exact hm
  · exact hn

end Within

/-! ## 4. Frames -/

/-- The program leaves what `view` shows of the state as it was. -/
def Keeps (view : σ → γ) (m : EStateM ε σ α) : Prop := Within (fun s s' => view s' = view s) m

theorem steps_view (view : σ → γ) : Steps (fun s s' => view s' = view s) where
  refl _ := rfl
  trans h₁ h₂ := h₂.trans h₁

namespace Keeps

variable {view : σ → γ}

theorem of_ok {m : EStateM ε σ α} (h : Keeps view m) {s s' : σ} {a : α} (hm : m s = .ok a s') :
    view s' = view s := Within.of_ok h hm

theorem of_error {m : EStateM ε σ α} (h : Keeps view m) {s s' : σ} {e : ε}
    (hm : m s = .error e s') : view s' = view s := Within.of_error h hm

theorem pure (a : α) : Keeps view (Pure.pure a : EStateM ε σ α) :=
  Within.pure (steps_view view) a

theorem bind {m : EStateM ε σ α} {f : α → EStateM ε σ β} (hm : Keeps view m)
    (hf : ∀ a, Keeps view (f a)) : Keeps view (m >>= f) :=
  Within.bind (steps_view view) hm hf

theorem forM {f : α → EStateM ε σ PUnit} (hf : ∀ a, Keeps view (f a)) (l : List α) :
    Keeps view (l.forM f) := Within.forM (steps_view view) fun a _ => hf a

theorem recover {caught : ε → Bool} {m : EStateM ε σ α} (hm : Keeps view m) :
    Keeps view (Program.recover caught m) := Within.recover hm

theorem ite (c : Prop) [Decidable c] {m n : EStateM ε σ α} (hm : Keeps view m)
    (hn : Keeps view n) : Keeps view (if c then m else n) := Within.ite c hm hn

end Keeps

/-! ## 5. Failures without a trace -/

/-- A failed run leaves what `view` shows of the state as it was. -/
def Clean (view : σ → γ) (m : EStateM ε σ α) : Prop :=
  ∀ ⦃s e s'⦄, m s = .error e s' → view s' = view s

namespace Clean

variable {view : σ → γ}

theorem of_keeps {m : EStateM ε σ α} (h : Keeps view m) : Clean view m :=
  fun _ _ _ hm => h.of_error hm

/-- Only the last part of a sequence may leave a trace when it returns. -/
theorem bind {m : EStateM ε σ α} {f : α → EStateM ε σ β} (hm : Keeps view m)
    (hf : ∀ a, Clean view (f a)) : Clean view (m >>= f) := by
  intro s e s' h
  rcases bind_eq_error.mp h with h₁ | ⟨a, s₁, h₁, h₂⟩
  · exact hm.of_error h₁
  · rw [hf a h₂, hm.of_ok h₁]

/-- What follows a program that may leave a trace must not fail. -/
theorem bind_pure {m : EStateM ε σ α} (hm : Clean view m) (f : α → β) :
    Clean view (m >>= fun a => Pure.pure (f a)) := by
  intro s e s' h
  rcases bind_eq_error.mp h with h₁ | ⟨a, s₁, -, h₂⟩
  · exact hm h₁
  · cases h₂

theorem recover {caught : ε → Bool} {m : EStateM ε σ α} (hm : Clean view m) :
    Clean view (Program.recover caught m) := by
  intro s e s' h
  exact hm (recover_eq_error.mp h).1

theorem mapError {f : ε → ε} {m : EStateM ε σ α} (hm : Clean view m) :
    Clean view (Program.mapError f m) := by
  intro s e s' h
  unfold Program.mapError at h
  cases hs : m s with
  | ok a s₁ => rw [hs] at h; cases h
  | error e₁ s₁ =>
    rw [hs] at h
    cases h
    exact hm hs

theorem ite (c : Prop) [Decidable c] {m n : EStateM ε σ α} (hm : Clean view m)
    (hn : Clean view n) : Clean view (if c then m else n) := by
  split
  · exact hm
  · exact hn

theorem retry {again : ε → Bool} {m : EStateM ε σ α} (hm : Clean view m) (n : Nat) :
    Clean view (Program.retry again m n) := by
  induction n with
  | zero => exact hm
  | succ n ih =>
    intro s e s' h
    unfold Program.retry at h
    cases hs : m s with
    | ok a s₁ => rw [hs] at h; cases h
    | error e₁ s₁ =>
      rw [hs] at h
      dsimp only at h
      split at h
      · rw [ih h, hm hs]
      · cases h
        exact hm hs

variable (view) in
/-- **Retrying a clean program.**  When it returns at last, it is as if the failed runs had
not been made. -/
theorem ensures_retry {again : ε → Bool} {m : EStateM ε σ α} {Q : σ → α → σ → Prop}
    (hm : Clean view m) (hQ : ∀ ⦃s s₁ a s'⦄, view s₁ = view s → Q s₁ a s' → Q s a s')
    (h : Ensures m Q) (n : Nat) : Ensures (Program.retry again m n) Q :=
  Ensures.retry h (fun _ _ _ _ _ hs hq => hQ (hm hs) hq) n

end Clean

end Program

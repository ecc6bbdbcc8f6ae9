/-
# Runs of a state machine

A machine is a step function `step : σ → α → σ`.  This file has what one needs to reason about
whole runs of it: `Along`, a property of every step of a run, with the invariant rule and the
rule that trades one such property for another; and `traced`, which adds a journal of what
happened to a machine that does not keep one.

Where several parties take turns, not every step is possible in every state.  Such a machine is
a step function into `Option`; `Leads` are its runs.  A measure that every step lowers bounds their
length, and into any well-founded order it makes each of them end in a state where everybody is
`Blocked`.
-/
import Mathlib.Data.List.Basic
import Mathlib.Order.WellFounded

namespace Machine

variable {σ α ε : Type*} (step : σ → α → σ)

/-! ## 1. Runs -/

def run (s : σ) (l : List α) : σ := l.foldl step s

@[simp] theorem run_nil (s : σ) : run step s [] = s := rfl

@[simp] theorem run_cons (s : σ) (a : α) (l : List α) :
    run step s (a :: l) = run step (step s a) l := rfl

theorem run_append (s : σ) (l m : List α) :
    run step s (l ++ m) = run step (run step s l) m := List.foldl_append

/-- `P` holds of every step of the run, each time of the state before the step. -/
def Along (P : σ → α → Prop) : σ → List α → Prop
  | _, [] => True
  | s, a :: l => P s a ∧ Along P (step s a) l

variable {step}

theorem along_of_forall {P : σ → α → Prop} {l : List α} (h : ∀ a ∈ l, ∀ s, P s a) (s : σ) :
    Along step P s l := by
  induction l generalizing s with
  | nil => trivial
  | cons a l ih =>
    exact ⟨h a (List.mem_cons_self ..) s, ih (fun b hb => h b (List.mem_cons_of_mem a hb)) _⟩

theorem Along.and {P Q : σ → α → Prop} {s : σ} {l : List α} (hP : Along step P s l)
    (hQ : Along step Q s l) : Along step (fun s a => P s a ∧ Q s a) s l := by
  induction l generalizing s with
  | nil => trivial
  | cons a l ih => exact ⟨⟨hP.1, hQ.1⟩, ih hP.2 hQ.2⟩

/-- **The invariant rule.** -/
theorem Along.invariant {P : σ → α → Prop} {I : σ → Prop}
    (hstep : ∀ s a, I s → P s a → I (step s a)) {s : σ} (hs : I s) {l : List α}
    (hl : Along step P s l) : I (run step s l) := by
  induction l generalizing s with
  | nil => exact hs
  | cons a l ih => exact ih (hstep s a hs hl.1) hl.2

/-- The same, with a property that does not look at the states. -/
theorem invariant_of_forall {P : α → Prop} {I : σ → Prop}
    (hstep : ∀ s a, I s → P a → I (step s a)) {s : σ} (hs : I s) {l : List α}
    (hl : ∀ a ∈ l, P a) : I (run step s l) := by
  induction l generalizing s with
  | nil => exact hs
  | cons a l ih =>
    exact ih (hstep s a hs (hl a (List.mem_cons_self ..))) fun b hb => hl b (List.mem_cons_of_mem a hb)

/-- An invariant that every step keeps. -/
theorem invariant {I : σ → Prop} (hstep : ∀ s a, I s → I (step s a)) {s : σ} (hs : I s)
    (l : List α) : I (run step s l) :=
  invariant_of_forall (P := fun _ => True) (fun s a h _ => hstep s a h) hs fun _ _ => trivial

/-- Two step properties that agree where the invariant holds agree along a run, if either one
keeps the invariant. -/
theorem Along.congr {P Q : σ → α → Prop} {I : σ → Prop} (h : ∀ s a, I s → (P s a ↔ Q s a))
    (hstep : ∀ s a, I s → P s a → I (step s a)) {s : σ} (hs : I s) (l : List α) :
    Along step P s l ↔ Along step Q s l := by
  induction l generalizing s with
  | nil => exact Iff.rfl
  | cons a l ih =>
    constructor
    · rintro ⟨hP, hl⟩
      exact ⟨(h s a hs).mp hP, (ih (hstep s a hs hP)).mp hl⟩
    · rintro ⟨hQ, hl⟩
      have hP := (h s a hs).mpr hQ
      exact ⟨hP, (ih (hstep s a hs hP)).mpr hl⟩

/-- A step property that gives another where the invariant holds, and keeps the invariant, gives it
along the run. -/
theorem Along.imp {P Q : σ → α → Prop} {I : σ → Prop} (h : ∀ s a, I s → P s a → Q s a)
    (hstep : ∀ s a, I s → P s a → I (step s a)) {s : σ} (hs : I s) {l : List α}
    (hl : Along step P s l) : Along step Q s l := by
  induction l generalizing s with
  | nil => trivial
  | cons a l ih => exact ⟨h s a hs hl.1, ih (hstep s a hs hl.1) hl.2⟩

/-- Two step properties that agree along a run whose steps keep the invariant for another reason. -/
theorem Along.congr_along {P Q R : σ → α → Prop} {I : σ → Prop} {s : σ} {l : List α}
    (hR : Along step R s l) (h : ∀ s a, I s → R s a → (P s a ↔ Q s a))
    (hstep : ∀ s a, I s → R s a → I (step s a)) (hs : I s) :
    Along step P s l ↔ Along step Q s l := by
  induction l generalizing s with
  | nil => exact Iff.rfl
  | cons a l ih => exact and_congr (h s a hs hR.1) (ih hR.2 (hstep s a hs hR.1))

/-- **The simulation rule.**  If whatever one machine does in a step, another can do in some steps,
then what the first does in a run the second does in some run. -/
theorem Along.simulate {τ β : Type*} {step' : τ → β → τ} {P : σ → α → Prop} {R : σ → τ → Prop}
    (hstep : ∀ s a t, R s t → P s a → ∃ m, R (step s a) (run step' t m)) {s : σ} {t : τ}
    (hs : R s t) {l : List α} (hl : Along step P s l) : ∃ m, R (run step s l) (run step' t m) := by
  induction l generalizing s t with
  | nil => exact ⟨[], hs⟩
  | cons a l ih =>
    obtain ⟨first, hfirst⟩ := hstep s a t hs hl.1
    obtain ⟨rest, hrest⟩ := ih hfirst hl.2
    exact ⟨first ++ rest, by rw [run_append]; exact hrest⟩

/-! ## 2. Journals -/

variable (step)

/-- The machine, with a journal of what its steps make happen, newest first. -/
def traced (events : σ → α → List ε) (t : σ × List ε) (a : α) : σ × List ε :=
  (step t.1 a, events t.1 a ++ t.2)

/-- What does not look at the journal is the same for both machines. -/
theorem along_traced {events : σ → α → List ε} {P : σ → α → Prop} {t : σ × List ε} {l : List α} :
    Along (traced step events) (fun t a => P t.1 a) t l ↔ Along step P t.1 l := by
  induction l generalizing t with
  | nil => exact Iff.rfl
  | cons a l ih => exact and_congr_right fun _ => ih

/-! ## 3. Steps that may be blocked -/

section Blocked

variable {move : σ → α → Option σ}

/-- The steps `l` can be taken from `s`, and lead to `t`. -/
def Leads (move : σ → α → Option σ) : σ → List α → σ → Prop
  | s, [], t => s = t
  | s, a :: l, t => ∃ u, move s a = some u ∧ Leads move u l t

/-- Nobody can take a step. -/
def Blocked (move : σ → α → Option σ) (s : σ) : Prop := ∀ a, move s a = none

theorem Leads.invariant {I : σ → Prop} (hstep : ∀ s a s', I s → move s a = some s' → I s')
    {s t : σ} {l : List α} (hl : Leads move s l t) (hs : I s) : I t := by
  induction l generalizing s with
  | nil =>
    cases hl
    exact hs
  | cons a l ih =>
    obtain ⟨u, hu, hl⟩ := hl
    exact ih hl (hstep s a u hs hu)

/-- A measure that every step lowers, unless it is paid for, bounds the length of every run. -/
theorem Leads.length_add_le {μ p : σ → Nat}
    (hstep : ∀ s a s', move s a = some s' → μ s' + p s < μ s + p s') {s t : σ} {l : List α}
    (hl : Leads move s l t) : l.length + μ t + p s ≤ μ s + p t := by
  induction l generalizing s with
  | nil =>
    cases hl
    simp
  | cons a l ih =>
    obtain ⟨u, hu, hl⟩ := hl
    have hfirst := hstep s a u hu
    have hrest := ih hl
    rw [List.length_cons]
    omega

theorem Leads.length_le {μ : σ → Nat} (hstep : ∀ s a s', move s a = some s' → μ s' < μ s)
    {s t : σ} {l : List α} (hl : Leads move s l t) : l.length ≤ μ s := by
  have hle := Leads.length_add_le (μ := μ) (p := fun _ => 0) hstep hl
  omega

/-- No run goes on for ever. -/
def Ends (move : σ → α → Option σ) (s : σ) : Prop := Acc (fun t s => ∃ a, move s a = some t) s

/-- A measure into a well-founded order that every step lowers makes every run end. -/
theorem Ends.of_measure {β : Type*} [Preorder β] [WellFoundedLT β] {μ : σ → β} {I : σ → Prop}
    (hstep : ∀ s a s', I s → move s a = some s' → I s' ∧ μ s' < μ s) {s : σ} (hs : I s) :
    Ends move s := by
  induction hn : μ s using WellFoundedLT.induction generalizing s with
  | _ n ih =>
    refine Acc.intro s fun t ⟨a, ha⟩ => ?_
    obtain ⟨ht, hless⟩ := hstep s a t hs ha
    exact ih (μ t) (hn ▸ hless) ht rfl

theorem Ends.not_forever {s : σ} (h : Ends move s) :
    ¬∃ run : Nat → σ, run 0 = s ∧ ∀ n, ∃ a, move (run n) a = some (run (n + 1)) :=
  fun ⟨run, hzero, hrun⟩ => (acc_iff_isEmpty_descending_chain.mp h).false ⟨run, hzero, hrun⟩

/-- Where every run ends, some run goes on until nobody can take a step. -/
theorem Ends.exists_blocked {s : σ} (h : Ends move s) : ∃ l t, Leads move s l t ∧ Blocked move t := by
  induction h with
  | intro s _ ih =>
    by_cases hs : Blocked move s
    · exact ⟨[], s, rfl, hs⟩
    · obtain ⟨a, ha⟩ := not_forall.mp hs
      obtain ⟨u, hu⟩ := Option.ne_none_iff_exists'.mp ha
      obtain ⟨l, t, hl, ht⟩ := ih u ⟨a, hu⟩
      exact ⟨a :: l, t, ⟨u, hu, hl⟩, ht⟩

end Blocked

end Machine

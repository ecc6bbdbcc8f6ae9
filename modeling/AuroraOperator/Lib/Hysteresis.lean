/-
# Hysteresis

A verdict that follows a stream of raw results, but not at once: it turns bad after so many
failures in a row, and good again after so many successes in a row.  All it remembers is the
verdict and the two counts.

`trailing` is what the counts are meant to be, as a function of the whole stream.  `Follows` says
that a memory has them, and that its verdict has not overstayed a threshold; one more result
keeps it, and turns the verdict exactly at the thresholds.
-/
import Mathlib.Data.List.Basic

namespace Hysteresis

/-! ## 1. Streams -/

/-- How many results at the end of a stream are `b`, newest first.  A stream of nothing else
continues the `before` results that came before it. -/
def trailing (b : Bool) (before : Int) (raws : List Bool) : Int :=
  (raws.takeWhile (· == b)).length + if raws.all (· == b) then before else 0

@[simp] theorem trailing_nil (b : Bool) (before : Int) : trailing b before [] = before := by
  simp [trailing]

theorem trailing_cons (b : Bool) (before : Int) (raw : Bool) (raws : List Bool) :
    trailing b before (raw :: raws) = if raw = b then trailing b before raws + 1 else 0 := by
  unfold trailing
  by_cases h : raw = b
  · subst h
    simp only [List.takeWhile_cons, beq_self_eq_true, if_true, List.length_cons, List.all_cons,
      Bool.true_and]
    push_cast
    omega
  · have hb : (raw == b) = false := by simpa using h
    simp [hb, h]

/-! ## 2. The automaton -/

structure Memory where
  healthy : Bool
  failures : Int
  successes : Int
  deriving DecidableEq

/-- The first result decides alone. -/
def first (raw : Bool) : Memory :=
  { healthy := raw, failures := if raw then 0 else 1, successes := if raw then 1 else 0 }

section Automaton

variable (failureThreshold recoveryThreshold : Int)

def Memory.observe (m : Memory) (raw : Bool) : Memory :=
  if raw then
    { healthy := m.healthy || decide (recoveryThreshold ≤ m.successes + 1)
      failures := 0
      successes := m.successes + 1 }
  else
    { healthy := m.healthy && decide (m.failures + 1 < failureThreshold)
      failures := m.failures + 1
      successes := 0 }

/-- The verdict has not overstayed a threshold. -/
structure Memory.Steady (m : Memory) : Prop where
  healthy : m.healthy = true → m.failures < failureThreshold
  unhealthy : m.healthy = false → m.successes < recoveryThreshold

/-- The memory is the one of the stream, on top of the counts from before it. -/
structure Follows (failures successes : Int) (raws : List Bool) (m : Memory) : Prop where
  steady : m.Steady failureThreshold recoveryThreshold
  failures : m.failures = trailing false failures raws
  successes : m.successes = trailing true successes raws

end Automaton

section Thresholds

variable {failureThreshold recoveryThreshold : Int} {m : Memory} {raw : Bool}

variable (m) in
/-- One result makes any memory steady. -/
theorem Memory.steady_observe (hf : 0 < failureThreshold) (hr : 0 < recoveryThreshold) :
    (m.observe failureThreshold recoveryThreshold raw).Steady failureThreshold
      recoveryThreshold := by
  cases raw with
  | true =>
    refine ⟨fun _ => hf, fun hbad => ?_⟩
    have hsplit : m.healthy = false ∧ ¬ recoveryThreshold ≤ m.successes + 1 := by
      simpa [Memory.observe] using hbad
    exact Int.not_le.mp hsplit.2
  | false =>
    refine ⟨fun hgood => ?_, fun _ => hr⟩
    have hsplit : m.healthy = true ∧ m.failures + 1 < failureThreshold := by
      simpa [Memory.observe] using hgood
    exact hsplit.2

/-- **A good verdict turns exactly when the failures reach the threshold.** -/
theorem Memory.Steady.turns_bad (h : m.Steady failureThreshold recoveryThreshold)
    (hf : 0 < failureThreshold) (hm : m.healthy = true) :
    (m.observe failureThreshold recoveryThreshold raw).healthy = false ↔
      (m.observe failureThreshold recoveryThreshold raw).failures = failureThreshold := by
  have hbelow := h.healthy hm
  cases raw with
  | true => simp [Memory.observe, hm]; omega
  | false => simp [Memory.observe, hm]; omega

/-- **A bad verdict turns exactly when the successes reach the threshold.** -/
theorem Memory.Steady.turns_good (h : m.Steady failureThreshold recoveryThreshold)
    (hr : 0 < recoveryThreshold) (hm : m.healthy = false) :
    (m.observe failureThreshold recoveryThreshold raw).healthy = true ↔
      (m.observe failureThreshold recoveryThreshold raw).successes = recoveryThreshold := by
  have hbelow := h.unhealthy hm
  cases raw with
  | true => simp [Memory.observe, hm]; omega
  | false => simp [Memory.observe, hm]; omega

variable {failures successes : Int} {raws : List Bool}

variable (raw) in
theorem Follows.observe (h : Follows failureThreshold recoveryThreshold failures successes raws m)
    (hf : 0 < failureThreshold) (hr : 0 < recoveryThreshold) :
    Follows failureThreshold recoveryThreshold failures successes (raw :: raws)
      (m.observe failureThreshold recoveryThreshold raw) where
  steady := m.steady_observe hf hr
  failures := by
    rw [trailing_cons, ← h.failures]
    cases raw <;> rfl
  successes := by
    rw [trailing_cons, ← h.successes]
    cases raw <;> rfl

theorem follows_first (hf : 0 < failureThreshold) (hr : 0 < recoveryThreshold) :
    Follows failureThreshold recoveryThreshold 0 0 [raw] (first raw) := by
  refine ⟨⟨?_, ?_⟩, ?_, ?_⟩ <;> cases raw <;> simp [first, trailing_cons, hf, hr]

end Thresholds

end Hysteresis

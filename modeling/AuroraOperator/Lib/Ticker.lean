/-
# Loops that wait for a ticker

A background worker does its work once, makes a ticker, and then works again on every tick.  The
channel of the ticker holds one tick, and a tick that finds one there is lost.  So the next lap
starts at the next tick, or, if a tick has come in during a lap, as soon as that lap is over.

A lap that is shorter than the interval does not push back the next one, and one that is longer
pushes it back by no more than its own length.  So from the second lap on they follow one another at
most an interval or the longest lap apart, whichever is more, and only the first lap counts with its
length besides (`Turning.start_le`).  Times are `Int`s.
-/
import Mathlib.Data.List.Chain
import Mathlib.Algebra.Order.Ring.Int

namespace Ticker

/-- One round of work. -/
structure Lap where
  started : Int
  ended : Int
  forward : started ≤ ended

/-- The ticks up to a time, for a ticker that was made at `made`. -/
def ticks (interval made time : Int) : Int := (time - made) / interval

/-- When the lap after `lap` starts. -/
def nextStart (interval made : Int) (lap : Lap) : Int :=
  -- the first lap starts before there is a ticker
  if max 0 (ticks interval made lap.started) < ticks interval made lap.ended then lap.ended
  else made + interval * (ticks interval made lap.ended + 1)

def Follows (interval made : Int) (lap lap' : Lap) : Prop :=
  lap'.started = nextStart interval made lap

/-- Successive laps of one worker.  The ticker is made when the first is over. -/
def Turning (interval : Int) : List Lap → Prop
  | [] => True
  | first :: rest => (first :: rest).IsChain (Follows interval first.ended)

instance (interval made : Int) : DecidableRel (Follows interval made) :=
  fun _ _ => inferInstanceAs (Decidable (_ = _))

instance (interval : Int) : DecidablePred (Turning interval)
  | [] => inferInstanceAs (Decidable True)
  | first :: rest =>
    inferInstanceAs (Decidable ((first :: rest).IsChain (Follows interval first.ended)))

section Next

variable {interval made : Int} {lap : Lap}

theorem ended_le_nextStart (hinterval : 0 < interval) :
    lap.ended ≤ nextStart interval made lap := by
  unfold nextStart
  split
  · exact le_refl _
  · have hlt := Int.lt_ediv_add_one_mul_self (lap.ended - made) hinterval
    rw [mul_comm] at hlt
    unfold ticks
    omega

/-- The next lap starts within an interval, or when this one is over. -/
theorem nextStart_le (hinterval : 0 < interval) (hmade : made ≤ lap.started) {lasting : Int}
    (hlasting : lap.ended ≤ lap.started + lasting) :
    nextStart interval made lap ≤ lap.started + max interval lasting := by
  unfold nextStart
  split
  · omega
  · rename_i hnone
    have hnonneg : 0 ≤ ticks interval made lap.started :=
      Int.ediv_nonneg (by omega) hinterval.le
    have hsame : ticks interval made lap.ended ≤ ticks interval made lap.started := by omega
    have htick : interval * ticks interval made lap.started ≤ lap.started - made :=
      Int.mul_ediv_self_le hinterval.ne'
    have hle := mul_le_mul_of_nonneg_left hsame hinterval.le
    rw [mul_add, mul_one]
    omega

theorem nextStart_first (hmade : lap.ended = made) :
    nextStart interval made lap = made + interval := by
  have hzero : ticks interval made lap.ended = 0 := by
    rw [ticks, hmade, sub_self, Int.zero_ediv]
  rw [nextStart, hzero, if_neg (by omega), zero_add, mul_one]

end Next

section Turning

variable {interval made : Int}

/-- No lap starts before the one before it is over. -/
theorem ended_le_started (hinterval : 0 < interval) {lap : Lap} {later : List Lap}
    (h : (lap :: later).IsChain (Follows interval made)) :
    ∀ other ∈ later, lap.ended ≤ other.started := by
  induction later generalizing lap with
  | nil => simp
  | cons next later ih =>
    obtain ⟨hnext, hlater⟩ := List.isChain_cons_cons.mp h
    have hle : lap.ended ≤ next.started := hnext ▸ ended_le_nextStart hinterval
    intro other hother
    rcases List.mem_cons.mp hother with rfl | hother
    · exact hle
    · exact hle.trans (next.forward.trans (ih hlater other hother))

/-- With a ticker, laps are at most an interval or the longest lap apart. -/
theorem chain_start_le (hinterval : 0 < interval) {lasting : Int} {lap last : Lap} {later : List Lap}
    (h : (lap :: (later ++ [last])).IsChain (Follows interval made)) (hmade : made ≤ lap.started)
    (hlasting : ∀ other ∈ lap :: later, other.ended ≤ other.started + lasting) :
    last.started ≤ lap.started + (later.length + 1) * max interval lasting := by
  induction later generalizing lap with
  | nil =>
    obtain ⟨hlast, -⟩ := List.isChain_cons_cons.mp h
    have hle := nextStart_le hinterval hmade (hlasting lap List.mem_cons_self)
    rw [← hlast] at hle
    simpa using hle
  | cons next later ih =>
    obtain ⟨hnext, hlater⟩ := List.isChain_cons_cons.mp h
    have hle := nextStart_le hinterval hmade (hlasting lap List.mem_cons_self)
    rw [← hnext] at hle
    have hstarted : lap.ended ≤ next.started := hnext ▸ ended_le_nextStart hinterval
    have hrest := ih hlater (hmade.trans (lap.forward.trans hstarted)) fun other hother =>
      hlasting other (List.mem_cons_of_mem _ hother)
    rw [List.length_cons, Nat.cast_add, Nat.cast_one, add_mul, one_mul]
    omega

/-- **Laps keep to the interval.**  If no lap takes longer than `lasting`, then a lap starts at most
an interval for each lap since, or a longest lap if that is more, and once `lasting`, after an
earlier one. -/
theorem Turning.start_le (hinterval : 0 < interval) {lasting : Int}
    {before later : List Lap} {lap last : Lap}
    (h : Turning interval (before ++ lap :: (later ++ [last])))
    (hlasting : ∀ other ∈ before ++ lap :: later, other.ended ≤ other.started + lasting) :
    last.started ≤ lap.started + (later.length + 1) * max interval lasting + lasting := by
  have hrest : ∀ other ∈ lap :: later, other.ended ≤ other.started + lasting := fun other hother =>
    hlasting other (List.mem_append_right _ hother)
  have hlap := hrest lap List.mem_cons_self
  have hforward := lap.forward
  cases before with
  | cons first before =>
    -- the ticker is there when the lap starts
    have hmade : first.ended ≤ lap.started :=
      ended_le_started hinterval h lap (List.mem_append_right _ List.mem_cons_self)
    have hchain : ((first :: before) ++ lap :: (later ++ [last])).IsChain
      (Follows interval first.ended) := h
    have hle := chain_start_le hinterval hchain.right_of_append hmade hrest
    omega
  | nil =>
    -- the lap is the first, and its ticker is made when it is over
    have hchain : (lap :: (later ++ [last])).IsChain (Follows interval lap.ended) := h
    cases later with
    | nil =>
      obtain ⟨hlast, -⟩ := List.isChain_cons_cons.mp hchain
      rw [Follows, nextStart_first rfl] at hlast
      simp only [List.length_nil, Nat.cast_zero, zero_add, one_mul]
      omega
    | cons next later =>
      obtain ⟨hnext, hlater⟩ := List.isChain_cons_cons.mp hchain
      rw [Follows, nextStart_first rfl] at hnext
      have hle := chain_start_le hinterval hlater (by omega) fun other hother =>
        hrest other (List.mem_cons_of_mem _ hother)
      rw [List.length_cons, Nat.cast_add, Nat.cast_one, add_mul, one_mul]
      omega

end Turning

end Ticker

/-
# Absence

Somebody looks at a changing set again and again, and keeps a list of the members that are
gone: for each one, how often it was missed since it was last seen, and since when.  Entries may
be dropped from the list by hand.

The history is a list of events, newest first: an observation of the whole set at some time, or
a dropping of some entries.  `Tracked` says who should be on the list, `missed` has the times of
the observations that missed a member.  The lemmas say how both change with one more event,
which is all an implementation that works event by event has to follow.
-/
import Mathlib.Data.List.Basic

namespace Absence

variable {α τ : Type*}

/-! ## 1. Histories -/

inductive Event (α τ : Type*)
  | observed (members : List α) (time : τ)
  | dropped (members : List α)

/-- The observations of a history, newest first. -/
def observations : List (Event α τ) → List (List α × τ)
  | [] => []
  | .observed members time :: h => (members, time) :: observations h
  | .dropped _ :: h => observations h

/-- The set as it was last observed. -/
def latest (h : List (Event α τ)) : List α := ((observations h).head?.map (·.1)).getD []

/-- `x` was observed at some time. -/
def Seen (x : α) (h : List (Event α τ)) : Prop := ∃ o ∈ observations h, x ∈ o.1

section Histories

variable {x : α} {members : List α} {time : τ} {h : List (Event α τ)}

@[simp] theorem latest_observed : latest (.observed members time :: h) = members := rfl

@[simp] theorem latest_dropped : latest (.dropped members :: h) = latest h := rfl

theorem seen_observed : Seen x (.observed members time :: h) ↔ x ∈ members ∨ Seen x h := by
  simp [Seen, observations]

theorem observations_append (g h : List (Event α τ)) :
    observations (g ++ h) = observations g ++ observations h := by
  induction g with
  | nil => rfl
  | cons e g ih => cases e <;> simp [observations, ih]

theorem seen_of_mem_latest (hx : x ∈ latest h) : Seen x h := by
  unfold latest at hx
  cases ho : observations h with
  | nil => simp [ho] at hx
  | cons o rest =>
    rw [ho] at hx
    exact ⟨o, by rw [ho]; exact List.mem_cons_self .., hx⟩

end Histories

/-! ## 2. Absences -/

variable [DecidableEq α]

/-- The event is an observation of `x`. -/
def Event.shows (x : α) : Event α τ → Bool
  | .observed members _ => x ∈ members
  | .dropped _ => false

/-- The event drops the entry of `x`. -/
def Event.drops (x : α) : Event α τ → Bool
  | .observed _ _ => false
  | .dropped members => x ∈ members

/-- The times of the observations since `x` was last seen, newest first. -/
def missed (x : α) (h : List (Event α τ)) : List τ :=
  ((observations h).takeWhile (x ∉ ·.1)).map (·.2)

/-- The entry of `x` was dropped since `x` was last seen. -/
def DroppedSince (x : α) (h : List (Event α τ)) : Prop :=
  ∃ e ∈ h.takeWhile (!·.shows x), e.drops x = true

/-- Who should be on the list: was there once, is not there now, and was not dropped since. -/
structure Tracked (x : α) (h : List (Event α τ)) : Prop where
  seen : Seen x h
  absent : x ∉ latest h
  kept : ¬ DroppedSince x h

section Absences

variable {x : α} {members : List α} {time : τ} {h : List (Event α τ)}

theorem missed_observed (hx : x ∉ members) :
    missed x (.observed members time :: h) = time :: missed x h := by
  simp [missed, observations, hx]

/-- A member that is there has not been missed. -/
theorem missed_of_mem_latest (hx : x ∈ latest h) : missed x h = [] := by
  unfold latest at hx
  unfold missed
  cases ho : observations h with
  | nil => rfl
  | cons o rest =>
    rw [ho] at hx
    have hin : x ∈ o.1 := hx
    simp [hin]

/-- A member that was seen and is gone has been missed by the last observation, at least. -/
theorem missed_ne_nil (hseen : Seen x h) (hx : x ∉ latest h) : missed x h ≠ [] := by
  obtain ⟨o, ho, -⟩ := hseen
  unfold latest at hx
  unfold missed
  cases hobs : observations h with
  | nil => rw [hobs] at ho; cases ho
  | cons o' rest =>
    rw [hobs] at hx
    have hnot : x ∉ o'.1 := hx
    simp [hnot]

/-- **One unbroken absence.**  The earliest of the missing observations has seen no more of `x`
than any that came after it. -/
theorem missed_getLast? (hlast : (missed x h).getLast? = some time) :
    ∃ later members earlier, h = later ++ .observed members time :: earlier ∧ x ∉ members ∧
      ∀ o ∈ observations later, x ∉ o.1 := by
  induction h with
  | nil => simp [missed, observations] at hlast
  | cons e h ih =>
    cases e with
    | dropped members =>
      obtain ⟨later, members', earlier, rfl, hx, hlater⟩ := ih hlast
      exact ⟨.dropped members :: later, members', earlier, rfl, hx, hlater⟩
    | observed members t =>
      by_cases hx : x ∈ members
      · simp [missed, observations, hx] at hlast
      · rw [missed_observed hx, List.getLast?_cons] at hlast
        cases hrest : (missed x h).getLast? with
        | none =>
          rw [hrest] at hlast
          cases hlast
          exact ⟨[], members, h, rfl, hx, by simp [observations]⟩
        | some t' =>
          rw [hrest] at hlast
          cases hlast
          obtain ⟨later, members', earlier, rfl, hx', hlater⟩ := ih hrest
          refine ⟨.observed members t :: later, members', earlier, rfl, hx', ?_⟩
          intro o ho
          rcases List.mem_cons.mp ho with rfl | ho
          · exact hx
          · exact hlater o ho

theorem not_droppedSince_observed (hx : x ∈ members) :
    ¬ DroppedSince x (.observed members time :: h) := by
  simp [DroppedSince, Event.shows, hx]

theorem droppedSince_observed (hx : x ∉ members) :
    DroppedSince x (.observed members time :: h) ↔ DroppedSince x h := by
  simp [DroppedSince, Event.shows, Event.drops, hx]

theorem droppedSince_dropped :
    DroppedSince x (.dropped members :: h) ↔ x ∈ members ∨ DroppedSince x h := by
  simp [DroppedSince, Event.shows, Event.drops]

end Absences

/-! ## 3. The list, from one event to the next -/

section Update

variable {x : α} {members : List α} {time : τ} {h : List (Event α τ)}

theorem tracked_dropped :
    Tracked x (.dropped members :: h) ↔ x ∉ members ∧ Tracked x h := by
  constructor
  · rintro ⟨hseen, habsent, hkept⟩
    rw [droppedSince_dropped, not_or] at hkept
    exact ⟨hkept.1, hseen, habsent, hkept.2⟩
  · rintro ⟨hx, hseen, habsent, hkept⟩
    exact ⟨hseen, habsent, fun hd => (droppedSince_dropped.mp hd).elim hx hkept⟩

/-- **Who is tracked after an observation**: the members it misses that were tracked or there
before.  The hypothesis says that no entry of a present member is ever dropped. -/
theorem tracked_observed (hpresent : x ∈ latest h → ¬ DroppedSince x h) :
    Tracked x (.observed members time :: h) ↔ x ∉ members ∧ (Tracked x h ∨ x ∈ latest h) := by
  constructor
  · rintro ⟨hseen, habsent, hkept⟩
    have hx : x ∉ members := habsent
    rw [droppedSince_observed hx] at hkept
    refine ⟨hx, ?_⟩
    by_cases hin : x ∈ latest h
    · exact Or.inr hin
    · exact Or.inl ⟨(seen_observed.mp hseen).resolve_left hx, hin, hkept⟩
  · rintro ⟨hx, hbefore⟩
    have hdropped : DroppedSince x (.observed members time :: h) ↔ DroppedSince x h :=
      droppedSince_observed hx
    rw [← hdropped] at hpresent
    rcases hbefore with ht | hin
    · exact ⟨seen_observed.mpr (Or.inr ht.seen), hx,
        fun hd => ht.kept ((droppedSince_observed hx).mp hd)⟩
    · exact ⟨seen_observed.mpr (Or.inr (seen_of_mem_latest hin)), hx, hpresent hin⟩

end Update

end Absence

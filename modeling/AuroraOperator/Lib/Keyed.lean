/-
# Lists with keys

A list whose entries have keys, no two the same, is a table that remembers the order of its rows.
Three changes keep it one: replacing an entry by another with the same key, taking an entry out,
and appending one with a new key.  For each there is the rule that it keeps the keys distinct,
and the rule that says what is in the list afterwards; positions do not show in either.

Where the entries stand for work to be done, the list weighs what they do together.
-/
import Mathlib.Algebra.BigOperators.Group.List.Basic
import Mathlib.Algebra.GroupWithZero.Nat
import Mathlib.Data.List.Nodup

namespace Keyed

variable {α κ : Type*} {key : α → κ} {l : List α} {i : Nat} {x y z : α}

/-- No two entries have the same key. -/
def Distinct (key : α → κ) (l : List α) : Prop := (l.map key).Nodup

/-- The entry at a position, what stands before it and what after. -/
theorem exists_split (hi : l[i]? = some x) :
    ∃ before after, l = before ++ x :: after ∧ (∀ y, l.set i y = before ++ y :: after) ∧
      l.eraseIdx i = before ++ after := by
  obtain ⟨hlt, rfl⟩ := List.getElem?_eq_some_iff.mp hi
  refine ⟨l.take i, l.drop (i + 1), ?_, fun y => ?_, List.eraseIdx_eq_take_drop_succ ..⟩
  · rw [← List.drop_eq_getElem_cons hlt, List.take_append_drop]
  · rw [List.set_eq_take_append_cons_drop, if_pos hlt]

/-- What is not at the position stays when the entry there is replaced ... -/
theorem mem_set_of_ne (hi : l[i]? = some x) (hz : z ∈ l) (hne : z ≠ x) : z ∈ l.set i y := by
  obtain ⟨before, after, rfl, hset, -⟩ := exists_split hi
  have hz : z ∈ before ∨ z ∈ after := by simpa [hne] using hz
  rw [hset, List.mem_append, List.mem_cons]
  rcases hz with hz | hz
  · exact Or.inl hz
  · exact Or.inr (Or.inr hz)

/-- ... or taken out. -/
theorem mem_eraseIdx_of_ne (hi : l[i]? = some x) (hz : z ∈ l) (hne : z ≠ x) :
    z ∈ l.eraseIdx i := by
  obtain ⟨before, after, rfl, -, herase⟩ := exists_split hi
  rw [herase]
  simpa [hne] using hz

theorem Distinct.eq_of_key (h : Distinct key l) (hx : x ∈ l) (hy : y ∈ l)
    (hkey : key x = key y) : x = y := List.inj_on_of_nodup_map h hx hy hkey

/-- The others have other keys. -/
theorem Distinct.split {before after : List α} (h : Distinct key (before ++ x :: after)) :
    (∀ z ∈ before ++ after, key z ≠ key x) ∧ Distinct key (before ++ after) := by
  have hperm : (before ++ x :: after).Perm (x :: (before ++ after)) := List.perm_middle
  obtain ⟨hx, hrest⟩ := List.nodup_cons.mp ((hperm.map key).nodup_iff.mp h)
  exact ⟨fun z hz hkey => hx (hkey ▸ List.mem_map_of_mem hz), hrest⟩

/-! ## 1. Replacing -/

theorem Distinct.set (h : Distinct key l) (hi : l[i]? = some x) (hkey : key y = key x) :
    Distinct key (l.set i y) := by
  obtain ⟨before, after, rfl, hset, -⟩ := exists_split hi
  unfold Distinct at h ⊢
  rw [hset, List.map_append, List.map_cons, hkey]
  rwa [List.map_append, List.map_cons] at h

theorem Distinct.mem_set (h : Distinct key l) (hi : l[i]? = some x) :
    z ∈ l.set i y ↔ z = y ∨ z ∈ l ∧ key z ≠ key x := by
  obtain ⟨before, after, rfl, hset, -⟩ := exists_split hi
  obtain ⟨hothers, -⟩ := h.split
  rw [hset]
  constructor
  · intro hz
    rcases List.mem_append.mp hz with hz | hz
    · exact Or.inr ⟨by simp [hz], hothers z (by simp [hz])⟩
    · rcases List.mem_cons.mp hz with rfl | hz
      · exact Or.inl rfl
      · exact Or.inr ⟨by simp [hz], hothers z (by simp [hz])⟩
  · rintro (rfl | ⟨hz, hne⟩)
    · simp
    · rcases List.mem_append.mp hz with hz | hz
      · simp [hz]
      · rcases List.mem_cons.mp hz with rfl | hz
        · exact absurd rfl hne
        · simp [hz]

/-! ## 2. Taking out -/

theorem Distinct.eraseIdx (h : Distinct key l) (hi : l[i]? = some x) :
    Distinct key (l.eraseIdx i) := by
  obtain ⟨before, after, rfl, -, herase⟩ := exists_split hi
  rw [herase]
  exact h.split.2

theorem Distinct.mem_eraseIdx (h : Distinct key l) (hi : l[i]? = some x) :
    z ∈ l.eraseIdx i ↔ z ∈ l ∧ key z ≠ key x := by
  obtain ⟨before, after, rfl, -, herase⟩ := exists_split hi
  rw [herase]
  constructor
  · intro hz
    refine ⟨?_, h.split.1 z hz⟩
    rcases List.mem_append.mp hz with hz | hz <;> simp [hz]
  · rintro ⟨hz, hne⟩
    rcases List.mem_append.mp hz with hz | hz
    · simp [hz]
    · rcases List.mem_cons.mp hz with rfl | hz
      · exact absurd rfl hne
      · simp [hz]

/-! ## 3. Appending -/

theorem Distinct.concat (h : Distinct key l) (hnew : ∀ x ∈ l, key x ≠ key y) :
    Distinct key (l ++ [y]) := by
  unfold Distinct at h ⊢
  rw [List.map_append, List.map_cons, List.map_nil, List.nodup_append]
  refine ⟨h, List.nodup_singleton _, ?_⟩
  intro k hk k' hk' heq
  obtain ⟨x, hx, rfl⟩ := List.mem_map.mp hk
  rw [List.mem_singleton.mp hk'] at heq
  exact hnew x hx heq

/-! ## 4. Weights -/

section Weigh

def weigh (weight : α → Nat) (l : List α) : Nat := (l.map weight).sum

@[simp] theorem weigh_append (weight : α → Nat) (l m : List α) :
    weigh weight (l ++ m) = weigh weight l + weigh weight m := by
  simp [weigh]

@[simp] theorem weigh_singleton (weight : α → Nat) (x : α) : weigh weight [x] = weight x := by
  simp [weigh]

theorem weigh_set (weight : α → Nat) (y : α) (hi : l[i]? = some x) :
    weigh weight (l.set i y) + weight x = weigh weight l + weight y := by
  obtain ⟨before, after, rfl, hset, -⟩ := exists_split hi
  rw [hset]
  simp only [weigh, List.map_append, List.map_cons, List.sum_append, List.sum_cons]
  omega

theorem weigh_eraseIdx (weight : α → Nat) (hi : l[i]? = some x) :
    weigh weight (l.eraseIdx i) + weight x = weigh weight l := by
  obtain ⟨before, after, rfl, -, herase⟩ := exists_split hi
  rw [herase]
  simp only [weigh, List.map_append, List.map_cons, List.sum_append, List.sum_cons]
  omega

end Weigh

end Keyed

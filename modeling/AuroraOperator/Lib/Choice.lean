/-
# Programs that make choices

A language can leave something open, such as the order of a loop over a map.  A program in such a
language is a `Choice α`: the set of the results it may have.

What is wanted is that the choices do not matter, `m = pure a`: the program has one result.  The
rules take such equations from the parts of a program to the whole (`bind_eq_pure`,
`foldlM_eq_pure`, `mapM_eq_pure`).
-/
import Mathlib.Data.Set.Basic

/-- The results a program may have. -/
@[ext] structure Choice (α : Type) where
  results : Set α

namespace Choice

variable {α β γ : Type}

instance : Monad Choice where
  pure a := ⟨{a}⟩
  bind m f := ⟨{b | ∃ a ∈ m.results, b ∈ (f a).results}⟩

theorem mem_pure {a b : α} : b ∈ (pure a : Choice α).results ↔ b = a := Iff.rfl

theorem mem_bind {m : Choice α} {f : α → Choice β} {b : β} :
    b ∈ (m >>= f).results ↔ ∃ a ∈ m.results, b ∈ (f a).results := Iff.rfl

theorem pure_bind (a : α) (f : α → Choice β) : (pure a >>= f) = f a := by
  ext b
  simp [mem_bind, mem_pure]

/-- **A choice that does not matter.** -/
theorem bind_eq_pure {m : Choice α} {f : α → Choice β} {b : β} (hm : m.results.Nonempty)
    (h : ∀ a ∈ m.results, f a = pure b) : (m >>= f) = pure b := by
  ext x
  rw [mem_bind]
  constructor
  · rintro ⟨a, ha, hx⟩
    rwa [h a ha] at hx
  · intro hx
    obtain ⟨a, ha⟩ := hm
    exact ⟨a, ha, by rwa [h a ha]⟩

theorem foldlM_eq_pure {f : β → α → Choice β} {g : β → α → β} {l : List α}
    (h : ∀ b, ∀ a ∈ l, f b a = pure (g b a)) (init : β) :
    l.foldlM f init = pure (l.foldl g init) := by
  induction l generalizing init with
  | nil => rfl
  | cons a l ih =>
    rw [List.foldlM_cons, h init a List.mem_cons_self, pure_bind, List.foldl_cons]
    exact ih (fun b a ha => h b a (List.mem_cons_of_mem _ ha)) _

theorem mapM_eq_pure {f : α → Choice β} {k : γ → α} {g : γ → β} {l : List γ}
    (h : ∀ c ∈ l, f (k c) = pure (g c)) : (l.map k).mapM f = pure (l.map g) := by
  have hloop : ∀ acc : List β,
      List.mapM.loop f (l.map k) acc = pure (acc.reverse ++ l.map g) := by
    induction l with
    | nil =>
      intro acc
      rw [List.map_nil, List.map_nil, List.append_nil]
      rfl
    | cons c l ih =>
      rw [List.forall_mem_cons] at h
      intro acc
      rw [List.map_cons, List.mapM.loop, h.1, pure_bind, ih h.2]
      simp
  exact hloop []

end Choice

/-
# A heap

Values that are passed around by reference, such as maps of Go, live in a heap: a reference is the
number of a cell, and whoever holds it sees what others write there.  What one needs to know of a
heap is which cells an operation leaves as they are: allocating leaves all of them, and writing
through a reference leaves the others.
-/
import Mathlib.Data.List.Basic

/-- Cells, numbered from zero. -/
structure Heap (α : Type*) where
  cells : List α := []

namespace Heap

variable {α : Type*} (h : Heap α)

abbrev Ref := Nat

def read (r : Ref) : Option α := h.cells[r]?

/-- A new cell, and the reference to it. -/
def alloc (x : α) : Heap α × Ref := (⟨h.cells ++ [x]⟩, h.cells.length)

def update (r : Ref) (f : α → α) : Heap α := ⟨h.cells.modify r f⟩

variable {h} {r s : Ref} {x y : α}

@[simp] theorem read_alloc_self : (h.alloc x).1.read (h.alloc x).2 = some x := by
  simp [read, alloc]

/-- What could be read before is read after. -/
theorem read_alloc (hr : h.read r = some y) : (h.alloc x).1.read r = some y := by
  have hlt : r < h.cells.length := (List.getElem?_eq_some_iff.mp hr).1
  rw [read, alloc, List.getElem?_append_left hlt]
  exact hr

/-- A new reference is none that could be read. -/
theorem alloc_ne (hr : h.read r = some y) : (h.alloc x).2 ≠ r := by
  have hlt : r < h.cells.length := (List.getElem?_eq_some_iff.mp hr).1
  exact fun heq => absurd hlt (by rw [← heq]; simp [alloc])

theorem read_update_self (f : α → α) : (h.update r f).read r = (h.read r).map f := by
  simp [read, update]

theorem read_update_ne (hrs : r ≠ s) (f : α → α) : (h.update s f).read r = h.read r := by
  simp [read, update, hrs.symm]

end Heap

/-
# Programs that keep a journal

Some programs must be right at every moment and not only at the end.  If the state keeps a
journal of the writes that went through, newest first, then every moment of a run can be read
off the journal: the view of the state after a part of the writes is that part, replayed.

`Journaled I` relates the state before and after a program.  It says that the writes account for
the whole change of the view, and that `I` holds after every one of them.  It is a preorder, so
it is followed through a program with the rules for `Within`.
-/
import AuroraOperator.Lib.Program

namespace Program

variable {σ ω β : Type}

/-- What the writes make of a view; the newest is the first of the list. -/
def replay (apply : ω → β → β) (view : β) (writes : List ω) : β := writes.foldr apply view

@[simp] theorem replay_nil (apply : ω → β → β) (view : β) : replay apply view [] = view := rfl

theorem replay_append (apply : ω → β → β) (view : β) (later earlier : List ω) :
    replay apply view (later ++ earlier) = replay apply (replay apply view earlier) later :=
  List.foldr_append ..

/-- What was written since accounts for the change of the view, and `I` holds all the way. -/
def Journaled (journal : σ → List ω) (view : σ → β) (apply : ω → β → β) (I : β → Prop)
    (s s' : σ) : Prop :=
  I (view s) → ∃ issued, journal s' = issued ++ journal s ∧
    view s' = replay apply (view s) issued ∧
    ∀ part, part <:+ issued → I (replay apply (view s) part)

section Journal

variable {journal : σ → List ω} {view : σ → β} {apply : ω → β → β} {I : β → Prop} {s s' : σ}

theorem journaled_of_same (hjournal : journal s' = journal s) (hview : view s' = view s) :
    Journaled journal view apply I s s' := by
  intro hI
  refine ⟨[], by rw [hjournal, List.nil_append], hview, fun part hpart => ?_⟩
  rw [List.suffix_nil.mp hpart]
  exact hI

/-- One write. -/
theorem journaled_write {write : ω} (hjournal : journal s' = write :: journal s)
    (hview : view s' = apply write (view s)) (hstep : I (view s) → I (view s')) :
    Journaled journal view apply I s s' := by
  intro hI
  refine ⟨[write], hjournal, hview, fun part hpart => ?_⟩
  rcases List.suffix_cons_iff.mp hpart with rfl | hnil
  · have hafter := hstep hI
    rw [hview] at hafter
    exact hafter
  · rw [List.suffix_nil.mp hnil]
    exact hI

theorem journaled_steps : Steps (Journaled journal view apply I) where
  refl _ := journaled_of_same rfl rfl
  trans := by
    intro s₁ s₂ s₃ h₁ h₂ hI
    obtain ⟨early, hjournal₁, hview₁, hall₁⟩ := h₁ hI
    obtain ⟨late, hjournal₂, hview₂, hall₂⟩ :=
      h₂ (by rw [hview₁]; exact hall₁ early List.suffix_rfl)
    refine ⟨late ++ early, by rw [hjournal₂, hjournal₁, List.append_assoc],
      by rw [hview₂, hview₁, replay_append], fun part hpart => ?_⟩
    -- a part of both is a part of the earlier writes, or all of them and some later ones
    rcases List.suffix_or_suffix_of_suffix hpart (List.suffix_append late early)
      with hpart | ⟨more, rfl⟩
    · exact hall₁ part hpart
    · obtain ⟨rest, hrest⟩ := hpart
      rw [← List.append_assoc] at hrest
      rw [replay_append, ← hview₁]
      exact hall₂ more ⟨rest, List.append_cancel_right hrest⟩

end Journal

end Program

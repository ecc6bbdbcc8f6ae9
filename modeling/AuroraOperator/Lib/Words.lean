/-
# Words

Some letters of a list are kept and the others are separators.  `words` are the maximal runs of
kept letters.  `squeeze` writes one separator for each run of them, which is how one usually
cleans up a name; with the separators at both ends off, what it writes is the words joined by a
separator (`trimmed_squeeze`).  So the clean name determines the words (`intercalate_inj`) and
nothing else, and a name that is clean already stays as it is (`Joined.join_words`).
-/
import Mathlib.Data.List.Basic
import Mathlib.Data.List.DropRight

namespace Words

variable {α : Type*}

/-! ## 1. Words -/

/-- The maximal runs of kept letters. -/
def words (keep : α → Bool) (l : List α) : List (List α) :=
  (l.splitOnP fun a => !keep a).filter (· ≠ [])

section Words

variable {keep : α → Bool}

theorem ne_nil_of_mem_words {l w : List α} (h : w ∈ words keep l) : w ≠ [] := by
  simpa using (List.mem_filter.mp h).2

theorem keep_of_mem_splitOnP {l w : List α} (h : w ∈ l.splitOnP fun a => !keep a) :
    ∀ a ∈ w, keep a = true := by
  induction l generalizing w with
  | nil =>
    rw [List.splitOnP_nil, List.mem_singleton] at h
    simp [h]
  | cons a l ih =>
    rw [List.splitOnP_cons_eq_if_modifyHead] at h
    split at h
    · rcases List.mem_cons.mp h with rfl | h
      · simp
      · exact ih h
    · rename_i ha
      cases hs : l.splitOnP fun a => !keep a with
      | nil => exact absurd hs (List.splitOnP_ne_nil _ _)
      | cons v vs =>
        rw [hs] at ih
        rw [hs, List.modifyHead_cons] at h
        rcases List.mem_cons.mp h with rfl | h
        · intro b hb
          rcases List.mem_cons.mp hb with rfl | hb
          · simpa using ha
          · exact ih (List.mem_cons_self ..) b hb
        · exact ih (List.mem_cons_of_mem v h)

theorem words_cons_sep {a : α} (ha : keep a = false) (l : List α) :
    words keep (a :: l) = words keep l := by
  simp [words, List.splitOnP_cons_eq_if_modifyHead, ha]

theorem words_cons_keep {a : α} (ha : keep a = true) {l v : List α} {vs : List (List α)}
    (hs : l.splitOnP (fun a => !keep a) = v :: vs) :
    words keep (a :: l) = (a :: v) :: vs.filter (· ≠ []) := by
  simp [words, List.splitOnP_cons_eq_if_modifyHead, ha, hs]

/-- A separator ends a word. -/
theorem words_append_sep {a : α} (ha : keep a = false) (l m : List α) :
    words keep (l ++ a :: m) = words keep l ++ words keep m := by
  have hsplit : (l ++ a :: m).splitOnP (fun a => !keep a) =
      l.splitOnP (fun a => !keep a) ++ m.splitOnP fun a => !keep a :=
    List.splitOnP_append_cons l m (by simp [ha])
  simp [words, hsplit]

@[simp] theorem words_nil : words keep [] = [] := by simp [words]

theorem words_of_keep {l : List α} (h : ∀ a ∈ l, keep a = true) (hne : l ≠ []) :
    words keep l = [l] := by
  have hsplit : l.splitOnP (fun a => !keep a) = [l] :=
    List.splitOnP_eq_singleton fun a ha => by simp [h a ha]
  simp [words, hsplit, hne]

theorem keep_of_mem_words {l w : List α} (h : w ∈ words keep l) : ∀ a ∈ w, keep a = true :=
  keep_of_mem_splitOnP (List.mem_filter.mp h).1

end Words

/-! ## 2. Joining -/

section Joining

variable {sep : α}

theorem intercalate_cons (w : List α) (ws : List (List α)) :
    [sep].intercalate (w :: ws) = w ++ ws.flatMap (sep :: ·) := by
  induction ws generalizing w with
  | nil => simp
  | cons v vs ih => rw [List.intercalate_cons_cons, ih v]; simp

theorem intercalate_concat {ws : List (List α)} (hws : ws ≠ []) (w : List α) :
    [sep].intercalate (ws ++ [w]) = [sep].intercalate ws ++ sep :: w := by
  obtain ⟨v, vs, rfl⟩ := List.exists_cons_of_ne_nil hws
  rw [List.cons_append, intercalate_cons, intercalate_cons]
  simp

/-- **The joined list determines the words.** -/
theorem intercalate_inj [DecidableEq α] {ws vs : List (List α)} (hws : ∀ w ∈ ws, sep ∉ w)
    (hvs : ∀ v ∈ vs, sep ∉ v) (hne : ws ≠ []) (hne' : vs ≠ []) :
    [sep].intercalate ws = [sep].intercalate vs ↔ ws = vs := by
  refine ⟨fun h => ?_, fun h => by rw [h]⟩
  rw [← List.splitOn_intercalate sep hws hne, h, List.splitOn_intercalate sep hvs hne']

end Joining

/-! ## 3. Squeezing -/

/-- One separator for each run of letters that are not kept; `after` says that one has just been
written. -/
def squeeze (keep : α → Bool) (sep : α) : Bool → List α → List α
  | _, [] => []
  | after, a :: l =>
    if keep a then a :: squeeze keep sep false l
    else if after then squeeze keep sep true l
    else sep :: squeeze keep sep true l

section Squeezing

variable {keep : α → Bool} {sep : α}

/-- Squeezing leaves the words as they are. -/
theorem splitOnP_squeeze (hsep : keep sep = false) (l : List α) :
    ∀ w ws, l.splitOnP (fun a => !keep a) = w :: ws →
      (∃ ws', (squeeze keep sep false l).splitOnP (fun a => !keep a) = w :: ws' ∧
        ws'.filter (· ≠ []) = ws.filter (· ≠ [])) ∧
        words keep (squeeze keep sep true l) = words keep l := by
  induction l with
  | nil =>
    intro w ws h
    exact ⟨⟨ws, h, rfl⟩, rfl⟩
  | cons a l ih =>
    intro w ws h
    rw [List.splitOnP_cons_eq_if_modifyHead] at h
    cases hs : l.splitOnP fun a => !keep a with
    | nil => exact absurd hs (List.splitOnP_ne_nil _ _)
    | cons v vs =>
      obtain ⟨⟨vs', hin, hfilter⟩, hbetween⟩ := ih v vs hs
      by_cases ha : keep a = true
      · rw [if_neg (by simp [ha]), hs, List.modifyHead_cons] at h
        obtain ⟨rfl, rfl⟩ := List.cons.inj h
        have hcons : ∀ after, squeeze keep sep after (a :: l) = a :: squeeze keep sep false l :=
          fun after => by simp [squeeze, ha]
        rw [hcons, hcons, words_cons_keep ha hs, words_cons_keep ha hin, hfilter]
        refine ⟨⟨vs', ?_, hfilter⟩, rfl⟩
        rw [List.splitOnP_cons_eq_if_modifyHead, if_neg (by simp [ha]), hin, List.modifyHead_cons]
      · rw [if_pos (by simpa using ha), hs] at h
        obtain ⟨rfl, rfl⟩ := List.cons.inj h
        have ha' : keep a = false := by simpa using ha
        have htrue : squeeze keep sep true (a :: l) = squeeze keep sep true l := by
          simp [squeeze, ha]
        have hfalse : squeeze keep sep false (a :: l) = sep :: squeeze keep sep true l := by
          simp [squeeze, ha]
        rw [htrue, hfalse, words_cons_sep ha']
        refine ⟨⟨(squeeze keep sep true l).splitOnP fun a => !keep a, ?_, ?_⟩, hbetween⟩
        · rw [List.splitOnP_cons_eq_if_modifyHead, if_pos (by simp [hsep])]
        · rw [← hs]
          exact hbetween

theorem words_squeeze (hsep : keep sep = false) (l : List α) :
    words keep (squeeze keep sep true l) = words keep l := by
  obtain ⟨w, ws, h⟩ := List.exists_cons_of_ne_nil (List.splitOnP_ne_nil (fun a => !keep a) l)
  exact (splitOnP_squeeze hsep l w ws h).2

/-- The front of a squeezed list is a squeezed list. -/
theorem take_squeeze (l : List α) (after : Bool) (n : Nat) :
    ∃ l', (squeeze keep sep after l).take n = squeeze keep sep after l' := by
  induction l generalizing after n with
  | nil => exact ⟨[], by simp [squeeze]⟩
  | cons a l ih =>
    cases n with
    | zero => exact ⟨[], by simp [squeeze]⟩
    | succ n =>
      by_cases ha : keep a = true
      · obtain ⟨l', hl'⟩ := ih false n
        exact ⟨a :: l', by simp [squeeze, ha, hl']⟩
      · cases after with
        | true =>
          obtain ⟨l', hl'⟩ := ih true (n + 1)
          exact ⟨l', by simpa [squeeze, ha] using hl'⟩
        | false =>
          obtain ⟨l', hl'⟩ := ih true n
          exact ⟨a :: l', by simp [squeeze, ha, hl']⟩

/-- There is nothing to squeeze in a list of kept letters and single separators. -/
theorem squeeze_eq_self {l : List α} (hletters : ∀ a ∈ l, keep a = true ∨ a = sep)
    (hsingle : ¬ [sep, sep] <:+: l) (after : Bool) (hafter : after = true → l.head? ≠ some sep) :
    squeeze keep sep after l = l := by
  induction l generalizing after with
  | nil => rfl
  | cons a l ih =>
    obtain ⟨ha, hl⟩ := List.forall_mem_cons.mp hletters
    have hrest : ¬ [sep, sep] <:+: l := fun h => hsingle (List.infix_cons h)
    by_cases hkeep : keep a = true
    · rw [squeeze, if_pos hkeep, ih hl hrest false (by simp)]
    · obtain rfl : a = sep := ha.resolve_left hkeep
      have hfalse : after = false := by
        cases after with
        | false => rfl
        | true => exact absurd rfl (hafter rfl)
      have hnext : l.head? ≠ some a := by
        intro hhead
        obtain ⟨m, rfl⟩ := List.head?_eq_some_iff.mp hhead
        exact hsingle ⟨[], m, rfl⟩
      rw [squeeze, if_neg hkeep, hfalse, if_neg (by simp), ih hl hrest true fun _ => hnext]

end Squeezing

/-! ## 4. Trimming -/

section Trimming

variable [DecidableEq α] {keep : α → Bool} {sep : α}

theorem rdropWhile_cons (a : α) (l : List α) :
    (a :: l).rdropWhile (· = sep) =
      if l.rdropWhile (· = sep) = [] ∧ a = sep then [] else a :: l.rdropWhile (· = sep) := by
  unfold List.rdropWhile
  rw [List.reverse_cons, List.dropWhile_append]
  by_cases hnil : l.reverse.dropWhile (· = sep) = []
  · by_cases ha : a = sep <;> simp [hnil, ha]
  · simp [hnil]

/-- The separators that squeezing leaves at the front are at most one. -/
theorem dropWhile_squeeze (hsep : keep sep = false) (after : Bool) (l : List α) :
    (squeeze keep sep after l).dropWhile (· = sep) = squeeze keep sep true l := by
  have hkept : ∀ {a}, keep a = true → a ≠ sep := by
    rintro a ha rfl
    rw [hsep] at ha
    cases ha
  induction l generalizing after with
  | nil => rfl
  | cons a l ih =>
    by_cases ha : keep a = true
    · simp [squeeze, ha, hkept ha]
    · cases after <;> simp [squeeze, ha, ih]

/-- What is left of a squeezed list when it stops after a run of kept letters: the run it is in,
and the words after it. -/
theorem rdropWhile_squeeze (hsep : keep sep = false) (l : List α) :
    ∀ w ws, l.splitOnP (fun a => !keep a) = w :: ws →
      (squeeze keep sep false l).rdropWhile (· = sep)
          = w ++ (ws.filter (· ≠ [])).flatMap (sep :: ·) ∧
        (squeeze keep sep true l).rdropWhile (· = sep) = [sep].intercalate (words keep l) := by
  have hkept : ∀ {a}, keep a = true → a ≠ sep := by
    rintro a ha rfl
    rw [hsep] at ha
    cases ha
  induction l with
  | nil =>
    intro w ws h
    cases h
    simp [squeeze, words]
  | cons a l ih =>
    intro w ws h
    rw [List.splitOnP_cons_eq_if_modifyHead] at h
    cases hs : l.splitOnP fun a => !keep a with
    | nil => exact absurd hs (List.splitOnP_ne_nil _ _)
    | cons v vs =>
      obtain ⟨hin, hbetween⟩ := ih v vs hs
      have hcons : ∀ after, squeeze keep sep after (a :: l)
          = if keep a then a :: squeeze keep sep false l
            else if after then squeeze keep sep true l else sep :: squeeze keep sep true l :=
        fun _ => rfl
      by_cases ha : keep a = true
      · -- one letter more of the run
        rw [if_neg (by simp [ha]), hs, List.modifyHead_cons] at h
        obtain ⟨rfl, rfl⟩ := List.cons.inj h
        have hrun : (a :: squeeze keep sep false l).rdropWhile (· = sep)
            = a :: v ++ (vs.filter (· ≠ [])).flatMap (sep :: ·) := by
          rw [rdropWhile_cons, if_neg (by simp [hkept ha]), hin]
          rfl
        rw [hcons, hcons, if_pos ha, if_pos ha, hrun, words_cons_keep ha hs, intercalate_cons]
        exact ⟨rfl, rfl⟩
      · -- a separator: the next word, if there is one, comes after it
        rw [if_pos (by simpa using ha), hs] at h
        obtain ⟨rfl, rfl⟩ := List.cons.inj h
        have hfilter : (v :: vs).filter (· ≠ []) = words keep l := by rw [words, hs]
        rw [hcons, hcons, if_neg ha, if_neg ha, words_cons_sep (by simpa using ha), hfilter]
        refine ⟨?_, hbetween⟩
        rw [if_neg (by simp), rdropWhile_cons, hbetween, List.nil_append]
        cases hw : words keep l with
        | nil => simp
        | cons u us =>
          have hu : u ≠ [] := ne_nil_of_mem_words (hw ▸ List.mem_cons_self ..)
          rw [intercalate_cons, if_neg (by simp [hu])]
          rfl

/-- **A squeezed list, trimmed, is its words joined by the separator.** -/
theorem trimmed_squeeze (hsep : keep sep = false) (after : Bool) (l : List α) :
    ((squeeze keep sep after l).dropWhile (· = sep)).rdropWhile (· = sep)
      = [sep].intercalate (words keep l) := by
  rw [dropWhile_squeeze hsep]
  obtain ⟨w, ws, h⟩ := List.exists_cons_of_ne_nil (List.splitOnP_ne_nil (fun a => !keep a) l)
  exact (rdropWhile_squeeze hsep l w ws h).2

/-- **The front of joined words**, with separators at its end off, is its own words joined. -/
theorem trimmed_take (hsep : keep sep = false) (l : List α) (n : Nat) :
    (([sep].intercalate (words keep l)).take n).rdropWhile (· = sep)
      = [sep].intercalate (words keep (([sep].intercalate (words keep l)).take n)) := by
  have hjoined : [sep].intercalate (words keep l)
      = (squeeze keep sep true l).rdropWhile (· = sep) := by
    rw [← trimmed_squeeze hsep true l, dropWhile_squeeze hsep]
  obtain ⟨l', hl'⟩ : ∃ l', ([sep].intercalate (words keep l)).take n = squeeze keep sep true l' := by
    rw [hjoined, List.prefix_iff_eq_take.mp (List.rdropWhile_prefix ..), List.take_take]
    exact take_squeeze l true _
  rw [hl', words_squeeze hsep, ← trimmed_squeeze hsep true l', dropWhile_squeeze hsep]

end Trimming

/-! ## 5. Clean lists -/

/-- Kept letters, with single separators between them. -/
structure Joined (keep : α → Bool) (sep : α) (l : List α) : Prop where
  letters : ∀ a ∈ l, keep a = true ∨ a = sep
  single : ¬ [sep, sep] <:+: l
  head : l.head? ≠ some sep
  last : l.getLast? ≠ some sep

section Clean

variable [DecidableEq α] {keep : α → Bool} {sep : α}

/-- Splitting at a separator that words do not contain gives non-empty words only, which is what
keeps separators apart and away from the ends. -/
theorem joined_intercalate (hsep : keep sep = false) {ws : List (List α)}
    (hws : ∀ w ∈ ws, w ≠ [] ∧ ∀ a ∈ w, keep a = true) : Joined keep sep ([sep].intercalate ws) := by
  have hletters : ∀ a ∈ [sep].intercalate ws, keep a = true ∨ a = sep := by
    cases ws with
    | nil => simp
    | cons w ws =>
      intro a ha
      rw [intercalate_cons, List.mem_append, List.mem_flatMap] at ha
      rcases ha with ha | ⟨v, hv, ha⟩
      · exact Or.inl ((hws w (List.mem_cons_self ..)).2 a ha)
      · rcases List.mem_cons.mp ha with rfl | ha
        · exact Or.inr rfl
        · exact Or.inl ((hws v (List.mem_cons_of_mem _ hv)).2 a ha)
  have hfree : ∀ w ∈ ws, sep ∉ w := by
    intro w hw hin
    have hkept := (hws w hw).2 sep hin
    rw [hsep] at hkept
    cases hkept
  -- wherever a separator stands, neither side of it begins or ends with an empty word
  have hsplit : ∀ l m, [sep].intercalate ws = l ++ sep :: m →
      [] ∉ l.splitOn sep ∧ [] ∉ m.splitOn sep := by
    intro l m heq
    have hne : ws ≠ [] := by
      rintro rfl
      simp at heq
    have hwords : ws = l.splitOn sep ++ m.splitOn sep := by
      rw [← List.splitOn_intercalate sep hfree hne, heq]
      exact List.splitOnP_append_cons l m (by simp)
    rw [← not_or, ← List.mem_append, ← hwords]
    exact fun hmem => (hws [] hmem).1 rfl
  refine ⟨hletters, ?_, ?_, ?_⟩
  · rintro ⟨l, m, heq⟩
    have := (hsplit l (sep :: m) (by rw [← heq]; simp)).2
    simp [List.splitOn, List.splitOnP_cons_eq_if_modifyHead] at this
  · intro hhead
    obtain ⟨m, heq⟩ := List.head?_eq_some_iff.mp hhead
    have := (hsplit [] m heq).1
    simp [List.splitOn] at this
  · intro hlast
    obtain ⟨l, heq⟩ := List.getLast?_eq_some_iff.mp hlast
    have := (hsplit l [] heq).2
    simp [List.splitOn] at this

/-- **A clean list is its words, joined.** -/
theorem Joined.join_words (hsep : keep sep = false) {l : List α} (h : Joined keep sep l) :
    [sep].intercalate (words keep l) = l := by
  have hfront : l.dropWhile (· = sep) = l := by
    rw [List.dropWhile_eq_self_iff]
    intro hpos heq
    exact h.head (by rw [List.head?_eq_getElem?, List.getElem?_eq_getElem hpos]; simpa using heq)
  have hback : l.rdropWhile (· = sep) = l := by
    rw [List.rdropWhile_eq_self_iff]
    intro hne heq
    exact h.last (by rw [List.getLast?_eq_getLast_of_ne_nil hne]; simpa using heq)
  rw [← trimmed_squeeze hsep false l, squeeze_eq_self h.letters h.single false (by simp), hfront,
    hback]

end Clean

end Words

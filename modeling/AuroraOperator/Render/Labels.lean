/-
# Which texts get the same label

`safeDNSLabel` is meant to give different texts different labels, and does not: capital letters,
dots and repeated hyphens are lost, and the hash that would tell two texts apart is only added
when a label is too long.

What is left of a text are its words, the runs of letters and digits.  A label is the words
joined by hyphens, or, when that is too long, the words of its front and the hash as one more
word (`safeDNSLabel_eq`).  So two labels are equal exactly when the texts are `Confusable`
(`safeDNSLabel_eq_iff`), which says it in terms of the texts.
-/
import AuroraOperator.Lib.Words
import AuroraOperator.Render.Names

namespace AuroraOperator

namespace Render

open Words

/-! ## 1. Words of a text -/

/-- The runs of letters and digits; without any, the label is `x`. -/
def wordsOrX (value : List Char) : List (List Char) :=
  if words allowedChar value = [] then [['x']] else words allowedChar value

def nameWords (raw : String) : List (List Char) := wordsOrX (raw.toList.map lowerChar)

/-- The words, joined by hyphens. -/
def spelled (raw : String) : List Char := ['-'].intercalate (nameWords raw)

/-- No hash is needed. -/
def Fits (raw : String) : Prop := (spelled raw).length ≤ maxDNSLabelLength

instance (raw : String) : Decidable (Fits raw) := by unfold Fits; infer_instance

def nameHash (raw : String) : List Char := (sha1Hex raw).take nameHashLength

/-- The words of a label that is too long to spell: those of its front, and the hash. -/
def shortenedWordsWith (digest : String → List Char) (raw : String) : List (List Char) :=
  wordsOrX ((spelled raw).take (maxDNSLabelLength - nameHashLength - 1)) ++
    [(digest raw).take nameHashLength]

def shortenedWords (raw : String) : List (List Char) := shortenedWordsWith sha1Hex raw

/-- Two texts that get one label: both are spelled out and have the same words, or one is
spelled as the other is shortened. -/
def Confusable (raw raw' : String) : Prop :=
  raw = raw' ∨ (Fits raw ∧ Fits raw' ∧ nameWords raw = nameWords raw') ∨
    (Fits raw ∧ ¬ Fits raw' ∧ nameWords raw = shortenedWords raw') ∨
    (¬ Fits raw ∧ Fits raw' ∧ shortenedWords raw = nameWords raw')

instance (raw raw' : String) : Decidable (Confusable raw raw') := by
  unfold Confusable; infer_instance

/-! ## 2. The label spells the words -/

theorem allowedChar_hyphen : allowedChar '-' = false := by decide

theorem hyphenate_eq (after : Bool) (value : List Char) :
    hyphenate after value = squeeze allowedChar '-' after value := by
  induction value generalizing after with
  | nil => rfl
  | cons c rest ih => simp only [hyphenate, squeeze, ih]

theorem wordsOrX_ne_nil (value : List Char) : wordsOrX value ≠ [] := by
  unfold wordsOrX
  split
  · simp
  · assumption

theorem hyphen_not_mem_wordsOrX {value w : List Char} (h : w ∈ wordsOrX value) : '-' ∉ w := by
  unfold wordsOrX at h
  split at h
  · rw [List.mem_singleton.mp h]
    decide
  · intro hin
    have hkept := keep_of_mem_words h _ hin
    rw [allowedChar_hyphen] at hkept
    cases hkept

/-- Joined words, with the source's default for none. -/
theorem joined_wordsOrX (value : List Char) :
    ['-'].intercalate (wordsOrX value)
      = if ['-'].intercalate (words allowedChar value) = [] then ['x']
        else ['-'].intercalate (words allowedChar value) := by
  unfold wordsOrX
  cases hw : words allowedChar value with
  | nil => rfl
  | cons w ws =>
    have hne : w ≠ [] := ne_nil_of_mem_words (hw ▸ List.mem_cons_self ..)
    rw [if_neg (by simp), if_neg (by rw [intercalate_cons]; simp [hne])]

theorem normalizeDNSLabel_eq (raw : String) : normalizeDNSLabel raw.toList = spelled raw := by
  have htrim := trimmed_squeeze allowedChar_hyphen false (raw.toList.map lowerChar)
  rw [spelled, nameWords, joined_wordsOrX, ← htrim, normalizeDNSLabel, hyphenate_eq]
  rfl

/-- The cut and trimmed front of a long label. -/
theorem trimmed_front {raw : String} (h : ¬ Fits raw) (n : Nat) :
    (if trimHyphensRight ((spelled raw).take n) = [] then ['x']
      else trimHyphensRight ((spelled raw).take n)) = ['-'].intercalate (wordsOrX ((spelled raw).take n)) := by
  have hwords : nameWords raw = words allowedChar (raw.toList.map lowerChar) := by
    unfold nameWords wordsOrX
    refine if_neg fun hnil => h ?_
    unfold Fits spelled nameWords wordsOrX
    rw [if_pos hnil]
    decide
  have htrim := trimmed_take allowedChar_hyphen (raw.toList.map lowerChar) n
  rw [← hwords] at htrim
  rw [joined_wordsOrX, show spelled raw = ['-'].intercalate (nameWords raw) from rfl, ← htrim]
  rfl

/-- The words that a label spells. -/
def labelWordsWith (digest : String → List Char) (raw : String) : List (List Char) :=
  if Fits raw then nameWords raw else shortenedWordsWith digest raw

def labelWords (raw : String) : List (List Char) := labelWordsWith sha1Hex raw

theorem safeDNSLabelWith_eq (digest : String → List Char) (parts : List String) :
    safeDNSLabelWith digest parts
      = String.ofList (['-'].intercalate (labelWordsWith digest (joinStrings parts "-"))) := by
  unfold safeDNSLabelWith
  dsimp only
  rw [normalizeDNSLabel_eq]
  by_cases h : Fits (joinStrings parts "-")
  · rw [if_pos (show _ ≤ _ from h), labelWordsWith, if_pos h]
    rfl
  · rw [if_neg (show ¬ _ ≤ _ from h), labelWordsWith, if_neg h, trimmed_front h,
      shortenedWordsWith, intercalate_concat (wordsOrX_ne_nil _)]

theorem safeDNSLabel_eq (parts : List String) :
    safeDNSLabel parts
      = String.ofList (['-'].intercalate (labelWords (joinStrings parts "-"))) :=
  safeDNSLabelWith_eq sha1Hex parts

/-! ## 3. Equal labels -/

theorem hyphen_not_mem_nameHash (raw : String) : '-' ∉ nameHash raw := by
  intro h
  obtain ⟨n, hn, heq⟩ := mem_sha1Hex (List.mem_of_mem_take h)
  interval_cases n <;> cases heq

theorem labelWords_ne_nil (raw : String) : labelWords raw ≠ [] := by
  unfold labelWords labelWordsWith
  split
  · exact wordsOrX_ne_nil _
  · simp [shortenedWordsWith]

theorem hyphen_not_mem_labelWords {raw : String} {w : List Char} (h : w ∈ labelWords raw) :
    '-' ∉ w := by
  unfold labelWords labelWordsWith at h
  split at h
  · exact hyphen_not_mem_wordsOrX h
  · rcases List.mem_append.mp h with h | h
    · exact hyphen_not_mem_wordsOrX h
    · rw [List.mem_singleton.mp h]
      exact hyphen_not_mem_nameHash raw

/-- **Equal labels.**  As long as the hash tells them apart, two texts get one label exactly when
they are confusable. -/
theorem safeDNSLabel_eq_iff {parts parts' : List String}
    (hhash : nameHash (joinStrings parts "-") = nameHash (joinStrings parts' "-") →
      joinStrings parts "-" = joinStrings parts' "-") :
    safeDNSLabel parts = safeDNSLabel parts' ↔
      Confusable (joinStrings parts "-") (joinStrings parts' "-") := by
  rw [safeDNSLabel_eq, safeDNSLabel_eq]
  generalize joinStrings parts "-" = raw at hhash ⊢
  generalize joinStrings parts' "-" = raw' at hhash ⊢
  rw [String.ofList_inj, intercalate_inj (fun _ => hyphen_not_mem_labelWords)
    (fun _ => hyphen_not_mem_labelWords) (labelWords_ne_nil raw) (labelWords_ne_nil raw')]
  unfold Confusable
  by_cases heq : raw = raw'
  · simp [heq]
  by_cases h : Fits raw <;> by_cases h' : Fits raw' <;> simp only [labelWords, labelWordsWith,
    shortenedWords, h, h', heq, if_true, if_false, not_true_eq_false, not_false_eq_true, true_and,
    false_and, false_or, or_false]
  -- both are shortened: the hashes are the last words
  refine iff_of_false (fun hwords => heq (hhash ?_)) (by simp)
  have hlast := congrArg List.getLast? hwords
  simpa [shortenedWordsWith, nameHash] using hlast

end Render

end AuroraOperator

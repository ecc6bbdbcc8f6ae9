/-
# `safeDNSLabel` makes DNS labels

The name of every object and the cluster label on it go through `safeDNSLabel`, so that Kubernetes
has to accept whatever it returns.  A label has between 1 and 63 bytes, is made of `a`-`z`, `0`-`9`
and hyphens, and here has no two hyphens in a row and none at its ends.

`Labels.lean` shows that what `safeDNSLabel` returns is a list of words joined by hyphens.  The words
are not empty and contain letters and digits only, the digest included, which is all that is used of
it; so the joined list is a label.  Conversely a label is its own words, joined, and short enough to
need no digest.  Hence `safeDNSLabel` leaves labels alone, and is the identity on its results
(`safeDNSLabel_label`).
-/
import AuroraOperator.Render.Labels

namespace AuroraOperator

namespace Render

open Words

/-! ## 1. Labels -/

structure IsDNSLabel (s : String) : Prop where
  nonempty : 1 ≤ s.utf8ByteSize
  short : s.utf8ByteSize ≤ 63
  chars : ∀ c ∈ s.toList, ('a' ≤ c ∧ c ≤ 'z') ∨ ('0' ≤ c ∧ c ≤ '9') ∨ c = '-'
  single : ¬ ['-', '-'] <:+: s.toList
  head : s.toList.head? ≠ some '-'
  last : s.toList.getLast? ≠ some '-'

theorem allowedChar_iff (c : Char) :
    allowedChar c = true ↔ ('a' ≤ c ∧ c ≤ 'z') ∨ ('0' ≤ c ∧ c ≤ '9') := by
  simp [allowedChar]

/-- Characters of a label take one byte and are lower-case. -/
theorem allowedChar_plain {c : Char} (h : allowedChar c = true ∨ c = '-') :
    c.utf8Size = 1 ∧ lowerChar c = c := by
  have hbounds : c.val ≤ 0x7f ∧ ¬ ('A'.val ≤ c.val ∧ c.val ≤ 'Z'.val) := by
    rcases h with h | rfl
    · rcases (allowedChar_iff c).mp h with ⟨h1, h2⟩ | ⟨h1, h2⟩ <;>
        simp only [Char.le_def, UInt32.le_iff_toNat_le] at h1 h2 ⊢ <;>
        simp at h1 h2 ⊢ <;> omega
    · decide
  obtain ⟨hascii, hupper⟩ := hbounds
  refine ⟨by simp [Char.utf8Size, hascii], ?_⟩
  have hnat : c.toNat ≤ 127 := by simpa [UInt32.le_iff_toNat_le] using hascii
  rw [lowerChar, if_neg (by omega), if_neg (by omega), Char.toLower]
  simp only [ge_iff_le]
  rw [dif_neg hupper]

theorem utf8ByteSize_ofList {l : List Char} (h : ∀ c ∈ l, c.utf8Size = 1) :
    (String.ofList l).utf8ByteSize = l.length := by
  induction l with
  | nil => simp
  | cons c l ih =>
    obtain ⟨hc, hl⟩ := List.forall_mem_cons.mp h
    rw [List.length_cons, ← ih hl, String.ofList_cons]
    simp [hc, Nat.add_comm]

/-- A label is a clean list of at most 63 characters. -/
theorem isDNSLabel_iff (l : List Char) :
    IsDNSLabel (String.ofList l) ↔ Joined allowedChar '-' l ∧ l ≠ [] ∧ l.length ≤ 63 := by
  have hsize : (∀ c ∈ l, allowedChar c = true ∨ c = '-') →
      (String.ofList l).utf8ByteSize = l.length :=
    fun h => utf8ByteSize_ofList fun c hc => (allowedChar_plain (h c hc)).1
  constructor
  · rintro ⟨hnonempty, hshort, hchars, hsingle, hhead, hlast⟩
    rw [String.toList_ofList] at hchars hsingle hhead hlast
    have hletters : ∀ c ∈ l, allowedChar c = true ∨ c = '-' := fun c hc => by
      rw [allowedChar_iff, or_assoc]
      exact hchars c hc
    rw [hsize hletters] at hnonempty hshort
    exact ⟨⟨hletters, hsingle, hhead, hlast⟩, List.ne_nil_of_length_pos hnonempty, hshort⟩
  · rintro ⟨⟨hletters, hsingle, hhead, hlast⟩, hne, hshort⟩
    constructor <;> simp only [String.toList_ofList, hsize hletters]
    · exact List.length_pos_of_ne_nil hne
    · exact hshort
    · intro c hc
      rw [← or_assoc, ← allowedChar_iff]
      exact hletters c hc
    · exact hsingle
    · exact hhead
    · exact hlast

/-! ## 2. What is returned is a label -/

/-- Forty lower-case hexadecimal characters. -/
structure IsHexDigest (digest : List Char) : Prop where
  length : digest.length = 40
  chars : ∀ c ∈ digest, c ∈ "0123456789abcdef".toList

theorem sha1Hex_isHexDigest (s : String) : IsHexDigest (sha1Hex s) where
  length := length_sha1Hex s
  chars c hc := by
    obtain ⟨n, hn, rfl⟩ := mem_sha1Hex hc
    interval_cases n <;> decide +kernel

theorem allowedChar_of_hex {c : Char} (h : c ∈ "0123456789abcdef".toList) :
    allowedChar c = true := by
  have hall : ∀ c ∈ "0123456789abcdef".toList, allowedChar c = true := by simp [allowedChar]
  exact hall c h

section Result

variable {digest : String → List Char}

theorem wordsOrX_spec {value w : List Char} (h : w ∈ wordsOrX value) :
    w ≠ [] ∧ ∀ c ∈ w, allowedChar c = true := by
  unfold wordsOrX at h
  split at h
  · rw [List.mem_singleton.mp h]
    simp [allowedChar]
  · exact ⟨ne_nil_of_mem_words h, keep_of_mem_words h⟩

theorem labelWordsWith_spec (hdigest : ∀ s, IsHexDigest (digest s)) {raw : String} {w : List Char}
    (h : w ∈ labelWordsWith digest raw) : w ≠ [] ∧ ∀ c ∈ w, allowedChar c = true := by
  unfold labelWordsWith at h
  split at h
  · exact wordsOrX_spec h
  · rcases List.mem_append.mp h with h | h
    · exact wordsOrX_spec h
    · rw [List.mem_singleton.mp h]
      refine ⟨?_, fun c hc => allowedChar_of_hex ((hdigest raw).chars c (List.mem_of_mem_take hc))⟩
      rw [ne_eq, List.take_eq_nil_iff]
      have hlength := (hdigest raw).length
      rintro (h | h)
      · cases h
      · rw [h] at hlength
        cases hlength

theorem labelWordsWith_ne_nil (raw : String) : labelWordsWith digest raw ≠ [] := by
  unfold labelWordsWith
  split
  · exact wordsOrX_ne_nil _
  · simp [shortenedWordsWith]

/-- The cut leaves room for the hyphen and the ten characters of the digest. -/
theorem length_shortened (hdigest : ∀ s, IsHexDigest (digest s)) {raw : String} (h : ¬ Fits raw) :
    (['-'].intercalate (labelWordsWith digest raw)).length ≤ 63 := by
  have hfront : (['-'].intercalate
      (wordsOrX ((spelled raw).take (maxDNSLabelLength - nameHashLength - 1)))).length ≤ 52 := by
    rw [← trimmed_front h]
    split
    · decide
    · rename_i hne
      calc (trimHyphensRight ((spelled raw).take 52)).length
          ≤ ((spelled raw).take 52).length := List.IsPrefix.length_le <| List.rdropWhile_prefix ..
        _ ≤ 52 := List.length_take_le ..
  have hhash : min nameHashLength 40 = 10 := rfl
  rw [labelWordsWith, if_neg h, shortenedWordsWith, intercalate_concat (wordsOrX_ne_nil _),
    List.length_append, List.length_cons, List.length_take, (hdigest raw).length, hhash]
  omega

theorem isDNSLabel_safeDNSLabelWith (hdigest : ∀ s, IsHexDigest (digest s)) (parts : List String) :
    IsDNSLabel (safeDNSLabelWith digest parts) := by
  rw [safeDNSLabelWith_eq, isDNSLabel_iff]
  generalize joinStrings parts "-" = raw
  refine ⟨joined_intercalate allowedChar_hyphen fun w => labelWordsWith_spec hdigest, ?_, ?_⟩
  · obtain ⟨w, ws, hws⟩ := List.exists_cons_of_ne_nil (@labelWordsWith_ne_nil digest raw)
    have hw : w ≠ [] := (labelWordsWith_spec hdigest (hws ▸ List.mem_cons_self ..)).1
    rw [hws, intercalate_cons]
    simp [hw]
  · by_cases h : Fits raw
    · rw [labelWordsWith, if_pos h]
      exact h
    · exact length_shortened hdigest h

/-! ## 3. Labels are left alone -/

/-- A label is its own words, joined. -/
theorem spelled_of_isDNSLabel {raw : String} (h : IsDNSLabel raw) :
    spelled raw = raw.toList := by
  rw [← String.ofList_toList (s := raw), isDNSLabel_iff] at h
  obtain ⟨hjoined, hne, -⟩ := h
  have hlower : raw.toList.map lowerChar = raw.toList := by
    conv_rhs => rw [← List.map_id raw.toList]
    exact List.map_congr_left fun c hc => (allowedChar_plain (hjoined.letters c hc)).2
  have hwords := hjoined.join_words allowedChar_hyphen
  have hsome : words allowedChar raw.toList ≠ [] := by
    intro hnil
    rw [hnil] at hwords
    exact hne hwords.symm
  rw [spelled, nameWords, hlower, wordsOrX, if_neg hsome, hwords]

theorem safeDNSLabelWith_of_isDNSLabel {parts : List String}
    (h : IsDNSLabel (joinStrings parts "-")) :
    safeDNSLabelWith digest parts = joinStrings parts "-" := by
  have hspelled := spelled_of_isDNSLabel h
  rw [safeDNSLabelWith_eq]
  generalize joinStrings parts "-" = raw at h hspelled ⊢
  have hfits : Fits raw := by
    rw [← String.ofList_toList (s := raw), isDNSLabel_iff] at h
    rw [Fits, hspelled]
    exact h.2.2
  rw [labelWordsWith, if_pos hfits]
  exact (congrArg String.ofList hspelled).trans String.ofList_toList

end Result

/-- **`safeDNSLabel` makes labels and is stable.**  Over any digest of forty hexadecimal characters
its result is a label; a joined input that is a label already is returned as it is; and so is a
result. -/
theorem safeDNSLabel_label (digest : String → List Char) (hdigest : ∀ s, IsHexDigest (digest s))
    (parts : List String) :
    IsDNSLabel (safeDNSLabelWith digest parts) ∧
      (IsDNSLabel (joinStrings parts "-") →
        safeDNSLabelWith digest parts = joinStrings parts "-") ∧
      safeDNSLabelWith digest [safeDNSLabelWith digest parts] = safeDNSLabelWith digest parts := by
  have hlabel := isDNSLabel_safeDNSLabelWith hdigest parts
  refine ⟨hlabel, safeDNSLabelWith_of_isDNSLabel, ?_⟩
  have hjoin : joinStrings [safeDNSLabelWith digest parts] "-" = safeDNSLabelWith digest parts := by
    simp [joinStrings]
  conv_rhs => rw [← hjoin]
  exact safeDNSLabelWith_of_isDNSLabel (hjoin.symm ▸ hlabel)

/-- With SHA-1 itself. -/
theorem aurora_label : IsDNSLabel (safeDNSLabel ["Aurora..Prod", "writer-1"]) ∧
    safeDNSLabel [safeDNSLabel ["Aurora..Prod", "writer-1"]] =
      safeDNSLabel ["Aurora..Prod", "writer-1"] := by
  have h := safeDNSLabel_label sha1Hex sha1Hex_isHexDigest ["Aurora..Prod", "writer-1"]
  exact ⟨h.1, h.2.2⟩

end Render

end AuroraOperator

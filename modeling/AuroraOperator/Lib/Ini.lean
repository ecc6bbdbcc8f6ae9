/-
# Texts in sections

The INI format, as far as programs agree on it.  A text has sections; a section has a title in
brackets on a line of its own, and lines; blank lines do not count.  A line is `key = value`, or
the name of an entry, an equals sign and options `key=value` with blanks between them.

The format has no quoting.  What has no blank in it, and no equals sign where a key is expected,
is read back as it was written (`read_render`, `readPair_pair`, `readEntry_entry`).
-/
import AuroraOperator.Lib.Words

namespace Ini

open Words

abbrev Line := List Char

/-- A section: its title and its lines. -/
structure Section where
  title : Line
  lines : List Line
  deriving DecidableEq

/-! ## 1. Sections -/

def header (title : Line) : Line := '[' :: title ++ [']']

def renderSection (s : Section) : List Char :=
  header s.title ++ '\n' :: s.lines.flatMap (· ++ ['\n']) ++ ['\n']

/-- A text ends with the end of its last line. -/
def finish (text : List Char) : List Char := text.rdropWhile (· = '\n') ++ ['\n']

def render (doc : List Section) : List Char := finish (doc.flatMap renderSection)

/-- The lines of a text that are not blank. -/
def lines (text : List Char) : List Line := words (· ≠ '\n') text

/-- The lines before the first title, and the sections. -/
def sections : List Line → List Line × List Section
  | [] => ([], [])
  | line :: rest =>
    let (body, found) := sections rest
    if line.head? = some '[' then ([], ⟨(line.drop 1).dropLast, body⟩ :: found)
    else (line :: body, found)

def read (text : List Char) : List Section := (sections (lines text)).2

/-- A line that can be a line of a section. -/
structure PlainLine (line : Line) : Prop where
  nonempty : line ≠ []
  newline : '\n' ∉ line
  bracket : line.head? ≠ some '['

structure PlainSection (s : Section) : Prop where
  title : '\n' ∉ s.title
  lines : ∀ line ∈ s.lines, PlainLine line

theorem lines_append (l m : List Char) : lines (l ++ '\n' :: m) = lines l ++ lines m :=
  words_append_sep (by simp) l m

theorem lines_of_plain {line : Line} (hne : line ≠ []) (h : '\n' ∉ line) : lines line = [line] :=
  words_of_keep (fun c hc => by simpa using fun (heq : c = '\n') => h (heq ▸ hc)) hne

/-- The newlines at the end do not matter. -/
theorem lines_finish (text : List Char) : lines (finish text) = lines text := by
  have hends : ∀ l : List Char, (∀ c ∈ l, c = '\n') → lines l = [] := by
    intro l hl
    induction l with
    | nil => exact words_nil
    | cons c l ih =>
      rw [List.forall_mem_cons] at hl
      exact (words_cons_sep (by simp [hl.1]) _).trans (ih hl.2)
  have hend : lines text =
      lines (text.rdropWhile (· = '\n') ++ text.rtakeWhile (· = '\n')) :=
    congrArg lines (List.rdropWhile_append_rtakeWhile ..).symm
  have hall : ∀ c ∈ text.rtakeWhile (· = '\n'), c = '\n' := fun c hc => by
    simpa using List.mem_rtakeWhile_imp hc
  rw [finish, lines_append, hend]
  cases hrest : text.rtakeWhile (· = '\n') with
  | nil => rw [hends [] (by simp), List.append_nil, List.append_nil]
  | cons c rest =>
    rw [hrest, List.forall_mem_cons] at hall
    rw [hall.1, lines_append, hends rest hall.2, hends [] (by simp)]

/-- A part that is not blank keeps what stands before it. -/
theorem finish_append (l : List Char) {m : List Char} (h : ∃ c ∈ m, c ≠ '\n') :
    finish (l ++ m) = l ++ finish m := by
  obtain ⟨c, hc, hne⟩ := h
  have hkept : ((m.reverse.dropWhile (· = '\n')).isEmpty) = false := by
    rw [List.isEmpty_eq_false_iff]
    intro hempty
    rw [List.dropWhile_eq_nil_iff] at hempty
    exact hne (by simpa using hempty c (List.mem_reverse.mpr hc))
  simp [finish, List.rdropWhile, List.dropWhile_append, hkept]

/-- The lines of a section that is followed by others. -/
theorem lines_renderSection (s : Section) (hs : PlainSection s) (rest : List Char) :
    lines (renderSection s ++ rest) = header s.title :: s.lines ++ lines rest := by
  have hbody : ∀ body : List Line, (∀ line ∈ body, PlainLine line) →
      lines (body.flatMap (· ++ ['\n']) ++ '\n' :: rest) = body ++ lines rest := by
    intro body hbody
    induction body with
    | nil => exact words_cons_sep (by simp) _
    | cons line body ih =>
      rw [List.forall_mem_cons] at hbody
      rw [List.flatMap_cons, List.append_assoc, List.append_assoc, List.singleton_append,
        lines_append, lines_of_plain hbody.1.nonempty hbody.1.newline, ih hbody.2]
      rfl
  have hheader : '\n' ∉ header s.title := by simpa [header] using hs.title
  have htext : renderSection s ++ rest =
      header s.title ++ '\n' :: (s.lines.flatMap (· ++ ['\n']) ++ '\n' :: rest) := by
    simp [renderSection]
  rw [htext, lines_append, lines_of_plain (by simp [header]) hheader, hbody s.lines hs.lines]
  rfl

theorem sections_append {body : List Line} (h : ∀ line ∈ body, PlainLine line)
    (rest : List Line) :
    sections (body ++ rest) = (body ++ (sections rest).1, (sections rest).2) := by
  induction body with
  | nil => rfl
  | cons line body ih =>
    rw [List.forall_mem_cons] at h
    rw [List.cons_append, sections, ih h.2]
    simp [h.1.bracket]

theorem sections_header (title : Line) (rest : List Line) :
    sections (header title :: rest) = ([], ⟨title, (sections rest).1⟩ :: (sections rest).2) := by
  simp [sections, header]

/-- **A text gives its sections back.** -/
theorem read_render {doc : List Section} (h : ∀ s ∈ doc, PlainSection s) :
    read (render doc) = doc := by
  have hlines : ∀ doc : List Section, (∀ s ∈ doc, PlainSection s) →
      sections (lines (doc.flatMap renderSection)) = ([], doc) := by
    intro doc h
    induction doc with
    | nil => simp [lines, sections]
    | cons s doc ih =>
      rw [List.forall_mem_cons] at h
      rw [List.flatMap_cons, lines_renderSection s h.1, List.cons_append, sections_header,
        sections_append h.1.lines, ih h.2, List.append_nil]
  rw [read, render, lines_finish, hlines doc h]

/-! ## 2. Lines -/

/-- A text without blanks, which are what separates words. -/
structure Plain (word : List Char) : Prop where
  nonempty : word ≠ []
  blank : ' ' ∉ word
  newline : '\n' ∉ word

/-- A text that can be a key: no equals sign either. -/
structure PlainKey (word : List Char) : Prop extends Plain word where
  equals : '=' ∉ word

/-- A text that can start a line: what starts with a bracket is a title. -/
structure PlainName (word : List Char) : Prop extends PlainKey word where
  bracket : word.head? ≠ some '['

theorem PlainName.of {word : List Char} (hne : word ≠ []) (h : ∀ c ∈ [' ', '\n', '='], c ∉ word)
    (hhead : word.head? ≠ some '[') : PlainName word :=
  ⟨⟨⟨hne, h _ (by simp), h _ (by simp)⟩, h _ (by simp)⟩, hhead⟩

def pair (key value : List Char) : Line := key ++ [' ', '=', ' '] ++ value

def option (kv : List Char × List Char) : List Char := kv.1 ++ '=' :: kv.2

def entry (name : List Char) (options : List (List Char × List Char)) : Line :=
  name ++ [' ', '='] ++ options.flatMap fun kv => ' ' :: option kv

def blankWords (line : Line) : List (List Char) := words (· ≠ ' ') line

def readPair (line : Line) : Option (List Char × List Char) :=
  match blankWords line with
  | [key, ['='], value] => some (key, value)
  | _ => none

def readOption (word : List Char) : Option (List Char × List Char) :=
  if '=' ∈ word then some (word.takeWhile (· ≠ '='), (word.dropWhile (· ≠ '=')).drop 1) else none

def readEntry (line : Line) : Option (List Char × List (List Char × List Char)) :=
  match blankWords line with
  | name :: ['='] :: options => (options.mapM readOption).map fun options => (name, options)
  | _ => none

theorem blankWords_append (l m : List Char) :
    blankWords (l ++ ' ' :: m) = blankWords l ++ blankWords m :=
  words_append_sep (by simp) l m

theorem blankWords_of_plain {word : List Char} (hne : word ≠ []) (h : ' ' ∉ word) :
    blankWords word = [word] :=
  words_of_keep (fun c hc => by simpa using fun (heq : c = ' ') => h (heq ▸ hc)) hne

theorem readPair_pair {key value : List Char} (hkey : Plain key) (hvalue : Plain value) :
    readPair (pair key value) = some (key, value) := by
  have hwords : blankWords (pair key value) = [key, ['='], value] := by
    have htext : pair key value = key ++ ' ' :: (['='] ++ ' ' :: value) := by simp [pair]
    rw [htext, blankWords_append, blankWords_append, blankWords_of_plain hkey.nonempty hkey.blank,
      blankWords_of_plain hvalue.nonempty hvalue.blank,
      blankWords_of_plain (by simp) (by simp)]
    rfl
  simp [readPair, hwords]

theorem plainLine_append {name : List Char} (hname : PlainName name) {rest : List Char}
    (hrest : '\n' ∉ rest) : PlainLine (name ++ rest) where
  nonempty := by simp [hname.nonempty]
  newline := by simp [hname.newline, hrest]
  bracket := by
    rw [List.head?_append_of_ne_nil _ hname.nonempty]
    exact hname.bracket

theorem plainLine_pair {key value : List Char} (hkey : PlainName key) (hvalue : Plain value) :
    PlainLine (pair key value) := by
  rw [pair, List.append_assoc]
  exact plainLine_append hkey (by simp [hvalue.newline])

theorem plainLine_entry {name : List Char} {options : List (List Char × List Char)}
    (hname : PlainName name) (hoptions : ∀ kv ∈ options, '\n' ∉ kv.1 ∧ '\n' ∉ kv.2) :
    PlainLine (entry name options) := by
  rw [entry, List.append_assoc]
  refine plainLine_append hname ?_
  simpa [option, not_or] using fun key value hkv => hoptions (key, value) hkv

theorem readOption_option {key : List Char} (hkey : '=' ∉ key) (value : List Char) :
    readOption (option (key, value)) = some (key, value) := by
  have hne : ∀ c ∈ key, (decide (c ≠ '=')) = true := fun c hc => by
    simpa using fun (heq : c = '=') => hkey (heq ▸ hc)
  rw [readOption, if_pos (by simp [option]), option, List.takeWhile_append_of_pos hne,
    List.dropWhile_append_of_pos hne]
  simp

theorem blankWords_entry {name : List Char} {options : List (List Char × List Char)}
    (hname : Plain name) (hoptions : ∀ kv ∈ options, ' ' ∉ kv.1 ∧ ' ' ∉ kv.2) :
    blankWords (entry name options) = name :: ['='] :: options.map option := by
  have hrest : ∀ l : List Char, blankWords (l ++ options.flatMap fun kv => ' ' :: option kv) =
      blankWords l ++ options.map option := by
    induction options with
    | nil => simp
    | cons kv options ih =>
      intro l
      rw [List.forall_mem_cons] at hoptions
      have hblank : ' ' ∉ option kv := by simp [option, hoptions.1]
      rw [List.flatMap_cons, List.cons_append, blankWords_append, ih hoptions.2,
        blankWords_of_plain (by simp [option]) hblank]
      rfl
  have htext : entry name options =
      (name ++ ' ' :: ['=']) ++ options.flatMap fun kv => ' ' :: option kv := by simp [entry]
  rw [htext, hrest, blankWords_append, blankWords_of_plain hname.nonempty hname.blank,
    blankWords_of_plain (by simp) (by simp)]
  rfl

theorem readEntry_entry {name : List Char} {options : List (List Char × List Char)}
    (hname : Plain name) (hkeys : ∀ kv ∈ options, PlainKey kv.1)
    (hvalues : ∀ kv ∈ options, ' ' ∉ kv.2) :
    readEntry (entry name options) = some (name, options) := by
  have hread : (options.map option).mapM readOption = some options := by
    induction options with
    | nil => rfl
    | cons kv options ih =>
      rw [List.forall_mem_cons] at hkeys hvalues
      rw [List.map_cons, List.mapM_cons, readOption_option hkeys.1.equals, ih hkeys.2 hvalues.2]
      rfl
  rw [readEntry, blankWords_entry hname fun kv hkv => ⟨(hkeys kv hkv).blank, hvalues kv hkv⟩]
  simp [hread]

/-! ## 3. Lines as they stand

Without a promise that the lines are plain, a section still has its lines: whatever stands between
its title and the blank line at its end.  A newline in a line makes two of it. -/

def bodyLines (text : List Char) : List Line := ((text.splitOn '\n').drop 1).dropLast.dropLast

theorem splitOn_append (l m : List Char) :
    (l ++ '\n' :: m).splitOn '\n' = l.splitOn '\n' ++ m.splitOn '\n' :=
  List.splitOnP_append_cons l m (by simp)

theorem splitOn_of_notMem {line : Line} (h : '\n' ∉ line) : line.splitOn '\n' = [line] :=
  List.splitOnP_eq_singleton fun c hc => by simpa using fun (heq : c = '\n') => h (heq ▸ hc)

theorem bodyLines_renderSection (s : Section) (htitle : '\n' ∉ s.title) :
    bodyLines (renderSection s) = s.lines.flatMap (·.splitOn '\n') := by
  have hbody : ∀ body : List Line, (body.flatMap (· ++ ['\n']) ++ ['\n']).splitOn '\n' =
      body.flatMap (·.splitOn '\n') ++ [[], []] := by
    intro body
    induction body with
    | nil => rfl
    | cons line body ih =>
      rw [List.flatMap_cons, List.append_assoc, List.append_assoc, List.singleton_append,
        splitOn_append, ih, List.flatMap_cons, List.append_assoc]
  have hheader : '\n' ∉ header s.title := by simpa [header] using htitle
  have htext : renderSection s =
      header s.title ++ '\n' :: (s.lines.flatMap (· ++ ['\n']) ++ ['\n']) := by
    simp [renderSection]
  rw [bodyLines, htext, splitOn_append, splitOn_of_notMem hheader, hbody]
  simp

theorem length_splitOn_pos (line : Line) : 0 < (line.splitOn '\n').length :=
  List.length_pos_iff.mpr (List.splitOnP_ne_nil _ _)

theorem two_le_length_splitOn {line : Line} (h : '\n' ∈ line) :
    2 ≤ (line.splitOn '\n').length := by
  obtain ⟨l, m, rfl⟩ := List.append_of_mem h
  have hl := length_splitOn_pos l
  have hm := length_splitOn_pos m
  rw [splitOn_append, List.length_append]
  omega

/-- **As many lines as were written** is what it takes that no line has a newline. -/
theorem length_flatMap_splitOn (lines : List Line) :
    (lines.flatMap (·.splitOn '\n')).length = lines.length ↔ ∀ line ∈ lines, '\n' ∉ line := by
  have hle : ∀ lines : List Line, lines.length ≤ (lines.flatMap (·.splitOn '\n')).length := by
    intro lines
    induction lines with
    | nil => simp
    | cons line lines ih =>
      have hpos := length_splitOn_pos line
      rw [List.flatMap_cons, List.length_append, List.length_cons]
      omega
  induction lines with
  | nil => simp
  | cons line lines ih =>
    rw [List.flatMap_cons, List.length_append, List.length_cons, List.forall_mem_cons]
    by_cases h : '\n' ∈ line
    · have htwo := two_le_length_splitOn h
      have hrest := hle lines
      exact ⟨fun heq => by omega, fun hall => absurd h hall.1⟩
    · have hone : (line.splitOn '\n').length = 1 := by rw [splitOn_of_notMem h, List.length_singleton]
      exact ⟨fun heq => ⟨h, ih.mp (by omega)⟩, fun hall => by have := ih.mpr hall.2; omega⟩

theorem flatMap_splitOn {lines : List Line} (h : ∀ line ∈ lines, '\n' ∉ line) :
    lines.flatMap (·.splitOn '\n') = lines := by
  induction lines with
  | nil => rfl
  | cons line lines ih =>
    rw [List.forall_mem_cons] at h
    rw [List.flatMap_cons, splitOn_of_notMem h.1, ih h.2, List.singleton_append]

/-- What ends with a letter keeps its newline. -/
theorem finish_keeps (l m : List Char) {c : Char} (hc : c ≠ '\n') :
    (l ++ [c, '\n']) <+: finish (l ++ c :: '\n' :: m) := by
  rw [finish_append l ⟨c, List.mem_cons_self, hc⟩]
  refine (List.prefix_append_right_inj l).mpr ?_
  by_cases hm : ∃ d ∈ m, d ≠ '\n'
  · have htail : finish (c :: '\n' :: m) = [c, '\n'] ++ finish m := finish_append [c, '\n'] hm
    rw [htail]
    exact List.prefix_append _ _
  · have hdrop : (c :: '\n' :: m).rdropWhile (· = '\n') = [c] := by
      have hends : ∀ d ∈ ('\n' :: m).reverse, decide (d = '\n') = true := by
        intro d hd
        rcases List.mem_cons.mp (List.mem_reverse.mp hd) with rfl | hd
        · rfl
        · simpa using fun hne => hm ⟨d, hd, hne⟩
      rw [List.rdropWhile, List.reverse_cons, List.dropWhile_append_of_pos hends]
      simp [hc]
    rw [finish, hdrop]
    exact List.prefix_rfl

/-- **A line of a section is a line of the text.** -/
theorem line_infix_render {doc : List Section} {s : Section} (hs : s ∈ doc) {line : Line} {c : Char}
    (hline : line ++ [c] ∈ s.lines) (hc : c ≠ '\n') :
    ('\n' :: (line ++ [c, '\n'])) <:+: render doc := by
  obtain ⟨before, after, rfl⟩ := List.append_of_mem hs
  obtain ⟨above, below, hlines⟩ := List.append_of_mem hline
  -- what stands right before the line: the end of the line above, or of the title
  obtain ⟨top, htop⟩ : ∃ top, header s.title ++ '\n' :: above.flatMap (· ++ ['\n']) =
      top ++ ['\n'] := by
    rcases List.eq_nil_or_concat above with rfl | ⟨rest, last, rfl⟩
    · exact ⟨header s.title, rfl⟩
    · exact ⟨header s.title ++ '\n' :: (rest.flatMap (· ++ ['\n']) ++ last), by simp⟩
  obtain ⟨m, hm⟩ : ∃ m, (before ++ s :: after).flatMap renderSection =
      (before.flatMap renderSection ++ (top ++ '\n' :: line)) ++ c :: '\n' :: m := by
    refine ⟨below.flatMap (· ++ ['\n']) ++ ['\n'] ++ after.flatMap renderSection, ?_⟩
    have hsection : renderSection s = top ++ ['\n'] ++ (line ++ [c] ++ ['\n']) ++
        (below.flatMap (· ++ ['\n']) ++ ['\n']) := by
      rw [← htop, renderSection, hlines]
      simp
    simp [hsection]
  rw [render, hm]
  refine List.IsInfix.trans ?_ (finish_keeps _ m hc).isInfix
  exact ⟨before.flatMap renderSection ++ top, [], by simp⟩

end Ini

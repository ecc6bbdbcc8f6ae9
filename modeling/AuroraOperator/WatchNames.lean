/-
# Which resources an operator watches

Several operators can share a namespace, each with its own list of resource names.  The list comes
from the flag `--watch-names`, which may be given more than once; every value is itself a
comma-separated list, and `*` stands for all resources.  `cmd/manager/main.go` collects the values
into one text, and the scheduler takes that text apart again, in another package.

In between a text is joined, normalised and split once for every value.  What survives of a value
are its *parts*, the trimmed and non-empty pieces between commas, and of a list of parts whether `*`
is among them and otherwise which ones they are (`Stands`).  Each of the two functions keeps just
that, so the collected text stands for the parts of all values together, and the scheduler watches
what it should (`watches_named`).
-/
import AuroraOperator.Go
import AuroraOperator.Lib.Words

namespace AuroraOperator

namespace Manager

/-! ## 1. The flag and the scheduler -/

/-- `strings.Split` at commas. -/
def splitComma (s : String) : List String := (s.toList.splitOn ',').map String.ofList

/-- The loop of `normalizeWatchNames`; `none` is its early return at `*`.  A name is in `seen`
exactly if it is in `names`. -/
def normalizeLoop (names : List String) : List String → Option (List String)
  | [] => some names
  | part :: parts =>
    let name := trimSpace part
    if name = "" then normalizeLoop names parts
    else if name = "*" then none
    else if name ∈ names then normalizeLoop names parts
    else normalizeLoop (names ++ [name]) parts

def normalizeWatchNames (value : String) : String :=
  match normalizeLoop [] (splitComma value) with
  | none => "*"
  | some names => joinStrings names ","

structure WatchNameListFlag where
  values : List String := []
  isSet : Bool := false

def WatchNameListFlag.string (f : WatchNameListFlag) : String :=
  normalizeWatchNames (joinStrings f.values ",")

def WatchNameListFlag.set (f : WatchNameListFlag) (value : String) : WatchNameListFlag :=
  let merged := normalizeWatchNames (joinStrings [f.string, value] ",")
  if merged = "" then { values := [], isSet := true }
  else { values := splitComma merged, isSet := true }

/-- `environment` is the variable `WATCH_NAMES`. -/
def effectiveWatchNames (environment flagValue : String) (flagSet : Bool) : String :=
  let names := normalizeWatchNames (if flagSet then flagValue else environment)
  if names ≠ "" then names else "*"

def matchesWatchNames (watchNames name : String) : Bool :=
  let watchNames := trimSpace watchNames
  if watchNames = "" || watchNames = "*" then true
  else (splitComma watchNames).any fun part => trimSpace part = "*" || trimSpace part = name

/-- The flag is given with these values, and the scheduler is asked about a resource. -/
def watches (environment : String) (values : List String) (name : String) : Bool :=
  matchesWatchNames
    (effectiveWatchNames environment (values.foldl WatchNameListFlag.set {}).string true) name

/-! ## 2. Parts -/

/-- The trimmed, non-empty pieces between commas. -/
def watchParts (value : String) : List String :=
  ((splitComma value).map trimSpace).filter (· ≠ "")

theorem mem_watchParts {value part : String} :
    part ∈ watchParts value ↔ part ≠ "" ∧ ∃ piece ∈ splitComma value, trimSpace piece = part := by
  rw [watchParts, List.mem_filter, List.mem_map, and_comm]
  simp

theorem splitComma_comma (s t : String) :
    splitComma (s ++ "," ++ t) = splitComma s ++ splitComma t := by
  have hsplit : (s.toList ++ ',' :: t.toList).splitOn ',' =
      s.toList.splitOn ',' ++ t.toList.splitOn ',' :=
    List.splitOnP_append_cons _ _ (by simp)
  simp [splitComma, hsplit]

theorem joinStrings_splitComma (s : String) : joinStrings (splitComma s) "," = s := by
  rw [← String.toList_inj, joinStrings, String.toList_intercalate, splitComma, List.map_map]
  simp [Function.comp_def, List.intercalate_splitOn]

theorem comma_not_mem {s piece : String} (h : piece ∈ splitComma s) : ',' ∉ piece.toList := by
  obtain ⟨l, hl, rfl⟩ := List.mem_map.mp h
  rw [String.toList_ofList]
  have hsplit : l ∈ s.toList.splitOnP fun c => !(c != ',') := by
    simpa [List.splitOn, bne] using hl
  intro hin
  have := Words.keep_of_mem_splitOnP hsplit ',' hin
  simp at this

/-- A part as it stands in a normalised text. -/
structure IsPart (part : String) : Prop where
  nonempty : part ≠ ""
  trimmed : trimSpace part = part
  comma : ',' ∉ part.toList

theorem isPart_of_mem {value part : String} (h : part ∈ watchParts value) : IsPart part := by
  obtain ⟨hne, piece, hpiece, rfl⟩ := mem_watchParts.mp h
  exact ⟨hne, trimSpace_idem piece, fun hin =>
    comma_not_mem hpiece (trimSpace_subset piece hin)⟩

theorem splitComma_joinStrings {names : List String} (hne : names ≠ [])
    (h : ∀ name ∈ names, ',' ∉ name.toList) : splitComma (joinStrings names ",") = names := by
  have hsplit : ([','].intercalate (names.map String.toList)).splitOn ',' =
      names.map String.toList :=
    List.splitOn_intercalate ',' (by simpa using h) (by simpa using hne)
  rw [splitComma, joinStrings, String.toList_intercalate]
  simp [hsplit, Function.comp_def]

@[simp] theorem watchParts_empty : watchParts "" = [] := by decide +kernel

/-- Joined parts have just these parts. -/
theorem watchParts_joinStrings {names : List String} (h : ∀ name ∈ names, IsPart name) :
    watchParts (joinStrings names ",") = names := by
  by_cases hne : names = []
  · rw [hne]
    exact watchParts_empty
  · rw [watchParts, splitComma_joinStrings hne fun name hname => (h name hname).comma,
      List.map_congr_left fun name hname => (h name hname).trimmed, List.map_id',
      List.filter_eq_self]
    exact fun name hname => by simpa using (h name hname).nonempty

theorem watchParts_comma (s t : String) :
    watchParts (joinStrings [s, t] ",") = watchParts s ++ watchParts t := by
  rw [show joinStrings [s, t] "," = s ++ "," ++ t from rfl, watchParts, splitComma_comma]
  simp [watchParts]

/-! ## 3. Trimming the whole text -/

section Trimming

/-- `strings.TrimSpace` on characters. -/
def trimChars (l : List Char) : List Char := (l.dropWhile isSpace).rdropWhile isSpace

theorem trimChars_cons {a : Char} (ha : isSpace a = true) (l : List Char) :
    trimChars (a :: l) = trimChars l := by
  rw [trimChars, List.dropWhile_cons_of_pos ha, trimChars]

theorem trimChars_append {l blanks : List Char} (h : ∀ a ∈ blanks, isSpace a = true) :
    trimChars (l ++ blanks) = trimChars l := by
  have hback : ∀ m : List Char, (m ++ blanks).rdropWhile isSpace = m.rdropWhile isSpace := by
    intro m
    rw [List.rdropWhile, List.reverse_append,
      List.dropWhile_append_of_pos fun a ha => h a (List.mem_reverse.mp ha), List.rdropWhile]
  rw [trimChars, List.dropWhile_append]
  by_cases hnil : l.dropWhile isSpace = []
  · have hblanks : blanks.dropWhile isSpace = [] := List.dropWhile_eq_nil_iff.mpr h
    simp [hnil, hblanks, trimChars]
  · rw [if_neg (by simpa using hnil), hback, trimChars]

theorem isSpace_comma : isSpace ',' = false := by decide

/-- Between commas and trimmed. -/
def trimmedPieces (l : List Char) : List (List Char) := (l.splitOn ',').map trimChars

theorem trimmedPieces_dropWhile (l : List Char) :
    trimmedPieces (l.dropWhile isSpace) = trimmedPieces l := by
  induction l with
  | nil => rfl
  | cons a l ih =>
    by_cases ha : isSpace a = true
    · have hcomma : a ≠ ',' := by
        rintro rfl
        rw [isSpace_comma] at ha
        cases ha
      obtain ⟨v, vs, hsplit⟩ := List.exists_cons_of_ne_nil (List.splitOnP_ne_nil (· == ',') l)
      have hcons : (a :: l).splitOn ',' = (a :: v) :: vs := by
        rw [List.splitOn, List.splitOnP_cons_eq_if_modifyHead, if_neg (by simpa using hcomma), hsplit,
          List.modifyHead_cons]
      rw [List.dropWhile_cons_of_pos ha, ih, trimmedPieces, trimmedPieces, hcons, List.splitOn, hsplit,
        List.map_cons, List.map_cons, trimChars_cons ha]
    · rw [List.dropWhile_cons_of_neg ha]

theorem trimmedPieces_append (l : List Char) {blanks : List Char}
    (h : ∀ a ∈ blanks, isSpace a = true) : trimmedPieces (l ++ blanks) = trimmedPieces l := by
  induction hn : l.length using Nat.strongRecOn generalizing l with
  | _ n ih =>
    by_cases hcomma : ',' ∈ l
    · -- the blanks come after the last comma, and so after the first
      obtain ⟨s, t, rfl⟩ := List.append_of_mem hcomma
      have hsplit : ∀ m : List Char,
          trimmedPieces (s ++ ',' :: m) = trimmedPieces s ++ trimmedPieces m := by
        intro m
        rw [trimmedPieces, List.splitOn, List.splitOnP_append_cons s m (by simp), List.map_append]
        rfl
      rw [List.append_assoc, List.cons_append, hsplit, hsplit,
        ih t.length (by rw [← hn]; simp; omega) t rfl]
    · have hwhole : ∀ m : List Char, ',' ∉ m → trimmedPieces m = [trimChars m] := by
        intro m hm
        rw [trimmedPieces, List.splitOn,
          List.splitOnP_eq_singleton fun a ha => by simpa using fun heq : a = ',' => hm (heq ▸ ha)]
        rfl
      have hblanks : ',' ∉ blanks := by
        intro hin
        have hspace := h ',' hin
        rw [isSpace_comma] at hspace
        cases hspace
      rw [hwhole l hcomma, hwhole _ (by simp [hcomma, hblanks]), trimChars_append h]

theorem trimmedPieces_trimChars (l : List Char) :
    trimmedPieces (trimChars l) = trimmedPieces l := by
  have hdecompose : ∀ m : List Char,
      m = m.rdropWhile isSpace ++ (m.reverse.takeWhile isSpace).reverse := by
    intro m
    rw [List.rdropWhile, ← List.reverse_append, List.takeWhile_append_dropWhile, List.reverse_reverse]
  rw [trimChars, ← trimmedPieces_dropWhile l]
  conv_rhs => rw [hdecompose (l.dropWhile isSpace)]
  refine (trimmedPieces_append _ fun a ha => ?_).symm
  exact List.mem_takeWhile_imp (List.mem_reverse.mp ha)

theorem map_trimSpace_splitComma (s : String) :
    (splitComma s).map trimSpace = (trimmedPieces s.toList).map String.ofList := by
  simp [splitComma, trimmedPieces, trimSpace_eq_rdropWhile, trimChars, Function.comp_def]

/-- Blanks around a text are blanks around its first and its last piece. -/
theorem watchParts_trimSpace (s : String) : watchParts (trimSpace s) = watchParts s := by
  have hchars : (trimSpace s).toList = trimChars s.toList := by
    rw [trimSpace_eq_rdropWhile, String.toList_ofList, trimChars]
  rw [watchParts, map_trimSpace_splitComma, hchars, trimmedPieces_trimChars,
    ← map_trimSpace_splitComma, watchParts]

end Trimming

/-! ## 4. What a text stands for -/

/-- The parts of the text are those of the list, unless `*` is among them and absorbs the others. -/
def Stands (text : String) (parts : List String) : Prop :=
  ∀ part, part ∈ watchParts text ↔
    ("*" ∈ parts ∧ part = "*") ∨ ("*" ∉ parts ∧ part ∈ parts)

theorem normalizeLoop_spec (names pieces : List String) :
    (normalizeLoop names pieces = none ↔ "*" ∈ pieces.map trimSpace) ∧
      ∀ out, normalizeLoop names pieces = some out →
        ∀ part, part ∈ out ↔ part ∈ names ∨ (part ≠ "" ∧ part ∈ pieces.map trimSpace) := by
  induction pieces generalizing names with
  | nil => simp [normalizeLoop]
  | cons piece pieces ih =>
    simp only [normalizeLoop, List.map_cons, List.mem_cons]
    generalize trimSpace piece = name
    by_cases hempty : name = ""
    · subst hempty
      simp only [if_true]
      refine ⟨(ih names).1.trans (by simp), fun out hout part => ?_⟩
      rw [(ih names).2 out hout]
      grind
    · rw [if_neg hempty]
      by_cases hstar : name = "*"
      · simp [hstar]
      · rw [if_neg hstar]
        have hne : ¬ "*" = name := fun h => hstar h.symm
        simp only [hne, false_or]
        split
        · rename_i hseen
          refine ⟨(ih names).1, fun out hout part => ?_⟩
          rw [(ih names).2 out hout]
          grind
        · refine ⟨(ih _).1, fun out hout part => ?_⟩
          rw [(ih _).2 out hout]
          grind

/-- A normalised text is `*`, or its parts joined. -/
theorem normalizeWatchNames_cases (value : String) :
    ("*" ∈ watchParts value ∧ normalizeWatchNames value = "*") ∨
      ("*" ∉ watchParts value ∧ ∃ names, normalizeWatchNames value = joinStrings names "," ∧
        ∀ part, part ∈ names ↔ part ∈ watchParts value) := by
  obtain ⟨hnone, hsome⟩ := normalizeLoop_spec [] (splitComma value)
  have hmem : ∀ part, part ∈ watchParts value ↔
      part ≠ "" ∧ part ∈ (splitComma value).map trimSpace := by
    intro part
    rw [watchParts, List.mem_filter, and_comm]
    simp
  unfold normalizeWatchNames
  cases hloop : normalizeLoop [] (splitComma value) with
  | none => exact Or.inl ⟨(hmem "*").mpr ⟨by decide, hnone.mp hloop⟩, rfl⟩
  | some names =>
    refine Or.inr ⟨fun hstar => ?_, names, rfl, fun part => ?_⟩
    · rw [hnone.mpr ((hmem "*").mp hstar).2] at hloop
      cases hloop
    · rw [hsome names hloop, hmem]
      simp

theorem watchParts_star : watchParts "*" = ["*"] := by decide +kernel

theorem stands_normalizeWatchNames (value : String) :
    Stands (normalizeWatchNames value) (watchParts value) := by
  intro part
  rcases normalizeWatchNames_cases value with ⟨hstar, heq⟩ | ⟨hstar, names, heq, hnames⟩
  · simp [heq, watchParts_star, hstar]
  · rw [heq, watchParts_joinStrings fun name hname => isPart_of_mem ((hnames name).mp hname), hnames]
    simp [hstar]

theorem normalizeWatchNames_eq_empty {value : String} (h : watchParts value = []) :
    normalizeWatchNames value = "" := by
  rcases normalizeWatchNames_cases value with ⟨hstar, -⟩ | ⟨-, names, heq, hnames⟩
  · rw [h] at hstar
    cases hstar
  · have hnil : names = [] := List.eq_nil_iff_forall_not_mem.mpr fun name hname => by
      rw [hnames, h] at hname
      cases hname
    rw [heq, hnil]
    rfl

section Merging

variable {text : String} {parts : List String}

theorem Stands.normalize (h : Stands text parts) : Stands (normalizeWatchNames text) parts := by
  intro part
  rw [stands_normalizeWatchNames, h part, h "*"]
  by_cases hstar : "*" ∈ parts <;> simp [hstar]

/-- One more value. -/
theorem Stands.merge (h : Stands text parts) (value : String) :
    Stands (normalizeWatchNames (joinStrings [text, value] ",")) (parts ++ watchParts value) := by
  intro part
  rw [stands_normalizeWatchNames, watchParts_comma]
  simp only [List.mem_append, h part, h "*"]
  by_cases hstar : "*" ∈ parts <;> by_cases hvalue : "*" ∈ watchParts value <;> simp [hstar, hvalue]

theorem string_set (f : WatchNameListFlag) (value : String) :
    (f.set value).string =
      normalizeWatchNames (normalizeWatchNames (joinStrings [f.string, value] ",")) := by
  unfold WatchNameListFlag.set
  dsimp only
  split
  · rename_i hempty
    rw [hempty]
    rfl
  · rw [WatchNameListFlag.string, joinStrings_splitComma]

/-- The collected text stands for the parts of all values. -/
theorem stands_string (values : List String) (f : WatchNameListFlag) (h : Stands f.string parts) :
    Stands (values.foldl WatchNameListFlag.set f).string (parts ++ values.flatMap watchParts) := by
  induction values generalizing f parts with
  | nil => simpa using h
  | cons value values ih =>
    have hset : Stands (f.set value).string (parts ++ watchParts value) := by
      rw [string_set]
      exact (h.merge value).normalize
    simpa using ih (f.set value) hset

end Merging

/-! ## 5. What the scheduler makes of it -/

theorem matchesWatchNames_iff (watchNames : String) {name : String} (hname : name ≠ "") :
    matchesWatchNames watchNames name = true ↔
      trimSpace watchNames = "" ∨ "*" ∈ watchParts watchNames ∨ name ∈ watchParts watchNames := by
  have hparts : ∀ part ≠ "", part ∈ watchParts watchNames ↔
      ∃ piece ∈ splitComma (trimSpace watchNames), trimSpace piece = part := by
    intro part hpart
    rw [← watchParts_trimSpace, mem_watchParts]
    exact and_iff_right hpart
  unfold matchesWatchNames
  dsimp only
  by_cases hempty : trimSpace watchNames = ""
  · simp [hempty]
  by_cases hstar : trimSpace watchNames = "*"
  · have : "*" ∈ watchParts watchNames := by
      rw [← watchParts_trimSpace, hstar, watchParts_star]
      exact List.mem_singleton_self _
    simp [hstar, this]
  rw [if_neg (by simp [hempty, hstar]), hparts "*" (by decide), hparts name hname]
  simp only [List.any_eq_true, Bool.or_eq_true, decide_eq_true_eq, hempty, false_or, and_or_left,
    exists_or]

/-- The text handed to the scheduler, for a flag that was given. -/
theorem matches_effective {text name : String} {parts : List String} (environment : String)
    (h : Stands text parts) (hname : name ≠ "") :
    matchesWatchNames (effectiveWatchNames environment text true) name = true ↔
      "*" ∈ parts ∨ name ∈ parts ∨ parts = [] := by
  have hstands := h.normalize
  simp only [effectiveWatchNames, if_true]
  cases parts with
  | nil =>
    -- no part at all: the scheduler gets `*`
    have hnone : watchParts text = [] := List.eq_nil_iff_forall_not_mem.mpr fun part hpart => by
      simpa using (h part).mp hpart
    rw [normalizeWatchNames_eq_empty hnone, if_neg (by simp), matchesWatchNames_iff _ hname,
      watchParts_star]
    simp
  | cons first rest =>
    obtain ⟨part, hpart⟩ : ∃ part, part ∈ watchParts (normalizeWatchNames text) := by
      by_cases hstar : "*" ∈ first :: rest
      · exact ⟨"*", (hstands "*").mpr (by simp [hstar])⟩
      · exact ⟨first, (hstands first).mpr (by simp [hstar])⟩
    have hne : normalizeWatchNames text ≠ "" := by
      intro hempty
      rw [hempty, watchParts_empty] at hpart
      cases hpart
    have htrim : trimSpace (normalizeWatchNames text) ≠ "" := by
      intro hempty
      rw [← watchParts_trimSpace, hempty, watchParts_empty] at hpart
      cases hpart
    rw [if_pos hne, matchesWatchNames_iff _ hname, hstands, hstands]
    by_cases hstar : "*" ∈ first :: rest <;> simp [hstar, htrim]

theorem watches_iff (environment : String) (values : List String) {name : String}
    (hname : name ≠ "") :
    watches environment values name = true ↔
      "*" ∈ values.flatMap watchParts ∨ name ∈ values.flatMap watchParts ∨
        values.flatMap watchParts = [] := by
  have hempty : Stands ({} : WatchNameListFlag).string [] := by
    intro part
    rw [show ({} : WatchNameListFlag).string = "" from rfl, watchParts_empty]
    simp
  exact matches_effective environment (stands_string values {} hempty) hname

/-- Only which parts there are counts. -/
theorem watches_congr (environment : String) {values values' : List String} {name : String}
    (hname : name ≠ "")
    (h : ∀ part, part ∈ values.flatMap watchParts ↔ part ∈ values'.flatMap watchParts) :
    watches environment values name = watches environment values' name := by
  rw [Bool.eq_iff_iff, watches_iff environment values hname, watches_iff environment values' hname,
    h, h, List.eq_nil_iff_forall_not_mem, List.eq_nil_iff_forall_not_mem]
  simp only [h]

theorem watchParts_group (group : List String) :
    watchParts (joinStrings group ",") = group.flatMap watchParts := by
  induction group with
  | nil => exact watchParts_empty
  | cons value rest ih =>
    cases rest with
    | nil => simp [joinStrings]
    | cons next rest =>
      have hjoin : joinStrings (value :: next :: rest) "," =
          joinStrings [value, joinStrings (next :: rest) ","] "," := by
        rw [← String.toList_inj]
        simp [joinStrings]
      rw [hjoin, watchParts_comma, ih]
      rfl

/-- **The watch list selects exactly the named resources.**  After any sequence of values a resource
is watched if and only if a trimmed piece of some value is `*` or its name, or no value has a piece
that is not blank.  The order of the values, their repetition, and whether they are given one by one
or several in one value, make no difference. -/
theorem watches_named (environment : String) (values : List String) (name : String)
    (hname : name ≠ "") :
    (watches environment values name = true ↔
        (∃ value ∈ values, ∃ piece ∈ splitComma value,
            trimSpace piece = "*" ∨ trimSpace piece = name) ∨
          ∀ value ∈ values, ∀ piece ∈ splitComma value, trimSpace piece = "") ∧
      (∀ values' : List String, (∀ value, value ∈ values ↔ value ∈ values') →
        watches environment values' name = watches environment values name) ∧
      ∀ groups : List (List String), groups.flatten = values →
        watches environment (groups.map (joinStrings · ",")) name =
          watches environment values name := by
  refine ⟨?_, fun values' hsame => ?_, fun groups hgroups => ?_⟩
  · have hpart : ∀ part ≠ "", part ∈ values.flatMap watchParts ↔
        ∃ value ∈ values, ∃ piece ∈ splitComma value, trimSpace piece = part := by
      intro part hne
      simp only [List.mem_flatMap, mem_watchParts, hne, ne_eq, not_false_eq_true, true_and]
    have hblank : values.flatMap watchParts = [] ↔
        ∀ value ∈ values, ∀ piece ∈ splitComma value, trimSpace piece = "" := by
      simp [watchParts]
    rw [watches_iff environment values hname, hpart "*" (by decide), hpart name hname, hblank,
      ← or_assoc]
    simp only [and_or_left, exists_or]
  · refine watches_congr environment hname fun part => ?_
    simp only [List.mem_flatMap, hsame]
  · refine watches_congr environment hname fun part => ?_
    rw [← hgroups, List.flatMap_map, List.flatMap_congr fun group _ => watchParts_group group]
    simp only [List.mem_flatMap, List.mem_flatten]
    grind

/-- Two values, one of them a list with blanks and an empty piece. -/
theorem watches_billing : watches "" ["orders", " billing ,, orders"] "billing" = true :=
  (watches_named "" ["orders", " billing ,, orders"] "billing" (by decide)).1.mpr
    (Or.inl ⟨" billing ,, orders", by simp, " billing ", by decide +kernel, Or.inr (by decide +kernel)⟩)

end Manager

end AuroraOperator

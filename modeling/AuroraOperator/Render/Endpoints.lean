/-
# Host and port of a database

Where a database is, the operator decides: `databaseLine` writes `host` and `port` itself and
leaves out the user's keys of these names, in any case.  But the line has no quoting.  The keys are
compared before they are written, and what PgBouncer compares are the words of the line.

`endpoints_fixed_iff` says which strings survive: those without a newline, and with no word in them
that reads `host=` or `port=`.  A value such as `5 host=elsewhere` does not.
-/
import AuroraOperator.Render.Ini

namespace AuroraOperator

namespace Render

open Words

/-! ## 1. Reading the lines -/

/-- The part of the text that `writeDatabasesSection` writes. -/
def databasesText (spec : PgBouncerAuroraSpec) (observed : InstanceObservation) : List Char :=
  (pgBouncerINI spec observed).toList.take
    (writeDatabasesSection spec observed
      (mergedConfig spec observed.name).databases).toList.length

/-- The words `key=value` of a text. -/
def assignments (text : List Char) : List (List Char × List Char) :=
  (words (fun c => !isSpace c) text).filterMap Ini.readOption

/-- What stands after the first equals sign. -/
def afterEquals (text : List Char) : List Char := (text.dropWhile (· ≠ '=')).drop 1

/-- The values a line gives to a key, whose case does not matter. -/
def valuesOf (key : String) (pairs : List (List Char × List Char)) : List (List Char) :=
  (pairs.filter fun kv => String.ofList (kv.1.map lowerChar) = key).map (·.2)

/-- Line by line: a name, an equals sign, options.  Each line says `host` once and `port` once. -/
structure EndpointsFixed (spec : PgBouncerAuroraSpec) (observed : InstanceObservation) : Prop where
  count : (Ini.bodyLines (databasesText spec observed)).length =
    (effectiveDatabases spec observed.name).size
  host : ∀ line ∈ Ini.bodyLines (databasesText spec observed),
    valuesOf "host" (assignments (afterEquals line)) = [observed.endpoint.toList]
  port : ∀ line ∈ Ini.bodyLines (databasesText spec observed),
    valuesOf "port" (assignments (afterEquals line)) =
      [(toString (effectivePort spec observed)).toList]

/-- No word of the text sets a key of the operator's. -/
def Quiet (text : List Char) : Prop :=
  ∀ kv ∈ assignments text, isManagedDatabaseKey (String.ofList kv.1) = false

instance (text : List Char) : Decidable (Quiet text) :=
  inferInstanceAs (Decidable (∀ kv ∈ assignments text, _))

/-- The strings of a database that survive being written. -/
structure SafeEntry (name : String) (options : StringMap String) : Prop where
  name_line : '\n' ∉ name.toList
  name_quiet : Quiet (afterEquals name.toList)
  option_line : ∀ kv ∈ userOptions options, '\n' ∉ kv.1.toList ∧ '\n' ∉ kv.2.toList
  option_quiet : ∀ kv ∈ userOptions options, Quiet (Ini.option (chars kv))

/-! ## 2. What a line says -/

theorem databasesText_eq (spec : PgBouncerAuroraSpec) (observed : InstanceObservation) :
    databasesText spec observed = Ini.renderSection (databasesSection spec observed) := by
  have htext : (pgBouncerINI spec observed).toList =
      Ini.renderSection (databasesSection spec observed) ++
        Ini.finish (([settingsSection "pgbouncer" (effectiveSettings spec observed.name)] ++
          entriesSection "users" (mergedConfig spec observed.name).users ++
          entriesSection "peers" (mergedConfig spec observed.name).peers).flatMap
            Ini.renderSection) := by
    rw [pgBouncerINI_eq_render, Ini.render, ← Ini.finish_append]
    · simp [iniDocument]
    · exact ⟨'[', by simp [Ini.renderSection, Ini.header], by decide⟩
  rw [databasesText, toList_writeDatabasesSection, htext, List.take_left]

theorem assignments_append {c : Char} (hc : isSpace c = true) (l m : List Char) :
    assignments (l ++ c :: m) = assignments l ++ assignments m := by
  rw [assignments, words_append_sep (by simp [hc]), List.filterMap_append]
  rfl

theorem assignments_options (options : List (List Char × List Char)) (l : List Char) :
    assignments (l ++ options.flatMap fun kv => ' ' :: Ini.option kv) =
      assignments l ++ options.flatMap fun kv => assignments (Ini.option kv) := by
  induction options generalizing l with
  | nil => simp
  | cons kv options ih =>
    rw [List.flatMap_cons, List.cons_append, assignments_append (by decide), ih, List.flatMap_cons]

/-- An option without blanks is one word. -/
theorem assignments_option {key value : List Char} (hkey : ∀ c ∈ key, isSpace c = false)
    (hvalue : ∀ c ∈ value, isSpace c = false) (hequals : '=' ∉ key) :
    assignments (Ini.option (key, value)) = [(key, value)] := by
  have hkeep : ∀ c ∈ Ini.option (key, value), (!isSpace c) = true := by
    intro c hc
    simp only [Ini.option, List.mem_append, List.mem_cons] at hc
    rcases hc with hc | rfl | hc
    · simp [hkey c hc]
    · decide
    · simp [hvalue c hc]
  rw [assignments, words_of_keep hkeep (by simp [Ini.option]), List.filterMap_cons,
    Ini.readOption_option hequals]
  rfl

theorem valuesOf_append (key : String) (l m : List (List Char × List Char)) :
    valuesOf key (l ++ m) = valuesOf key l ++ valuesOf key m := by
  simp [valuesOf]

theorem quiet_iff {text : List Char} :
    Quiet text ↔ valuesOf "host" (assignments text) = [] ∧ valuesOf "port" (assignments text) = [] := by
  simp only [Quiet, valuesOf, List.map_eq_nil_iff, List.filter_eq_nil_iff, decide_eq_true_eq,
    ← forall₂_and]
  refine forall₂_congr fun kv _ => ?_
  simp [isManagedDatabaseKey]

theorem quiet_nil : Quiet [] := by simp [Quiet, assignments]

theorem afterEquals_append {l : List Char} (h : '=' ∉ l) (m : List Char) :
    afterEquals (l ++ '=' :: m) = m := by
  have hne : ∀ c ∈ l, decide (c ≠ '=') = true := fun c hc => by
    simpa using fun (heq : c = '=') => h (heq ▸ hc)
  rw [afterEquals, List.dropWhile_append_of_pos hne]
  simp

theorem afterEquals_of_notMem {l : List Char} (h : '=' ∉ l) : afterEquals l = [] := by
  have hdrop : l.dropWhile (· ≠ '=') = [] := List.dropWhile_eq_nil_iff.mpr fun c hc => by
    simpa using fun (heq : c = '=') => h (heq ▸ hc)
  rw [afterEquals, hdrop, List.drop_nil]

/-- The words of a line: those of the name, if it has an equals sign itself, and the options. -/
theorem valuesOf_entry {key : String} (hkey : key ≠ "") (name : List Char)
    (options : List (List Char × List Char)) :
    valuesOf key (assignments (afterEquals (Ini.entry name options))) =
      valuesOf key (assignments (afterEquals name)) ++
        valuesOf key (options.flatMap fun kv => assignments (Ini.option kv)) := by
  by_cases hname : '=' ∈ name
  · obtain ⟨l, m, rfl, hl⟩ := List.eq_append_cons_of_mem hname
    -- the equals sign of the line is a word that sets the empty key
    have hsign : valuesOf key (assignments ['=']) = [] := by
      have hword : assignments ['='] = [([], [])] := by decide
      simp [hword, valuesOf, hkey.symm]
    have hline : Ini.entry (l ++ '=' :: m) options =
        l ++ '=' :: (m ++ ' ' :: (['='] ++ options.flatMap fun kv => ' ' :: Ini.option kv)) := by
      simp [Ini.entry]
    rw [hline, afterEquals_append hl, afterEquals_append hl, assignments_append (by decide),
      assignments_options, valuesOf_append, valuesOf_append, hsign, List.nil_append]
  · have hline : Ini.entry name options =
        (name ++ [' ']) ++ '=' :: ([] ++ options.flatMap fun kv => ' ' :: Ini.option kv) := by
      simp [Ini.entry]
    rw [hline, afterEquals_append (by simpa using hname), assignments_options,
      afterEquals_of_notMem hname, valuesOf_append]

/-! ## 3. Host and port -/

section Fixed

variable {spec : PgBouncerAuroraSpec} {observed : InstanceObservation}

theorem isSpace_toString (n : Int32) : ∀ c ∈ (toString n).toList, isSpace c = false := by
  intro c hc
  rcases (toString_chars n).2 c hc with rfl | hdigit
  · decide
  · have hrange : 48 ≤ c.toNat ∧ c.toNat ≤ 57 := by
      simpa [Char.isDigit, UInt32.le_iff_toNat_le] using hdigit
    simp only [isSpace, List.contains_eq_mem]
    simp
    omega

/-- The operator's own options are one word each. -/
theorem assignments_databaseOptions (hendpoint : ∀ c ∈ observed.endpoint.toList, isSpace c = false)
    (options : StringMap String) :
    (((databaseOptions spec observed options).map chars).flatMap fun kv =>
      assignments (Ini.option kv)) =
      ("host".toList, observed.endpoint.toList) ::
      ("port".toList, (toString (effectivePort spec observed)).toList) ::
        (userOptions options).flatMap fun kv => assignments (Ini.option (chars kv)) := by
  have hkeys : ∀ key ∈ ["host", "port"],
      (∀ c ∈ key.toList, isSpace c = false) ∧ '=' ∉ key.toList := by simp [isSpace]
  have hhost : assignments (Ini.option (chars ("host", observed.endpoint))) =
      [("host".toList, observed.endpoint.toList)] :=
    assignments_option (hkeys "host" (by simp)).1 hendpoint (hkeys "host" (by simp)).2
  have hport : assignments (Ini.option (chars ("port", toString (effectivePort spec observed)))) =
      [("port".toList, (toString (effectivePort spec observed)).toList)] :=
    assignments_option (hkeys "port" (by simp)).1 (isSpace_toString _) (hkeys "port" (by simp)).2
  simp only [databaseOptions, List.cons_append, List.nil_append, List.map_cons, List.flatMap_cons,
    hhost, hport, List.flatMap_map]

theorem valuesOf_flatMap_eq_nil {α : Type} {key : String} {l : List α}
    {f : α → List (List Char × List Char)} :
    valuesOf key (l.flatMap f) = [] ↔ ∀ a ∈ l, valuesOf key (f a) = [] := by
  induction l with
  | nil => simp [valuesOf]
  | cons a l ih => rw [List.flatMap_cons, valuesOf_append, List.append_eq_nil_iff, ih,
      List.forall_mem_cons]

/-- **A line says `host` and `port` once** unless the name or an option says one of them too. -/
theorem line_fixed_iff (hendpoint : ∀ c ∈ observed.endpoint.toList, isSpace c = false)
    (name : List Char) (options : StringMap String) :
    let line := Ini.entry name ((databaseOptions spec observed options).map chars)
    (valuesOf "host" (assignments (afterEquals line)) = [observed.endpoint.toList] ∧
      valuesOf "port" (assignments (afterEquals line)) =
        [(toString (effectivePort spec observed)).toList]) ↔
      Quiet (afterEquals name) ∧ ∀ kv ∈ userOptions options, Quiet (Ini.option (chars kv)) := by
  intro line
  have hone : ∀ (before after : List (List Char)) (value : List Char),
      before ++ value :: after = [value] ↔ before = [] ∧ after = [] := by
    intro before after value
    cases before <;> simp
  have hown : ∀ (host port : List Char) rest,
      valuesOf "host" (("host".toList, host) :: ("port".toList, port) :: rest) =
        host :: valuesOf "host" rest ∧
      valuesOf "port" (("host".toList, host) :: ("port".toList, port) :: rest) =
        port :: valuesOf "port" rest := by
    intro host port rest
    have hlower : String.ofList ("host".toList.map lowerChar) = "host" ∧
        String.ofList ("port".toList.map lowerChar) = "port" := by decide
    simp only [valuesOf, List.filter_cons, hlower.1, hlower.2]
    simp
  rw [valuesOf_entry (by decide), valuesOf_entry (by decide),
    assignments_databaseOptions hendpoint, (hown _ _ _).1, (hown _ _ _).2, hone, hone,
    valuesOf_flatMap_eq_nil, valuesOf_flatMap_eq_nil]
  simp only [quiet_iff]
  constructor
  · rintro ⟨⟨hn, ho⟩, hn', ho'⟩
    exact ⟨⟨hn, hn'⟩, fun kv hkv => ⟨ho kv hkv, ho' kv hkv⟩⟩
  · rintro ⟨⟨hn, hn'⟩, ho⟩
    exact ⟨⟨hn, fun kv hkv => (ho kv hkv).1⟩, hn', fun kv hkv => (ho kv hkv).2⟩

theorem newline_entry_iff (hendpoint : ∀ c ∈ observed.endpoint.toList, isSpace c = false)
    (name : List Char) (options : StringMap String) :
    '\n' ∉ Ini.entry name ((databaseOptions spec observed options).map chars) ↔
      '\n' ∉ name ∧
        ∀ kv ∈ userOptions options, '\n' ∉ kv.1.toList ∧ '\n' ∉ kv.2.toList := by
  have hhost : '\n' ∉ observed.endpoint.toList := fun hmem => absurd (hendpoint _ hmem) (by decide)
  have hport := (plain_toString (effectivePort spec observed)).newline
  simp [Ini.entry, Ini.option, databaseOptions, chars, hhost, hport]

theorem fixed_iff_safeEntries (hendpoint : ∀ c ∈ observed.endpoint.toList, isSpace c = false) :
    EndpointsFixed spec observed ↔
      ∀ entry ∈ (effectiveDatabases spec observed.name).toList, SafeEntry entry.1 entry.2 := by
  have hlines : Ini.bodyLines (databasesText spec observed) =
      (databasesSection spec observed).lines.flatMap (·.splitOn '\n') := by
    rw [databasesText_eq]
    exact Ini.bodyLines_renderSection _ (by simp [databasesSection, titled])
  have hsize : (effectiveDatabases spec observed.name).size =
      (databasesSection spec observed).lines.length := by
    simp [databasesSection, titled, Std.ExtTreeMap.length_toList]
  have hnewline : (∀ line ∈ (databasesSection spec observed).lines, '\n' ∉ line) ↔
      ∀ entry ∈ (effectiveDatabases spec observed.name).toList, '\n' ∉ entry.1.toList ∧
        ∀ kv ∈ userOptions entry.2, '\n' ∉ kv.1.toList ∧ '\n' ∉ kv.2.toList := by
    rw [databasesSection, titled, List.forall_mem_map]
    exact forall₂_congr fun entry _ => newline_entry_iff hendpoint _ _
  have hfixed := fun entry : String × StringMap String =>
    @line_fixed_iff spec observed hendpoint entry.1.toList entry.2
  constructor
  · intro h
    have hcount := h.count
    rw [hsize, hlines, Ini.length_flatMap_splitOn] at hcount
    rw [Ini.flatMap_splitOn hcount] at hlines
    intro entry hentry
    have hline := List.mem_map_of_mem (f := fun entry : String × StringMap String =>
      Ini.entry entry.1.toList ((databaseOptions spec observed entry.2).map chars)) hentry
    have hquiet := (hfixed entry).mp
      ⟨h.host _ (hlines ▸ hline), h.port _ (hlines ▸ hline)⟩
    have hplain := hnewline.mp hcount entry hentry
    exact ⟨hplain.1, hquiet.1, hplain.2, hquiet.2⟩
  · intro h
    have hcount := hnewline.mpr fun entry hentry =>
      ⟨(h entry hentry).name_line, (h entry hentry).option_line⟩
    have hall : ∀ line ∈ Ini.bodyLines (databasesText spec observed),
        valuesOf "host" (assignments (afterEquals line)) = [observed.endpoint.toList] ∧
        valuesOf "port" (assignments (afterEquals line)) =
          [(toString (effectivePort spec observed)).toList] := by
      rw [hlines, Ini.flatMap_splitOn hcount, databasesSection, titled, List.forall_mem_map]
      exact fun entry hentry => (hfixed entry).mpr
        ⟨(h entry hentry).name_quiet, (h entry hentry).option_quiet⟩
    refine ⟨?_, fun line hline => (hall line hline).1, fun line hline => (hall line hline).2⟩
    rw [hlines, hsize, Ini.length_flatMap_splitOn]
    exact hcount

/-- The database that stands for none. -/
theorem safeEntry_star : SafeEntry "*" ∅ where
  name_line := by simp
  name_quiet := by
    rw [afterEquals_of_notMem (by simp)]
    exact quiet_nil
  option_line := by simp [userOptions]
  option_quiet := by simp [userOptions]

end Fixed

/-- **Which strings cannot move a database.** -/
theorem endpoints_fixed_iff (spec : PgBouncerAuroraSpec) (observed : InstanceObservation)
    (hendpoint : ∀ c ∈ observed.endpoint.toList, isSpace c = false) :
    EndpointsFixed spec observed ↔
      ∀ name options, (mergedConfig spec observed.name).databases[name]? = some options →
        SafeEntry name options := by
  rw [fixed_iff_safeEntries hendpoint]
  have hentries : ∀ databases : StringMap (StringMap String),
      (∀ entry ∈ databases.toList, SafeEntry entry.1 entry.2) ↔
        ∀ name options, databases[name]? = some options → SafeEntry name options :=
    fun databases =>
      ⟨fun h name options hfound => h (name, options)
        (Std.ExtTreeMap.mem_toList_iff_getElem?_eq_some.mpr hfound),
      fun h entry hentry => h _ _ (Std.ExtTreeMap.mem_toList_iff_getElem?_eq_some.mp hentry)⟩
  rw [hentries]
  simp only [effectiveDatabases]
  split
  next hempty =>
    refine ⟨fun _ name options hfound => by simp [hempty] at hfound, fun _ name options hfound => ?_⟩
    rw [Std.ExtTreeMap.getElem?_insert] at hfound
    obtain ⟨rfl, rfl⟩ : "*" = name ∧ ∅ = options := by simpa using hfound
    exact safeEntry_star
  · rfl

theorem iniSpec_fixed : (∀ c ∈ iniInstance.endpoint.toList, isSpace c = false) ∧
    EndpointsFixed iniSpec iniInstance := by
  have hendpoint : ∀ c ∈ iniInstance.endpoint.toList, isSpace c = false := by
    simp [iniInstance, isSpace]
  refine ⟨hendpoint, (endpoints_fixed_iff iniSpec iniInstance hendpoint).mpr ?_⟩
  intro name options hfound
  obtain ⟨rfl, rfl⟩ : "app" = name ∧ _ = options := by
    have hconfig : mergedConfig iniSpec iniInstance.name = iniSpec.pgbouncer.config := rfl
    rw [hconfig] at hfound
    simpa [iniSpec, Std.ExtTreeMap.getElem?_insert] using hfound
  have huser : userOptions (((∅ : StringMap String).insert "HOST" "elsewhere").insert
      "pool_size" "5") = [("pool_size", "5")] := by decide +kernel
  refine ⟨by simp, ?_, by simp [huser], ?_⟩
  · rw [afterEquals_of_notMem (by simp)]
    exact quiet_nil
  · rw [huser, List.forall_mem_singleton]
    decide +kernel

/-- A pool size that brings a host along. -/
def blankSpec : PgBouncerAuroraSpec :=
  { pgbouncer := { config := {
      databases := (∅ : StringMap (StringMap String)).insert "app"
        ((∅ : StringMap String).insert "pool_size" "5 host=elsewhere") } } }

theorem blank_in_value_sets_host : (∀ c ∈ iniInstance.endpoint.toList, isSpace c = false) ∧
    ¬EndpointsFixed blankSpec iniInstance := by
  have hendpoint : ∀ c ∈ iniInstance.endpoint.toList, isSpace c = false := by
    simp [iniInstance, isSpace]
  refine ⟨hendpoint, ?_⟩
  rw [fixed_iff_safeEntries hendpoint]
  intro h
  have hentries : (effectiveDatabases blankSpec iniInstance.name).toList =
      [("app", (∅ : StringMap String).insert "pool_size" "5 host=elsewhere")] := by decide +kernel
  have huser : userOptions ((∅ : StringMap String).insert "pool_size" "5 host=elsewhere") =
      [("pool_size", "5 host=elsewhere")] := by decide +kernel
  rw [hentries, List.forall_mem_singleton] at h
  have hquiet := h.option_quiet
  rw [huser, List.forall_mem_singleton] at hquiet
  revert hquiet
  decide +kernel

end Render

end AuroraOperator

/-
# The text of `pgbouncer.ini`

What `PgBouncerINI` writes is an INI text of up to four sections (`pgBouncerINI_eq_render`).  As
long as no name, key or value has a blank in it, reading the text gives the effective configuration
back (`ini_determines_config`).  So two effective configurations have two texts, and the hash of
the text, which is what restarts the pods, is taken of two different inputs.
-/
import AuroraOperator.Lib.Ini
import AuroraOperator.Render.MapOrder

namespace AuroraOperator

namespace Render

/-! ## 1. The effective configuration -/

/-- The settings of the `[pgbouncer]` section. -/
def effectiveSettings (spec : PgBouncerAuroraSpec) (instanceName : String) : StringMap String :=
  let config := mergedConfig spec instanceName
  let defaults := (((∅ : StringMap String).insert "auth_type" defaultPgBouncerAuthType).insert
    "auth_file" defaultAuthFilePath).insert "listen_addr" defaultListenAddr
  ((mergeMap defaults config.pgbouncer).insert "auth_file" (authFilePathFromConfig config)).insert
    "listen_port" (toString (listenPort spec))

/-- The databases of the `[databases]` section. -/
def effectiveDatabases (spec : PgBouncerAuroraSpec) (instanceName : String) :
    StringMap (StringMap String) :=
  let databases := (mergedConfig spec instanceName).databases
  if databases = ∅ then (∅ : StringMap (StringMap String)).insert "*" ∅ else databases

/-- The port behind an instance. -/
def effectivePort (spec : PgBouncerAuroraSpec) (observed : InstanceObservation) : Int32 :=
  let port := if observed.port = 0 then spec.discovery.port else observed.port
  if port = 0 then 5432 else port

/-- The options of a user that are written. -/
def userOptions (options : StringMap String) : List (String × String) :=
  options.toList.filter fun kv => !isManagedDatabaseKey kv.1

/-! ## 2. The text as a document -/

def chars (kv : String × String) : List Char × List Char := (kv.1.toList, kv.2.toList)

/-- The options of a database line: the operator's, then the user's. -/
def databaseOptions (spec : PgBouncerAuroraSpec) (observed : InstanceObservation)
    (options : StringMap String) : List (String × String) :=
  [("host", observed.endpoint), ("port", toString (effectivePort spec observed))] ++
    userOptions options

def titled (title : String) (lines : List Ini.Line) : Ini.Section := ⟨title.toList, lines⟩

def databasesSection (spec : PgBouncerAuroraSpec) (observed : InstanceObservation) : Ini.Section :=
  titled "databases" ((effectiveDatabases spec observed.name).toList.map fun entry =>
    Ini.entry entry.1.toList ((databaseOptions spec observed entry.2).map chars))

def settingsSection (title : String) (values : StringMap String) : Ini.Section :=
  titled title (values.toList.map fun kv => Ini.pair kv.1.toList kv.2.toList)

/-- A section of named entries is left out when there are none. -/
def entriesSection (title : String) (entries : StringMap (StringMap String)) : List Ini.Section :=
  if entries = ∅ then []
  else [titled title (entries.toList.map fun entry =>
    Ini.entry entry.1.toList (entry.2.toList.map chars))]

def iniDocument (spec : PgBouncerAuroraSpec) (observed : InstanceObservation) : List Ini.Section :=
  [databasesSection spec observed, settingsSection "pgbouncer" (effectiveSettings spec observed.name)] ++
    entriesSection "users" (mergedConfig spec observed.name).users ++
    entriesSection "peers" (mergedConfig spec observed.name).peers

theorem toList_databaseLine (name : String) (spec : PgBouncerAuroraSpec)
    (observed : InstanceObservation) (options : StringMap String) :
    (databaseLine name spec observed options).toList =
      Ini.entry name.toList ((databaseOptions spec observed options).map chars) := by
  have hjoin : ∀ (first : List Char) (parts : List (List Char)),
      [' '].intercalate (first :: parts) = first ++ parts.flatMap (' ' :: ·) :=
    Words.intercalate_cons
  simp only [databaseLine, joinStrings, String.toList_intercalate, List.cons_append,
    List.nil_append, List.map_cons, List.map_map]
  rw [show " ".toList = [' '] from rfl, hjoin]
  simp [Ini.entry, Ini.option, databaseOptions, userOptions, chars, effectivePort,
    List.flatMap_map]

/-- A section as the source writes it. -/
theorem toList_section {α : Type} (title : String) (entries : List α) (line : α → String)
    (chars : α → Ini.Line) (hline : ∀ a, (line a).toList = chars a ++ ['\n']) :
    ("[" ++ title ++ "]\n" ++ String.join (entries.map line) ++ "\n").toList =
      Ini.renderSection (titled title (entries.map chars)) := by
  simp [String.toList_join, List.flatMap_map, hline, Ini.renderSection, Ini.header, titled]

theorem toList_writeDatabasesSection (spec : PgBouncerAuroraSpec) (observed : InstanceObservation) :
    (writeDatabasesSection spec observed (mergedConfig spec observed.name).databases).toList =
      Ini.renderSection (databasesSection spec observed) := by
  have htitle : "[databases]\n" = "[" ++ "databases" ++ "]\n" := by simp
  rw [writeDatabasesSection, htitle]
  exact toList_section _ _ _ _ fun entry => by simp [toList_databaseLine]

theorem toList_writeKeyValueSection (title : String) (values : StringMap String) :
    (writeKeyValueSection title values).toList =
      Ini.renderSection (settingsSection title values) :=
  toList_section _ _ _ _ fun kv => by simp [Ini.pair]

theorem toList_writeNamedKeyValueSection (title : String) (values : StringMap (StringMap String)) :
    (writeNamedKeyValueSection title values).toList =
      (entriesSection title values).flatMap Ini.renderSection := by
  unfold writeNamedKeyValueSection entriesSection
  split
  · rfl
  · rw [List.flatMap_singleton]
    exact toList_section _ _ _ _ fun entry => by
      simp [Ini.entry, Ini.option, chars, String.toList_join, List.flatMap_map]

/-- **The text is the document, rendered.** -/
theorem pgBouncerINI_eq_render (spec : PgBouncerAuroraSpec) (observed : InstanceObservation) :
    (pgBouncerINI spec observed).toList = Ini.render (iniDocument spec observed) := by
  have htext : ∀ text : String, (String.ofList ((text.toList.reverse.dropWhile (· = '\n')).reverse) ++
      "\n").toList = Ini.finish text.toList := fun text => by
    simp [Ini.finish, List.rdropWhile]
  rw [pgBouncerINI, htext, Ini.render, iniDocument]
  simp only [String.toList_append, toList_writeDatabasesSection, toList_writeKeyValueSection,
    toList_writeNamedKeyValueSection, List.flatMap_append, List.flatMap_cons, List.flatMap_nil,
    List.append_nil, List.append_assoc]
  rfl

/-! ## 3. Reading the text back -/

/-- What PgBouncer is told: every name and key with its value. -/
structure EffectiveConfig where
  databases : StringMap (StringMap String)
  pgbouncer : StringMap String
  users : StringMap (StringMap String)
  peers : StringMap (StringMap String)

/-- The options of a database: the user's, except `host` and `port` in any case. -/
def withEndpoint (spec : PgBouncerAuroraSpec) (observed : InstanceObservation)
    (options : StringMap String) : StringMap String :=
  ((options.filter fun key _ => !isManagedDatabaseKey key).insert "host" observed.endpoint).insert
    "port" (toString (effectivePort spec observed))

def effectiveConfig (spec : PgBouncerAuroraSpec) (observed : InstanceObservation) :
    EffectiveConfig where
  databases := (effectiveDatabases spec observed.name).map fun _ => withEndpoint spec observed
  pgbouncer := effectiveSettings spec observed.name
  users := (mergedConfig spec observed.name).users
  peers := (mergedConfig spec observed.name).peers

/-- The map of a list that has every key once. -/
def asMap {α : Type} (l : List (String × α)) : Option (StringMap α) :=
  if (l.map (·.1)).Nodup then some (l.foldl (fun m kv => m.insert kv.1 kv.2) ∅) else none

def strings (kv : List Char × List Char) : String × String := (String.ofList kv.1, String.ofList kv.2)

def readSetting (line : Ini.Line) : Option (String × String) := (Ini.readPair line).map strings

def readNamed (line : Ini.Line) : Option (String × StringMap String) :=
  (Ini.readEntry line).bind fun entry =>
    (asMap (entry.2.map strings)).map fun options => (String.ofList entry.1, options)

/-- The lines under a title. -/
def linesOf (doc : List Ini.Section) (title : String) : List Ini.Line :=
  (doc.filter (·.title = title.toList)).flatMap (·.lines)

def readSection {α : Type} (doc : List Ini.Section) (title : String)
    (readLine : Ini.Line → Option (String × α)) : Option (StringMap α) :=
  ((linesOf doc title).mapM readLine).bind asMap

/-- Sections, lines `name = value`, options `key=value` between blanks. -/
def readINI (text : String) : Option EffectiveConfig := do
  let doc := Ini.read text.toList
  let databases ← readSection doc "databases" readNamed
  let pgbouncer ← readSection doc "pgbouncer" readSetting
  let users ← readSection doc "users" readNamed
  let peers ← readSection doc "peers" readNamed
  return { databases, pgbouncer, users, peers }

theorem asMap_eq_some {α : Type} {l : List (String × α)} {m : StringMap α}
    (hkeys : (l.map (·.1)).Nodup) (h : ∀ key, (l.find? (·.1 = key)).map (·.2) = m[key]?) :
    asMap l = some m := by
  rw [asMap, if_pos hkeys, Option.some_inj]
  refine Std.ExtTreeMap.ext_getElem? fun key => ?_
  rw [foldl_update_getElem? (fun _ value => value) l hkeys, ← h key]
  simp

theorem asMap_toList {α : Type} (m : StringMap α) : asMap m.toList = some m :=
  asMap_eq_some (nodup_keys_toList m) (find?_toList m)

theorem userOptions_eq (options : StringMap String) :
    userOptions options = (options.filter fun key _ => !isManagedDatabaseKey key).toList := by
  rw [Std.ExtTreeMap.toList_filter, userOptions]

/-- The operator's keys are not among the user's. -/
theorem not_mem_userOptions (options : StringMap String) {key : String}
    (h : isManagedDatabaseKey key = true) : key ∉ (userOptions options).map (·.1) := by
  intro hmem
  obtain ⟨kv, hkv, rfl⟩ := List.mem_map.mp hmem
  have hfree := (List.mem_filter.mp hkv).2
  simp [h] at hfree

theorem asMap_databaseOptions (spec : PgBouncerAuroraSpec) (observed : InstanceObservation)
    (options : StringMap String) :
    asMap (databaseOptions spec observed options) = some (withEndpoint spec observed options) := by
  have hhost := not_mem_userOptions options (show isManagedDatabaseKey "host" = true by decide)
  have hport := not_mem_userOptions options (show isManagedDatabaseKey "port" = true by decide)
  refine asMap_eq_some ?_ fun key => ?_
  · have hrest : ((userOptions options).map (·.1)).Nodup := by
      rw [userOptions_eq]
      exact nodup_keys_toList _
    have hne : ("host" : String) ≠ "port" := by decide
    simp only [databaseOptions, List.cons_append, List.nil_append, List.map_cons, List.nodup_cons,
      List.mem_cons, not_or]
    exact ⟨⟨hne, hhost⟩, hport, hrest⟩
  · have hrest := find?_toList (options.filter fun key _ => !isManagedDatabaseKey key) key
    rw [← userOptions_eq] at hrest
    simp only [databaseOptions, withEndpoint, List.cons_append, List.nil_append, List.find?_cons,
      Std.ExtTreeMap.getElem?_insert, Std.LawfulEqCmp.compare_eq_iff_eq, ← hrest]
    by_cases hh : "host" = key
    · subst hh
      simp
    · by_cases hp : "port" = key <;> simp [hh, hp]

/-- A line of a named section gives the entry back. -/
theorem readNamed_entry {name : String} {l : List (String × String)} {options : StringMap String}
    (hname : Ini.Plain name.toList)
    (hl : ∀ kv ∈ l, Ini.PlainKey kv.1.toList ∧ Ini.Plain kv.2.toList)
    (hmap : asMap l = some options) :
    readNamed (Ini.entry name.toList (l.map chars)) = some (name, options) := by
  have hread : Ini.readEntry (Ini.entry name.toList (l.map chars)) =
      some (name.toList, l.map chars) :=
    Ini.readEntry_entry hname (List.forall_mem_map.mpr fun kv hkv => (hl kv hkv).1)
      (List.forall_mem_map.mpr fun kv hkv => (hl kv hkv).2.blank)
  have hback : (l.map chars).map strings = l := by
    simp [List.map_map, Function.comp_def, strings, chars]
  simp [readNamed, hread, hback, hmap]

theorem readSetting_pair {key value : String} (hkey : Ini.Plain key.toList)
    (hvalue : Ini.Plain value.toList) :
    readSetting (Ini.pair key.toList value.toList) = some (key, value) := by
  simp [readSetting, Ini.readPair_pair hkey hvalue, strings]

/-- Lines that are read one by one give the map back. -/
theorem mapM_bind_asMap {α β : Type} {m : StringMap β} {line : String × β → Ini.Line}
    {readLine : Ini.Line → Option (String × α)} {f : β → α}
    (h : ∀ kv ∈ m.toList, readLine (line kv) = some (kv.1, f kv.2)) :
    ((m.toList.map line).mapM readLine).bind asMap = some (m.map fun _ => f) := by
  have hlines : (m.toList.map line).mapM readLine = some (m.map fun _ => f).toList := by
    rw [Std.ExtTreeMap.toList_map]
    generalize m.toList = l at h
    induction l with
    | nil => rfl
    | cons kv l ih =>
      rw [List.forall_mem_cons] at h
      rw [List.map_cons, List.mapM_cons, h.1, ih h.2]
      rfl
  rw [hlines, Option.bind_some, asMap_toList]

/-- No name, key or value of the merged configuration has a blank in it, and none is empty. -/
structure PlainConfig (spec : PgBouncerAuroraSpec) (observed : InstanceObservation) : Prop where
  endpoint : Ini.Plain observed.endpoint.toList
  settings : ∀ key value : String,
    (mergedConfig spec observed.name).pgbouncer[key]? = some value →
      Ini.PlainName key.toList ∧ Ini.Plain value.toList
  names : ∀ kind, ∀ name ∈ namedSection (mergedConfig spec observed.name) kind,
    Ini.PlainName name.toList
  options : ∀ kind name key value,
    optionAt (namedSection (mergedConfig spec observed.name) kind) name key = some value →
      Ini.PlainKey key.toList ∧ Ini.Plain value.toList

section RoundTrip

variable {spec : PgBouncerAuroraSpec} {observed : InstanceObservation}

theorem toString_chars (n : Int32) : (toString n).toList ≠ [] ∧
    ∀ c ∈ (toString n).toList, c = '-' ∨ c.isDigit = true := by
  have hdigits : ∀ m : Nat, ∀ c ∈ m.repr.toList, c.isDigit = true := fun m c hc =>
    Nat.isDigit_of_mem_toDigits (b := 10) (by decide) (by decide) (by simpa using hc)
  have hrepr : toString n = n.toInt.repr := rfl
  rw [hrepr, Int.repr_eq_if]
  split
  · exact ⟨by simp, fun c hc => .inr (hdigits _ c hc)⟩
  · refine ⟨by simp, fun c hc => ?_⟩
    rw [String.toList_append, List.mem_append] at hc
    exact hc.imp (by simp) (hdigits _ c)

theorem plain_toString (n : Int32) : Ini.Plain (toString n).toList := by
  refine ⟨(toString_chars n).1, fun h => ?_, fun h => ?_⟩
  · simpa using (toString_chars n).2 _ h
  · simpa using (toString_chars n).2 _ h

/-- The names the operator writes itself. -/
theorem plain_defaults : ∀ word ∈ ["host", "port", "*", "auth_type", "auth_file", "listen_addr",
    "listen_port", defaultPgBouncerAuthType, defaultAuthFilePath, defaultListenAddr],
    Ini.PlainName word.toList := by
  simp only [List.forall_mem_cons, defaultPgBouncerAuthType, defaultAuthFilePath, defaultListenAddr]
  refine ⟨?_, ?_, ?_, ?_, ?_, ?_, ?_, ?_, ?_, ?_, by simp⟩ <;> apply Ini.PlainName.of <;> simp

theorem plain_authFilePath (h : PlainConfig spec observed) :
    Ini.Plain (authFilePathFromConfig (mergedConfig spec observed.name)).toList := by
  simp only [authFilePathFromConfig]
  split
  · exact (plain_defaults defaultAuthFilePath (by simp)).toPlain
  next hne =>
    cases hvalue : (mergedConfig spec observed.name).pgbouncer["auth_file"]? with
    | none =>
      rw [hvalue] at hne
      exact absurd (by simp [trimSpace]) hne
    | some value =>
      rw [hvalue] at hne
      rw [Option.getD_some] at hne ⊢
      have hplain := (h.settings _ _ hvalue).2
      exact ⟨by simpa using hne, fun hc => hplain.blank (trimSpace_subset value hc),
        fun hc => hplain.newline (trimSpace_subset value hc)⟩

theorem plain_effectiveSettings (h : PlainConfig spec observed) {key value : String}
    (hkv : (effectiveSettings spec observed.name)[key]? = some value) :
    Ini.PlainName key.toList ∧ Ini.Plain value.toList := by
  simp only [effectiveSettings, Std.ExtTreeMap.getElem?_insert, mergeMap_getElem?,
    Std.LawfulEqCmp.compare_eq_iff_eq] at hkv
  split at hkv
  next heq =>
    rw [Option.some_inj] at hkv
    subst heq hkv
    exact ⟨plain_defaults _ (by simp), plain_toString _⟩
  split at hkv
  next heq =>
    rw [Option.some_inj] at hkv
    subst heq hkv
    exact ⟨plain_defaults _ (by simp), plain_authFilePath h⟩
  rcases Option.or_eq_some_iff.mp hkv with hkv | ⟨-, hkv⟩
  · exact h.settings _ _ hkv
  · have hwritten : (key = "auth_type" ∧ value = defaultPgBouncerAuthType) ∨
        (key = "auth_file" ∧ value = defaultAuthFilePath) ∨
        key = "listen_addr" ∧ value = defaultListenAddr := by
      grind
    rcases hwritten with ⟨rfl, rfl⟩ | ⟨rfl, rfl⟩ | ⟨rfl, rfl⟩ <;>
      exact ⟨plain_defaults _ (by simp), (plain_defaults _ (by simp)).toPlain⟩

/-- An entry of a merged section. -/
theorem plain_namedSection (h : PlainConfig spec observed) (kind : NamedSection)
    {entry : String × StringMap String}
    (hentry : entry ∈ (namedSection (mergedConfig spec observed.name) kind).toList) :
    Ini.PlainName entry.1.toList ∧
      ∀ kv ∈ entry.2.toList, Ini.PlainKey kv.1.toList ∧ Ini.Plain kv.2.toList := by
  have hfound := Std.ExtTreeMap.mem_toList_iff_getElem?_eq_some.mp hentry
  refine ⟨h.names kind _ (Std.ExtTreeMap.mem_iff_isSome_getElem?.mpr (by simp [hfound])), ?_⟩
  intro kv hkv
  refine h.options kind entry.1 kv.1 kv.2 ?_
  rw [optionAt, hfound, Option.bind_some]
  exact Std.ExtTreeMap.mem_toList_iff_getElem?_eq_some.mp hkv

theorem plain_effectiveDatabases (h : PlainConfig spec observed)
    {entry : String × StringMap String}
    (hentry : entry ∈ (effectiveDatabases spec observed.name).toList) :
    Ini.PlainName entry.1.toList ∧
      ∀ kv ∈ databaseOptions spec observed entry.2,
        Ini.PlainKey kv.1.toList ∧ Ini.Plain kv.2.toList := by
  have huser : Ini.PlainName entry.1.toList ∧ ∀ kv ∈ entry.2.toList,
      Ini.PlainKey kv.1.toList ∧ Ini.Plain kv.2.toList := by
    simp only [effectiveDatabases] at hentry
    split at hentry
    · have hstar := Std.ExtTreeMap.mem_toList_iff_getElem?_eq_some.mp hentry
      rw [Std.ExtTreeMap.getElem?_insert] at hstar
      obtain ⟨hname, hoptions⟩ : "*" = entry.1 ∧ ∅ = entry.2 := by simpa using hstar
      rw [← hname, ← hoptions]
      exact ⟨plain_defaults "*" (by simp), by simp⟩
    · exact plain_namedSection h .databases hentry
  refine ⟨huser.1, ?_⟩
  simp only [databaseOptions, List.cons_append, List.nil_append, List.forall_mem_cons]
  exact ⟨⟨(plain_defaults _ (by simp)).toPlainKey, h.endpoint⟩,
    ⟨(plain_defaults _ (by simp)).toPlainKey, plain_toString _⟩,
    fun kv hkv => huser.2 kv (List.mem_filter.mp hkv).1⟩

/-- A line of named options, from the plainness of what it is made of. -/
theorem plainLine_options {name : String} {l : List (String × String)}
    (hname : Ini.PlainName name.toList)
    (hl : ∀ kv ∈ l, Ini.PlainKey kv.1.toList ∧ Ini.Plain kv.2.toList) :
    Ini.PlainLine (Ini.entry name.toList (l.map chars)) :=
  Ini.plainLine_entry hname (List.forall_mem_map.mpr fun kv hkv =>
    ⟨(hl kv hkv).1.newline, (hl kv hkv).2.newline⟩)

theorem plain_entriesSection (h : PlainConfig spec observed) {title : String}
    (htitle : '\n' ∉ title.toList) (kind : NamedSection) :
    ∀ s ∈ entriesSection title (namedSection (mergedConfig spec observed.name) kind),
      Ini.PlainSection s := by
  intro s hs
  unfold entriesSection at hs
  split at hs
  · simp at hs
  · rw [List.mem_singleton] at hs
    subst hs
    refine ⟨htitle, List.forall_mem_map.mpr fun entry hentry => ?_⟩
    have hplain := plain_namedSection h kind hentry
    exact plainLine_options hplain.1 hplain.2

theorem plain_iniDocument (h : PlainConfig spec observed) :
    ∀ s ∈ iniDocument spec observed, Ini.PlainSection s := by
  simp only [iniDocument, List.forall_mem_append, List.forall_mem_cons]
  refine ⟨⟨⟨⟨by simp [databasesSection, titled], ?_⟩, ⟨by simp [settingsSection, titled], ?_⟩, by simp⟩,
    plain_entriesSection h (by simp) .users⟩, plain_entriesSection h (by simp) .peers⟩
  · refine List.forall_mem_map.mpr fun entry hentry => ?_
    have hplain := plain_effectiveDatabases h hentry
    exact plainLine_options hplain.1 hplain.2
  · refine List.forall_mem_map.mpr fun kv hkv => ?_
    have hplain := plain_effectiveSettings h (Std.ExtTreeMap.mem_toList_iff_getElem?_eq_some.mp hkv)
    exact Ini.plainLine_pair hplain.1 hplain.2

theorem linesOf_append (doc doc' : List Ini.Section) (title : String) :
    linesOf (doc ++ doc') title = linesOf doc title ++ linesOf doc' title := by
  simp [linesOf]

theorem linesOf_titled (t title : String) (lines : List Ini.Line) :
    linesOf [titled t lines] title = if t = title then lines else [] := by
  by_cases h : t = title <;> simp [linesOf, titled, h, String.toList_inj]

theorem linesOf_entriesSection (t title : String) (entries : StringMap (StringMap String)) :
    linesOf (entriesSection t entries) title =
      if t = title then entries.toList.map fun entry =>
        Ini.entry entry.1.toList (entry.2.toList.map chars) else [] := by
  unfold entriesSection
  split
  next hempty => simp [hempty, linesOf]
  · exact linesOf_titled t title _

theorem readSection_named (h : PlainConfig spec observed) (kind : NamedSection) :
    (((namedSection (mergedConfig spec observed.name) kind).toList.map fun entry =>
      Ini.entry entry.1.toList (entry.2.toList.map chars)).mapM readNamed).bind asMap =
      some (namedSection (mergedConfig spec observed.name) kind) := by
  rw [mapM_bind_asMap (f := fun options => options)]
  · simp
  · intro entry hentry
    have hplain := plain_namedSection h kind hentry
    exact readNamed_entry hplain.1.toPlain hplain.2 (asMap_toList _)

theorem linesOf_iniDocument :
    linesOf (iniDocument spec observed) "databases" = (databasesSection spec observed).lines ∧
    linesOf (iniDocument spec observed) "pgbouncer" =
      (settingsSection "pgbouncer" (effectiveSettings spec observed.name)).lines ∧
    linesOf (iniDocument spec observed) "users" =
      ((mergedConfig spec observed.name).users.toList.map fun entry =>
        Ini.entry entry.1.toList (entry.2.toList.map chars)) ∧
    linesOf (iniDocument spec observed) "peers" =
      (mergedConfig spec observed.name).peers.toList.map fun entry =>
        Ini.entry entry.1.toList (entry.2.toList.map chars) := by
  have hlines : ∀ title, linesOf (iniDocument spec observed) title =
      linesOf [databasesSection spec observed] title ++
      (linesOf [settingsSection "pgbouncer" (effectiveSettings spec observed.name)] title ++
      (linesOf (entriesSection "users" (mergedConfig spec observed.name).users) title ++
      linesOf (entriesSection "peers" (mergedConfig spec observed.name).peers) title)) := by
    intro title
    rw [iniDocument, linesOf_append, linesOf_append, ← List.singleton_append, linesOf_append]
    simp only [List.append_assoc]
  simp only [hlines, databasesSection, settingsSection, linesOf_titled, linesOf_entriesSection]
  simp [titled]

/-- The text gives the effective configuration back. -/
theorem readINI_pgBouncerINI (h : PlainConfig spec observed) :
    readINI (pgBouncerINI spec observed) = some (effectiveConfig spec observed) := by
  have hdoc : Ini.read (pgBouncerINI spec observed).toList = iniDocument spec observed := by
    rw [pgBouncerINI_eq_render, Ini.read_render (plain_iniDocument h)]
  obtain ⟨hd, hs, hu, hp⟩ := @linesOf_iniDocument spec observed
  have hdatabases : readSection (iniDocument spec observed) "databases" readNamed =
      some ((effectiveDatabases spec observed.name).map fun _ => withEndpoint spec observed) := by
    rw [readSection, hd]
    refine mapM_bind_asMap fun entry hentry => ?_
    have hplain := plain_effectiveDatabases h hentry
    exact readNamed_entry hplain.1.toPlain hplain.2 (asMap_databaseOptions ..)
  have hsettings : readSection (iniDocument spec observed) "pgbouncer" readSetting =
      some (effectiveSettings spec observed.name) := by
    rw [readSection, hs, settingsSection, titled, mapM_bind_asMap (f := fun value => value)]
    · simp
    · intro kv hkv
      have hplain := plain_effectiveSettings h
        (Std.ExtTreeMap.mem_toList_iff_getElem?_eq_some.mp hkv)
      exact readSetting_pair hplain.1.toPlain hplain.2
  have husers : readSection (iniDocument spec observed) "users" readNamed =
      some (mergedConfig spec observed.name).users := by
    rw [readSection, hu]
    exact readSection_named h .users
  have hpeers : readSection (iniDocument spec observed) "peers" readNamed =
      some (mergedConfig spec observed.name).peers := by
    rw [readSection, hp]
    exact readSection_named h .peers
  rw [readINI, hdoc]
  simp only [hdatabases, hsettings, husers, hpeers]
  rfl

end RoundTrip

/-- **The text determines the effective configuration**, and nothing else has a part in it: not
the order in which the source goes through its maps. -/
theorem ini_determines_config (spec : PgBouncerAuroraSpec) (observed : InstanceObservation)
    (h : PlainConfig spec observed) :
    readINI (pgBouncerINI spec observed) = some (effectiveConfig spec observed) ∧
      (∀ spec' observed', PlainConfig spec' observed' →
        effectiveConfig spec' observed' ≠ effectiveConfig spec observed →
          pgBouncerINI spec' observed' ≠ pgBouncerINI spec observed) ∧
      Loops.pgBouncerINI spec observed = pure (pgBouncerINI spec observed) := by
  refine ⟨readINI_pgBouncerINI h, ?_, Loops.pgBouncerINI_eq_pure spec observed⟩
  intro spec' observed' h' hne htext
  have hread := readINI_pgBouncerINI h'
  rw [htext, readINI_pgBouncerINI h, Option.some_inj] at hread
  exact hne hread.symm

/-- A database whose host the user tries to set, and a setting. -/
def iniSpec : PgBouncerAuroraSpec :=
  { pgbouncer := { config := {
      pgbouncer := (∅ : StringMap String).insert "max_client_conn" "100"
      databases := (∅ : StringMap (StringMap String)).insert "app"
        (((∅ : StringMap String).insert "HOST" "elsewhere").insert "pool_size" "5") } } }

def iniInstance : InstanceObservation :=
  { name := "writer-1", endpoint := "writer-1.rds.amazonaws.com", role := .writer }

theorem iniSpec_read : PlainConfig iniSpec iniInstance ∧
    readINI (pgBouncerINI iniSpec iniInstance) = some (effectiveConfig iniSpec iniInstance) := by
  have hwords : ∀ word ∈ ["writer-1.rds.amazonaws.com", "max_client_conn", "100", "app", "HOST",
      "elsewhere", "pool_size", "5"], Ini.PlainName word.toList := by
    simp only [List.forall_mem_cons]
    refine ⟨?_, ?_, ?_, ?_, ?_, ?_, ?_, ?_, by simp⟩ <;> apply Ini.PlainName.of <;> simp
  have hconfig : mergedConfig iniSpec iniInstance.name = iniSpec.pgbouncer.config := rfl
  have hplain : PlainConfig iniSpec iniInstance := by
    refine ⟨(hwords _ (by simp [iniInstance])).toPlain, ?_, ?_, ?_⟩
    · intro key value hkv
      rw [hconfig] at hkv
      obtain ⟨rfl, rfl⟩ : "max_client_conn" = key ∧ "100" = value := by
        simpa [iniSpec, Std.ExtTreeMap.getElem?_insert] using hkv
      exact ⟨hwords _ (by simp), (hwords _ (by simp)).toPlain⟩
    · intro kind name hname
      rw [hconfig] at hname
      cases kind
      · obtain rfl : "app" = name := by simpa [iniSpec, namedSection] using hname
        exact hwords _ (by simp)
      all_goals simp [iniSpec, namedSection] at hname
    · intro kind name key value hkv
      rw [hconfig] at hkv
      cases kind
      · obtain ⟨options, happ, hoption⟩ := Option.bind_eq_some_iff.mp hkv
        obtain ⟨rfl, rfl⟩ : "app" = name ∧ _ = options := by
          simpa [iniSpec, namedSection, Std.ExtTreeMap.getElem?_insert] using happ
        have hkv : ("pool_size" = key ∧ "5" = value) ∨ ("HOST" = key ∧ "elsewhere" = value) := by
          rw [Std.ExtTreeMap.getElem?_insert, Std.ExtTreeMap.getElem?_insert] at hoption
          split_ifs at hoption <;> simp_all
        rcases hkv with ⟨rfl, rfl⟩ | ⟨rfl, rfl⟩ <;>
          exact ⟨(hwords _ (by simp)).toPlainKey, (hwords _ (by simp)).toPlain⟩
      all_goals simp [optionAt, iniSpec, namedSection] at hkv
  exact ⟨hplain, (ini_determines_config iniSpec iniInstance hplain).1⟩

end Render

end AuroraOperator

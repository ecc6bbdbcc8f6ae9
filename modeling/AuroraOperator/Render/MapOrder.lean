/-
# The order of maps

Go leaves the order of a loop over a map open, and draws it anew for every loop.  `Render.Config`
reads maps in the order of their keys.  Here are the same functions with the loops the source has,
each of them in any order: merging overwrites key by key, and whatever is written is sorted first.
So the text is the one of `Render.Config` whatever the orders were (`pgBouncerINI_eq_pure`).
-/
import AuroraOperator.Lib.Choice
import AuroraOperator.Render.Overrides

namespace AuroraOperator

namespace Render

namespace Loops

/-- What a loop over a map may see. -/
def range {α : Type} (m : StringMap α) : Choice (List (String × α)) := ⟨{l | l.Perm m.toList}⟩

/-! ## 1. The loops of the source -/

def mergeStringMapInto {α : Type} (base overlay : StringMap α) : Choice (StringMap α) := do
  let entries ← range overlay
  return entries.foldl (fun out kv => out.insert kv.1 kv.2) base

def cloneMap (m : StringMap String) : Choice (StringMap String) := mergeStringMapInto ∅ m

def cloneMapMap (m : StringMap (StringMap String)) : Choice (StringMap (StringMap String)) := do
  let entries ← range m
  entries.foldlM (fun out entry => do
    let values ← cloneMap entry.2
    return out.insert entry.1 values) ∅

def mergeStringMapMapInto (base overlay : StringMap (StringMap String)) :
    Choice (StringMap (StringMap String)) := do
  let entries ← range overlay
  entries.foldlM (fun out entry => do
    let current ← cloneMap (out[entry.1]?.getD ∅)
    let merged ← mergeStringMapInto current entry.2
    return out.insert entry.1 merged) base

def deepCopyConfig (config : PgBouncerConfigSpec) : Choice PgBouncerConfigSpec := do
  let pgbouncer ← cloneMap config.pgbouncer
  let databases ← cloneMapMap config.databases
  let users ← cloneMapMap config.users
  let peers ← cloneMapMap config.peers
  return { pgbouncer, databases, users, peers }

def mergeConfigInto (base overlay : PgBouncerConfigSpec) : Choice PgBouncerConfigSpec := do
  let pgbouncer ← mergeStringMapInto base.pgbouncer overlay.pgbouncer
  let databases ← mergeStringMapMapInto base.databases overlay.databases
  let users ← mergeStringMapMapInto base.users overlay.users
  let peers ← mergeStringMapMapInto base.peers overlay.peers
  return { pgbouncer, databases, users, peers }

def mergedConfig (spec : PgBouncerAuroraSpec) (instanceName : String) :
    Choice PgBouncerConfigSpec := do
  let config ← deepCopyConfig spec.pgbouncer.config
  spec.pgbouncer.instanceOverrides.foldlM (fun config override =>
    if override.name ≠ instanceName then pure config
    else mergeConfigInto config override.config) config

/-- `sortedKeys`, `sortedNames`. -/
def sortedKeys {α : Type} (m : StringMap α) : Choice (List String) := do
  let entries ← range m
  return sortStrings (entries.map (·.1))

def databaseLine (name : String) (spec : PgBouncerAuroraSpec) (observed : InstanceObservation)
    (options : StringMap String) : Choice String := do
  let port := if observed.port = 0 then spec.discovery.port else observed.port
  let port := if port = 0 then 5432 else port
  let parts := [name ++ " =", "host=" ++ observed.endpoint, "port=" ++ toString port]
  let keys ← sortedKeys options
  return joinStrings (parts ++ (keys.filter fun key => !isManagedDatabaseKey key).map
    fun key => key ++ "=" ++ options[key]?.getD "") " "

def writeDatabasesSection (spec : PgBouncerAuroraSpec) (observed : InstanceObservation)
    (databases : StringMap (StringMap String)) : Choice String := do
  let effective ← mergeStringMapInto
    (if databases = ∅ then (∅ : StringMap (StringMap String)).insert "*" ∅ else ∅) databases
  let names ← sortedKeys effective
  let lines ← names.mapM fun name => do
    let line ← databaseLine name spec observed (effective[name]?.getD ∅)
    return line ++ "\n"
  return "[databases]\n" ++ String.join lines ++ "\n"

def writeKeyValueSection (name : String) (values : StringMap String) : Choice String := do
  let keys ← sortedKeys values
  return "[" ++ name ++ "]\n" ++
    String.join (keys.map fun key => key ++ " = " ++ values[key]?.getD "" ++ "\n") ++ "\n"

def writeNamedKeyValueSection (name : String) (values : StringMap (StringMap String)) :
    Choice String := do
  if values = ∅ then return ""
  let names ← sortedKeys values
  let lines ← names.mapM fun name => do
    let options := values[name]?.getD ∅
    let keys ← sortedKeys options
    return name ++ " =" ++
      String.join (keys.map fun key => " " ++ key ++ "=" ++ options[key]?.getD "") ++ "\n"
  return "[" ++ name ++ "]\n" ++ String.join lines ++ "\n"

def listenPort (spec : PgBouncerAuroraSpec) : Choice Int32 := do
  let config ← mergedConfig spec ""
  let value := trimSpace (config.pgbouncer["listen_port"]?.getD "")
  return if value = "" then defaultPgBouncerListenPort
    else match atoi value with
      | none => defaultPgBouncerListenPort
      | some port =>
        if port ≤ 0 ∨ port > 65535 then defaultPgBouncerListenPort else Int32.ofInt port

def pgBouncerINI (spec : PgBouncerAuroraSpec) (observed : InstanceObservation) :
    Choice String := do
  let config ← mergedConfig spec observed.name
  let defaults := (((∅ : StringMap String).insert "auth_type" defaultPgBouncerAuthType).insert
    "auth_file" defaultAuthFilePath).insert "listen_addr" defaultListenAddr
  let merged ← mergeStringMapInto defaults config.pgbouncer
  let port ← listenPort spec
  let pgbouncerConfig := (merged.insert "auth_file" (authFilePathFromConfig config)).insert
    "listen_port" (toString port)
  let databases ← writeDatabasesSection spec observed config.databases
  let settings ← writeKeyValueSection "pgbouncer" pgbouncerConfig
  let users ← writeNamedKeyValueSection "users" config.users
  let peers ← writeNamedKeyValueSection "peers" config.peers
  let text := databases ++ settings ++ users ++ peers
  return String.ofList ((text.toList.reverse.dropWhile (· = '\n')).reverse) ++ "\n"

/-! ## 2. No loop depends on its order -/

theorem range_eq_pure {α β : Type} {m : StringMap α} {f : List (String × α) → Choice β} {b : β}
    (h : ∀ l : List (String × α), l.Perm m.toList → f l = pure b) : (range m >>= f) = pure b :=
  Choice.bind_eq_pure ⟨m.toList, List.Perm.refl _⟩ h

section Orders

variable {α : Type} {m : StringMap α} {l : List (String × α)}

theorem nodup_keys_of_perm (h : l.Perm m.toList) : (l.map (·.1)).Nodup :=
  (h.map _).nodup_iff.mpr (nodup_keys_toList m)

theorem find?_of_perm (h : l.Perm m.toList) (key : String) :
    l.find? (·.1 = key) = m.toList.find? (·.1 = key) := by
  have hsame : ∀ kv ∈ m.toList, ∀ kv' ∈ m.toList, kv.1 = kv'.1 → kv = kv' :=
    List.inj_on_of_nodup_map (nodup_keys_toList m)
  cases hfound : m.toList.find? (·.1 = key) with
  | none =>
    rw [List.find?_eq_none] at hfound ⊢
    exact fun kv hkv => hfound kv (h.mem_iff.mp hkv)
  | some kv =>
    have hkv := List.mem_of_find?_eq_some hfound
    have hkey : kv.1 = key := by simpa using List.find?_some hfound
    cases hl : l.find? (·.1 = key) with
    | none => exact absurd hkey (by simpa using List.find?_eq_none.mp hl kv (h.mem_iff.mpr hkv))
    | some kv' =>
      have hkey' : kv'.1 = key := by simpa using List.find?_some hl
      have hkv' := h.mem_iff.mp (List.mem_of_find?_eq_some hl)
      rw [hsame kv' hkv' kv hkv (hkey'.trans hkey.symm)]

/-- Updating a map key by key, in any order. -/
theorem foldl_update_perm {β : Type} (update : Option β → α → β) (h : l.Perm m.toList)
    (base : StringMap β) :
    l.foldl (fun out kv => out.insert kv.1 (update out[kv.1]? kv.2)) base =
      m.toList.foldl (fun out kv => out.insert kv.1 (update out[kv.1]? kv.2)) base := by
  refine Std.ExtTreeMap.ext_getElem? fun key => ?_
  rw [foldl_update_getElem? update l (nodup_keys_of_perm h),
    foldl_update_getElem? update _ (nodup_keys_toList m), find?_of_perm h]

/-- Sorting forgets the order. -/
theorem sortStrings_of_perm (h : l.Perm m.toList) :
    sortStrings (l.map (·.1)) = m.toList.map (·.1) := by
  have hsorted : (m.toList.map (·.1)).Pairwise (· ≤ ·) := by
    rw [Std.ExtTreeMap.map_fst_toList_eq_keys]
    exact Std.ExtTreeMap.ordered_keys.imp fun hlt => le_of_lt (compare_lt_iff_lt.mp hlt)
  exact ((sortStrings_perm _).trans (h.map _)).eq_of_pairwise
    (fun _ _ _ _ => le_antisymm) (sortStrings_pairwise _) hsorted

end Orders

theorem mergeStringMapInto_eq {α : Type} (base overlay : StringMap α) :
    mergeStringMapInto base overlay = pure (mergeMap base overlay) := by
  refine range_eq_pure fun l hl => congrArg pure ?_
  rw [mergeMap, Std.ExtTreeMap.foldl_eq_foldl_toList]
  exact foldl_update_perm (fun _ value => value) hl base

theorem cloneMap_eq (m : StringMap String) : cloneMap m = pure m := by
  rw [cloneMap, mergeStringMapInto_eq]
  congr 1
  refine Std.ExtTreeMap.ext_getElem? fun key => ?_
  rw [mergeMap_getElem?]
  simp

theorem cloneMapMap_eq (m : StringMap (StringMap String)) : cloneMapMap m = pure m := by
  refine range_eq_pure fun l hl => ?_
  rw [Choice.foldlM_eq_pure (g := fun out entry => out.insert entry.1 entry.2)]
  · congr 1
    refine Std.ExtTreeMap.ext_getElem? fun key => ?_
    rw [foldl_update_getElem? (fun _ value => value) l (nodup_keys_of_perm hl), find?_of_perm hl,
      ← find?_toList m key]
    simp
  · intro out entry _
    rw [cloneMap_eq, Choice.pure_bind]

theorem mergeStringMapMapInto_eq (base overlay : StringMap (StringMap String)) :
    mergeStringMapMapInto base overlay = pure (mergeMapMap base overlay) := by
  refine range_eq_pure fun l hl => ?_
  rw [Choice.foldlM_eq_pure (g := fun out entry =>
    out.insert entry.1 (mergeMap (out[entry.1]?.getD ∅) entry.2))]
  · rw [mergeMapMap, Std.ExtTreeMap.foldl_eq_foldl_toList]
    exact congrArg pure (foldl_update_perm (fun old values => mergeMap (old.getD ∅) values) hl base)
  · intro out entry _
    rw [cloneMap_eq, Choice.pure_bind, mergeStringMapInto_eq, Choice.pure_bind]

theorem mergedConfig_eq (spec : PgBouncerAuroraSpec) (instanceName : String) :
    mergedConfig spec instanceName = pure (Render.mergedConfig spec instanceName) := by
  have hcopy : deepCopyConfig spec.pgbouncer.config = pure spec.pgbouncer.config := by
    simp only [deepCopyConfig, cloneMap_eq, cloneMapMap_eq, Choice.pure_bind]
  have hmerge : ∀ base overlay : PgBouncerConfigSpec,
      mergeConfigInto base overlay = pure (Render.mergeConfigInto base overlay) := by
    intro base overlay
    simp only [mergeConfigInto, mergeStringMapInto_eq, mergeStringMapMapInto_eq, Choice.pure_bind,
      Render.mergeConfigInto]
  rw [mergedConfig, hcopy, Choice.pure_bind, Render.mergedConfig]
  refine Choice.foldlM_eq_pure (fun config override _ => ?_) _
  split
  · rfl
  · exact hmerge _ _

theorem sortedKeys_eq {α : Type} (m : StringMap α) : sortedKeys m = pure (m.toList.map (·.1)) :=
  range_eq_pure fun _ hl => congrArg pure (sortStrings_of_perm hl)

/-- Going through the keys and looking each one up is going through the entries. -/
theorem map_keys {α β : Type} (m : StringMap α) (default : α) (f : String → α → β)
    (keep : String → Bool) :
    ((m.toList.map (·.1)).filter keep).map (fun key => f key (m[key]?.getD default)) =
      (m.toList.filter fun kv => keep kv.1).map fun kv => f kv.1 kv.2 := by
  rw [List.filter_map, List.map_map]
  refine List.map_congr_left fun kv hkv => ?_
  have hvalue : m[kv.1]? = some kv.2 :=
    Std.ExtTreeMap.mem_toList_iff_getElem?_eq_some.mp (List.mem_filter.mp hkv).1
  simp [hvalue]

theorem map_all_keys {α β : Type} (m : StringMap α) (default : α) (f : String → α → β) :
    (m.toList.map (·.1)).map (fun key => f key (m[key]?.getD default)) =
      m.toList.map fun kv => f kv.1 kv.2 := by
  simpa using map_keys m default f fun _ => true

theorem databaseLine_eq (name : String) (spec : PgBouncerAuroraSpec)
    (observed : InstanceObservation) (options : StringMap String) :
    databaseLine name spec observed options =
      pure (Render.databaseLine name spec observed options) := by
  rw [databaseLine, sortedKeys_eq, Choice.pure_bind, Render.databaseLine,
    map_keys options "" (fun key value => key ++ "=" ++ value) fun key => !isManagedDatabaseKey key]

theorem writeDatabasesSection_eq (spec : PgBouncerAuroraSpec) (observed : InstanceObservation)
    (databases : StringMap (StringMap String)) :
    writeDatabasesSection spec observed databases =
      pure (Render.writeDatabasesSection spec observed databases) := by
  have heffective : mergeMap (if databases = ∅ then
      (∅ : StringMap (StringMap String)).insert "*" ∅ else ∅) databases =
      if databases = ∅ then (∅ : StringMap (StringMap String)).insert "*" ∅ else databases := by
    refine Std.ExtTreeMap.ext_getElem? fun key => ?_
    rw [mergeMap_getElem?]
    split
    next hempty => simp [hempty]
    · simp
  rw [writeDatabasesSection, mergeStringMapInto_eq, Choice.pure_bind, heffective, sortedKeys_eq,
    Choice.pure_bind, Choice.mapM_eq_pure (g := fun entry =>
      Render.databaseLine entry.1 spec observed entry.2 ++ "\n"), Choice.pure_bind]
  · rfl
  · intro entry hentry
    rw [databaseLine_eq, Choice.pure_bind,
      Std.ExtTreeMap.mem_toList_iff_getElem?_eq_some.mp hentry, Option.getD_some]

theorem writeKeyValueSection_eq (name : String) (values : StringMap String) :
    writeKeyValueSection name values = pure (Render.writeKeyValueSection name values) := by
  rw [writeKeyValueSection, sortedKeys_eq, Choice.pure_bind, Render.writeKeyValueSection,
    map_all_keys values "" fun key value => key ++ " = " ++ value ++ "\n"]

theorem writeNamedKeyValueSection_eq (name : String) (values : StringMap (StringMap String)) :
    writeNamedKeyValueSection name values = pure (Render.writeNamedKeyValueSection name values) := by
  unfold writeNamedKeyValueSection Render.writeNamedKeyValueSection
  split
  · rfl
  · rw [sortedKeys_eq, Choice.pure_bind, Choice.mapM_eq_pure (g := fun entry =>
      entry.1 ++ " =" ++ String.join (entry.2.toList.map fun kv => " " ++ kv.1 ++ "=" ++ kv.2) ++
        "\n"), Choice.pure_bind]
    intro entry hentry
    rw [← map_all_keys entry.2 "" fun key value => " " ++ key ++ "=" ++ value]
    simp only [Std.ExtTreeMap.mem_toList_iff_getElem?_eq_some.mp hentry, Option.getD_some,
      sortedKeys_eq, Choice.pure_bind]

/-- **The text does not depend on the order of any loop over a map.** -/
theorem pgBouncerINI_eq_pure (spec : PgBouncerAuroraSpec) (observed : InstanceObservation) :
    pgBouncerINI spec observed = pure (Render.pgBouncerINI spec observed) := by
  have hport : listenPort spec = pure (Render.listenPort spec) := by
    cases h : atoi (trimSpace ((Render.mergedConfig spec "").pgbouncer["listen_port"]?.getD "")) <;>
      simp only [listenPort, mergedConfig_eq, Choice.pure_bind, Render.listenPort, h]
  simp only [pgBouncerINI, mergedConfig_eq, mergeStringMapInto_eq, hport, writeDatabasesSection_eq,
    writeKeyValueSection_eq, writeNamedKeyValueSection_eq, Choice.pure_bind]
  rfl

end Loops

end Render

end AuroraOperator

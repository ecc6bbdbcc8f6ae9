/-
# `pgbouncer.ini`

`internal/render/config.go`: the configuration of one instance's PgBouncer, merged from the
spec and the overrides of that instance, and its text.
-/
import AuroraOperator.Api
import AuroraOperator.Render.Names

namespace AuroraOperator

namespace Render

/-! ## 1. Merging -/

/-- `mergeMap`, `mergeStringMapInto`: the overlay wins. -/
def mergeMap {α : Type} (base overlay : StringMap α) : StringMap α :=
  overlay.foldl (fun out key value => out.insert key value) base

theorem getElem?_mergeMap {α : Type} {base overlay : StringMap α} {key : String} {value : α}
    (h : overlay[key]? = some value) : (mergeMap base overlay)[key]? = some value := by
  unfold mergeMap
  rw [Std.ExtTreeMap.foldl_eq_foldl_toList, ← Std.ExtTreeMap.insertMany_list_eq_foldl]
  exact Std.ExtTreeMap.getElem?_insertMany_list_of_mem Std.compare_self
    Std.ExtTreeMap.distinct_keys_toList (Std.ExtTreeMap.mem_toList_iff_getElem?_eq_some.mpr h)

theorem getElem?_mergeMap_of_none {α : Type} {base overlay : StringMap α} {key : String}
    (h : overlay[key]? = none) : (mergeMap base overlay)[key]? = base[key]? := by
  unfold mergeMap
  rw [Std.ExtTreeMap.foldl_eq_foldl_toList, ← Std.ExtTreeMap.insertMany_list_eq_foldl]
  refine Std.ExtTreeMap.getElem?_insertMany_list_of_contains_eq_false ?_
  rw [Std.ExtTreeMap.map_fst_toList_eq_keys, ← Bool.not_eq_true, List.contains_iff_mem,
    Std.ExtTreeMap.mem_keys]
  simpa using h

/-- `mergeStringMapMapInto`: names are united, and the options of a shared name are
merged. -/
def mergeMapMap (base overlay : StringMap (StringMap String)) : StringMap (StringMap String) :=
  overlay.foldl (fun out name values => out.insert name (mergeMap (out[name]?.getD ∅) values)) base

def mergeConfigInto (base overlay : PgBouncerConfigSpec) : PgBouncerConfigSpec :=
  { pgbouncer := mergeMap base.pgbouncer overlay.pgbouncer
    databases := mergeMapMap base.databases overlay.databases
    users := mergeMapMap base.users overlay.users
    peers := mergeMapMap base.peers overlay.peers }

def mergedConfig (spec : PgBouncerAuroraSpec) (instanceName : String) : PgBouncerConfigSpec :=
  spec.pgbouncer.instanceOverrides.foldl (fun config override =>
    if override.name ≠ instanceName then config else mergeConfigInto config override.config)
    spec.pgbouncer.config

/-! ## 2. The port and the auth file -/

def defaultAuthFilePath : String := "/etc/pgbouncer/userlist.txt"
def defaultListenAddr : String := "0.0.0.0"
def defaultPgBouncerAuthType : String := "md5"
def defaultPgBouncerListenPort : Int32 := 6432

/-- The value of a string of decimal digits, if it is one. -/
def digitsValue (digits : List Char) : Option Nat :=
  if digits = [] then none
  else digits.foldl (fun acc c =>
    match acc with
    | some n => if c.isDigit then some (10 * n + (c.toNat - '0'.toNat)) else none
    | none => none) (some 0)

/-- `strconv.Atoi`, without its range check: the callers reject large values themselves. -/
def atoi (s : String) : Option Int :=
  match s.toList with
  | '-' :: digits => (digitsValue digits).map fun n => -(n : Int)
  | '+' :: digits => (digitsValue digits).map fun n => (n : Int)
  | digits => (digitsValue digits).map fun n => (n : Int)

def listenPort (spec : PgBouncerAuroraSpec) : Int32 :=
  let value := trimSpace ((mergedConfig spec "").pgbouncer["listen_port"]?.getD "")
  if value = "" then defaultPgBouncerListenPort
  else match atoi value with
    | none => defaultPgBouncerListenPort
    | some port =>
      if port ≤ 0 ∨ port > 65535 then defaultPgBouncerListenPort else Int32.ofInt port

def authFilePathFromConfig (config : PgBouncerConfigSpec) : String :=
  let value := trimSpace (config.pgbouncer["auth_file"]?.getD "")
  if value = "" then defaultAuthFilePath else value

def authFilePath (spec : PgBouncerAuroraSpec) (instanceName : String) : String :=
  authFilePathFromConfig (mergedConfig spec instanceName)

/-! ## 3. The text -/

def isManagedDatabaseKey (key : String) : Bool :=
  let lower := String.ofList (key.toList.map lowerChar)
  lower == "host" || lower == "port"

def databaseLine (name : String) (spec : PgBouncerAuroraSpec) (observed : InstanceObservation)
    (options : StringMap String) : String :=
  let port := if observed.port = 0 then spec.discovery.port else observed.port
  let port := if port = 0 then 5432 else port
  let parts := [name ++ " =", "host=" ++ observed.endpoint, "port=" ++ toString port]
  joinStrings (parts ++ (options.toList.filter fun kv => !isManagedDatabaseKey kv.1).map
    fun kv => kv.1 ++ "=" ++ kv.2) " "

def writeDatabasesSection (spec : PgBouncerAuroraSpec) (observed : InstanceObservation)
    (databases : StringMap (StringMap String)) : String :=
  let effective := if databases = ∅ then (∅ : StringMap (StringMap String)).insert "*" ∅
    else databases
  "[databases]\n" ++ String.join (effective.toList.map fun kv =>
    databaseLine kv.1 spec observed kv.2 ++ "\n") ++ "\n"

def writeKeyValueSection (name : String) (values : StringMap String) : String :=
  "[" ++ name ++ "]\n" ++
    String.join (values.toList.map fun kv => kv.1 ++ " = " ++ kv.2 ++ "\n") ++ "\n"

/-- The `ignored` set of the source is nil at both of its callers. -/
def writeNamedKeyValueSection (name : String) (values : StringMap (StringMap String)) : String :=
  if values = ∅ then ""
  else "[" ++ name ++ "]\n" ++ String.join (values.toList.map fun entry =>
    entry.1 ++ " =" ++ String.join (entry.2.toList.map fun kv => " " ++ kv.1 ++ "=" ++ kv.2) ++
      "\n") ++ "\n"

def pgBouncerINI (spec : PgBouncerAuroraSpec) (observed : InstanceObservation) : String :=
  let config := mergedConfig spec observed.name
  let defaults := (((∅ : StringMap String).insert "auth_type" defaultPgBouncerAuthType).insert
    "auth_file" defaultAuthFilePath).insert "listen_addr" defaultListenAddr
  let pgbouncerConfig := ((mergeMap defaults config.pgbouncer).insert
    "auth_file" (authFilePathFromConfig config)).insert "listen_port" (toString (listenPort spec))
  let text := writeDatabasesSection spec observed config.databases ++
    writeKeyValueSection "pgbouncer" pgbouncerConfig ++
    writeNamedKeyValueSection "users" config.users ++
    writeNamedKeyValueSection "peers" config.peers
  String.ofList ((text.toList.reverse.dropWhile (· = '\n')).reverse) ++ "\n"

end Render

end AuroraOperator

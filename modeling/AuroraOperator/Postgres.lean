/-
# Connection strings

`internal/postgres/connect.go`.  Credentials are read from a Secret and written, with the endpoint,
into a URL.  Passwords are arbitrary bytes, so strings are byte strings here, as they are in Go.

`connString_reads_back`: for an endpoint whose host is a plain name, `net/url` reads the string
back.  Whatever bytes the user name, the password, the database and the TLS mode have, they come
out as they went in, and none of them shows up in another component or in the host.  Only the
slash in front of the path cannot be told from one that the database name begins with.  What the
driver makes of the components is its own business.
-/
import AuroraOperator.Lib.Url
import AuroraOperator.Go

namespace AuroraOperator

namespace Postgres

open Url

/-! ## 1. `ConnString` -/

structure ConnInfo where
  host : Bytes
  port : Int32 := 0
  database : Bytes := []
  username : Bytes
  password : Bytes
  sslMode : Bytes := []
  deriving DecidableEq

/-- `strconv.Itoa`. -/
def itoa (n : Int) : Bytes :=
  (if n < 0 then [byte '-'] else []) ++ (Nat.toDigits 10 n.natAbs).map byte

def ConnInfo.effectivePort (info : ConnInfo) : Int32 := if info.port = 0 then 5432 else info.port

def ConnInfo.effectiveDatabase (info : ConnInfo) : Bytes :=
  if info.database = [] then ascii "postgres" else info.database

def ConnInfo.effectiveSSLMode (info : ConnInfo) : Bytes :=
  if info.sslMode = [] then ascii "require" else info.sslMode

def connString (info : ConnInfo) : Bytes :=
  URL.string
    { scheme := ascii "postgres"
      username := info.username
      password := info.password
      host := info.host ++ [byte ':'] ++ itoa info.effectivePort.toInt
      path := info.effectiveDatabase
      rawQuery := escape (ascii "sslmode") .queryComponent ++ [byte '='] ++
        escape info.effectiveSSLMode .queryComponent }

/-! ## 2. Credentials -/

/-- The values a Secret holds. -/
structure SecretValues where
  nameSpace : String
  name : String
  data : StringMap Bytes := ∅
  stringData : StringMap Bytes := ∅

/-- A user name and a password, in the texts that the caller works with. -/
structure Credentials (Text : Type) where
  username : Text
  password : Text
  deriving DecidableEq

/-- The first key that is there decides, even with an empty value. -/
def firstSecretValue (secret : SecretValues) : List String → Bytes
  | [] => []
  | key :: keys =>
    match secret.data[key]? with
    | some value => value
    | none =>
      match secret.stringData[key]? with
      | some value => value
      | none => firstSecretValue secret keys

def credentialsFromSecret (secret : SecretValues) : Except String (Credentials Bytes) :=
  let username := firstSecretValue secret ["username", "user"]
  let password := firstSecretValue secret ["password"]
  if username = [] then
    .error ("secret " ++ secret.nameSpace ++ "/" ++ secret.name ++ " missing username")
  else if password = [] then
    .error ("secret " ++ secret.nameSpace ++ "/" ++ secret.name ++ " missing password")
  else .ok { username := username, password := password }

/-! ## 3. What was written reads back -/

/-- A number that is not negative is written in digits. -/
theorem isDigit_of_mem_itoa {n : Int} (hn : 0 ≤ n) {c : UInt8} (h : c ∈ itoa n) :
    isDigit c = true := by
  have hall : ∀ n < 58, 48 ≤ n → isDigit (UInt8.ofNat n) = true := by decide
  rw [itoa, if_neg (by omega), List.nil_append] at h
  obtain ⟨d, hd, rfl⟩ := List.mem_map.mp h
  have hdigit := Nat.isDigit_of_mem_toDigits (by decide) (by decide) hd
  simp only [Char.isDigit, Bool.and_eq_true, decide_eq_true_eq] at hdigit
  exact hall d.toNat (Nat.lt_succ_of_le hdigit.2) hdigit.1

theorem effectivePort_nonneg {info : ConnInfo} (h : 0 ≤ info.port.toInt) :
    0 ≤ info.effectivePort.toInt := by
  unfold ConnInfo.effectivePort
  split
  · decide
  · exact h

theorem effectiveDatabase_ne_nil (info : ConnInfo) : info.effectiveDatabase ≠ [] := by
  unfold ConnInfo.effectiveDatabase
  split
  · decide
  · assumption

/-- The query of a connection string. -/
def sslQuery (info : ConnInfo) : Bytes :=
  escape (ascii "sslmode") .queryComponent ++ [byte '='] ++
    escape info.effectiveSSLMode .queryComponent

theorem escape_sslmode : escape (ascii "sslmode") .queryComponent = ascii "sslmode" := by
  decide +kernel

theorem sslQuery_eq (info : ConnInfo) :
    sslQuery info = ascii "sslmode" ++ byte '=' :: escape info.effectiveSSLMode .queryComponent := by
  rw [sslQuery, escape_sslmode]
  simp

theorem free_sslQuery (info : ConnInfo) : ∀ c ∈ sslQuery info, free (ascii "#&;") c = true := by
  intro c hc
  rw [sslQuery_eq, List.mem_append, List.mem_cons] at hc
  rcases hc with hc | rfl | hc
  · exact (show ∀ c ∈ ascii "sslmode", free (ascii "#&;") c = true by
      decide +kernel) c hc
  · decide
  · exact free_query _ c hc

theorem parseQuery_sslQuery (info : ConnInfo) :
    parseQuery (sslQuery info) = some [(ascii "sslmode", info.effectiveSSLMode)] := by
  have hfree := free_sslQuery info
  have hone : (sslQuery info).splitOn (byte '&') = [sslQuery info] :=
    List.splitOnP_eq_singleton fun c hc => by
      have hamp : byte '&' ∉ sslQuery info := notMem_of_free hfree (by decide)
      simpa using fun (heq : c = byte '&') => hamp (heq ▸ hc)
  have hcut : cut (byte '=') (sslQuery info)
      = (ascii "sslmode", escape info.effectiveSSLMode .queryComponent) := by
    rw [sslQuery_eq]
    exact cut_append (by decide) _
  have hkey := @unescape_escape .queryComponent (by decide) (ascii "sslmode")
  rw [escape_sslmode] at hkey
  have hpair : parsePair (sslQuery info) = some (ascii "sslmode", info.effectiveSSLMode) := by
    rw [parsePair, if_neg (notMem_of_free hfree (by decide)), hcut, hkey,
      unescape_escape (by decide)]
    rfl
  have hne : sslQuery info ≠ [] := by rw [sslQuery_eq]; simp
  rw [parseQuery, hone]
  simp [hpair, hne]

/-- **A connection string reads back.**  Every component is what was given, or its default, with a
slash in front of the database. -/
theorem connString_reads_back (info : ConnInfo) (hhost : ∀ c ∈ info.host, unreserved c = true)
    (hport : 0 ≤ info.port.toInt) :
    ∃ hostport rawQuery, parse (connString info) = some
        { scheme := ascii "postgres"
          user := some (info.username, some info.password)
          host := hostport
          path := rooted info.effectiveDatabase
          rawQuery := rawQuery } ∧
      splitHostPort hostport = (info.host, itoa info.effectivePort.toInt) ∧
      parseQuery rawQuery = some [(ascii "sslmode", info.effectiveSSLMode)] := by
  have hreadable : URL.Readable
      { scheme := ascii "postgres"
        username := info.username
        password := info.password
        host := info.host ++ [byte ':'] ++ itoa info.effectivePort.toInt
        path := info.effectiveDatabase
        rawQuery := sslQuery info } info.host (itoa info.effectivePort.toInt) :=
    { scheme := show ascii "postgres" ≠ [] ∧
        ∀ c ∈ ascii "postgres", byte 'a' ≤ c ∧ c ≤ byte 'z' by decide +kernel
      host := by simp
      name := hhost
      port := fun c hc => isDigit_of_mem_itoa (effectivePort_nonneg hport) hc
      path := effectiveDatabase_ne_nil info
      query := fun c hc => free_mono (by decide) (free_sslQuery info c hc) }
  exact ⟨_, _, parse_string hreadable, splitHostPort_host hreadable, parseQuery_sslQuery info⟩

/-- A password made of nothing but separators. -/
theorem password_of_separators :
    let info : ConnInfo := { host := ascii "db.local", username := ascii "me",
                             password := ascii "p@evil:1/x?sslmode=off#" }
    ∃ hostport rawQuery, parse (connString info) = some
        { scheme := ascii "postgres"
          user := some (ascii "me", some (ascii "p@evil:1/x?sslmode=off#"))
          host := hostport
          path := ascii "/postgres"
          rawQuery := rawQuery } ∧
      splitHostPort hostport = (ascii "db.local", ascii "5432") ∧
      parseQuery rawQuery = some [(ascii "sslmode", ascii "require")] :=
  connString_reads_back { host := ascii "db.local", username := ascii "me",
                          password := ascii "p@evil:1/x?sslmode=off#" }
    (by decide +kernel) (by decide)

end Postgres

end AuroraOperator

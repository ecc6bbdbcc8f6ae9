/-
# Where the rows come from

`internal/discovery/kubernetes.go` and `sql.go`.  The row source asks the writer endpoint of the
Aurora cluster, and when that fails the reader endpoint; an answer is a cursor that may break off
at any row.

`trusted_topology_is_one_answer`: a trusted topology is the complete answer of one database, the
first that gave one.  Rows of a cursor that broke off never count, not even together with those of
another endpoint, so that a failover in the middle of a query cannot look like the loss of an
instance.
-/
import AuroraOperator.Discovery.Views
import AuroraOperator.Discovery.Metadata
import AuroraOperator.Postgres

namespace AuroraOperator

namespace Discovery

open Postgres

/-- A sequence of fallible steps returns when both of its parts do. -/
theorem exceptBind_eq_ok {ε α β : Type} {x : Except ε α} {f : α → Except ε β} {b : β} :
    (x >>= f) = .ok b ↔ ∃ a, x = .ok a ∧ f a = .ok b := by
  cases x with
  | error err => simp [bind, Except.bind]
  | ok a => simp [bind, Except.bind]

/-! ## 1. Reading a cursor -/

/-- What `rows.Next`, `rows.Scan` and, at the end, `rows.Err` come to. -/
inductive Cursor where
  | done (err : Option String)
  | row (scanned : Except String AuroraReplicaStatusRow) (rest : Cursor)

/-- The loop of `RowsFromStandardQueryer`, and of `SQLRowSource.Rows`. -/
def Cursor.read : List AuroraReplicaStatusRow → Cursor → Except String (List AuroraReplicaStatusRow)
  | out, .done none => .ok out
  | _, .done (some err) => .error err
  | _, .row (.error err) _ => .error err
  | out, .row (.ok found) rest => rest.read (out ++ [found])

def rowsFromStandardQueryer (query : Except String Cursor) :
    Except String (List AuroraReplicaStatusRow) := do
  let rows ← query
  rows.read []

/-- The cursor over some rows that comes to its end. -/
def Cursor.over (rows : List AuroraReplicaStatusRow) : Cursor :=
  rows.foldr (fun row rest => .row (.ok row) rest) (.done none)

/-- Reading returns what the cursor was over, and nothing if it broke off. -/
theorem Cursor.read_eq_ok {cursor : Cursor} {out rows : List AuroraReplicaStatusRow} :
    cursor.read out = .ok rows ↔ ∃ rest, cursor = Cursor.over rest ∧ rows = out ++ rest := by
  induction cursor generalizing out with
  | done err =>
    cases err with
    | none =>
      constructor
      · intro h
        cases h
        exact ⟨[], rfl, (List.append_nil _).symm⟩
      · rintro ⟨rest, hcursor, rfl⟩
        cases rest with
        | nil => simp [Cursor.read]
        | cons found rest => cases hcursor
    | some err =>
      refine iff_of_false (by simp [Cursor.read]) ?_
      rintro ⟨rest, hcursor, -⟩
      cases rest <;> cases hcursor
  | row scanned rest ih =>
    cases scanned with
    | error err =>
      refine iff_of_false (by simp [Cursor.read]) ?_
      rintro ⟨rest', hcursor, -⟩
      cases rest' <;> cases hcursor
    | ok found =>
      show rest.read (out ++ [found]) = .ok rows ↔ _
      rw [ih]
      constructor
      · rintro ⟨rest', rfl, rfl⟩
        exact ⟨found :: rest', rfl, by simp⟩
      · rintro ⟨rest', hcursor, rfl⟩
        cases rest' with
        | nil => cases hcursor
        | cons found' rest' =>
          cases hcursor
          exact ⟨rest', rfl, by simp⟩

theorem rowsFromStandardQueryer_eq_ok {query : Except String Cursor}
    {rows : List AuroraReplicaStatusRow} :
    rowsFromStandardQueryer query = .ok rows ↔ query = .ok (Cursor.over rows) := by
  unfold rowsFromStandardQueryer
  rw [exceptBind_eq_ok]
  constructor
  · rintro ⟨cursor, rfl, hread⟩
    obtain ⟨rest, rfl, rfl⟩ := Cursor.read_eq_ok.mp hread
    rfl
  · intro hquery
    exact ⟨_, hquery, Cursor.read_eq_ok.mpr ⟨rows, rfl, rfl⟩⟩

/-! ## 2. Endpoints -/

structure DiscoveryEndpointSpec where
  host : String := ""
  port : Int32 := 0
  deriving DecidableEq, Repr

/-- The fields of `spec.discovery` that only the row source reads. -/
structure ConnectionSpec where
  writer : DiscoveryEndpointSpec := {}
  reader : DiscoveryEndpointSpec := {}
  database : String := ""
  sslMode : String := ""
  authSecretRef : String := ""
  deriving DecidableEq, Repr

structure DiscoveryEndpoint where
  name : String
  host : String
  port : Int32
  deriving DecidableEq, Repr

def auroraWriterEndpoint (clusterName domainName : String) : String :=
  renderAuroraEndpoint "{clusterName}.cluster-{domainName}"
    [("clusterName", clusterName), ("domainName", domainName)]

def auroraReaderEndpoint (clusterName domainName : String) : String :=
  renderAuroraEndpoint "{clusterName}.cluster-ro-{domainName}"
    [("clusterName", clusterName), ("domainName", domainName)]

def defaultPortInt32 (value fallback : Int32) : Int32 := if value = 0 then fallback else value

def defaultString (value fallback : String) : String := if value = "" then fallback else value

/-- One of the two endpoints: as configured, else by the cluster's name, else none. -/
def endpointFor (name : String) (configured : DiscoveryEndpointSpec)
    (named : String → String → String) (spec : DiscoverySpec) : List DiscoveryEndpoint :=
  let defaultPort := if spec.port = 0 then 5432 else spec.port
  if configured.host ≠ "" then
    [{ name := name, host := configured.host, port := defaultPortInt32 configured.port defaultPort }]
  else if spec.clusterName ≠ "" && spec.domainName ≠ "" then
    [{ name := name, host := named spec.clusterName spec.domainName, port := defaultPort }]
  else []

def discoveryEndpoints (connection : ConnectionSpec) (resource : PgBouncerAurora) :
    List DiscoveryEndpoint :=
  endpointFor "writer" connection.writer auroraWriterEndpoint resource.spec.discovery ++
    endpointFor "reader" connection.reader auroraReaderEndpoint resource.spec.discovery

/-! ## 3. `Rows` -/

def utf8 (s : String) : Url.Bytes := s.toUTF8.data.toList

/-- What a row source meets: the Secrets of the namespace, and the databases. -/
structure Surroundings where
  secret : String → Except String SecretValues
  /-- opening a connection, and then the query on it -/
  connect : ConnInfo → Except String (Except String Cursor)

/-- How an endpoint is connected to. -/
def connInfo (connection : ConnectionSpec) (creds : Credentials Url.Bytes) (endpoint : DiscoveryEndpoint) :
    ConnInfo where
  host := utf8 endpoint.host
  port := endpoint.port
  database := utf8 (defaultString connection.database "postgres")
  username := creds.username
  password := creds.password
  sslMode := utf8 connection.sslMode

section Rows

variable (around : Surroundings) (connection : ConnectionSpec) (creds : Credentials Url.Bytes)

def rowsFromEndpoint (endpoint : DiscoveryEndpoint) :
    Except String (List AuroraReplicaStatusRow) := do
  let db ← around.connect (connInfo connection creds endpoint)
  rowsFromStandardQueryer db

/-- How a failed endpoint is reported. -/
def endpointError (endpoint : DiscoveryEndpoint) (err : String) : String :=
  endpoint.name ++ " endpoint " ++ endpoint.host ++ ":" ++ toString endpoint.port.toInt ++
    " failed: " ++ err

/-- The loop of `Rows`, with the errors so far. -/
def rowsFromEndpoints (errs : List String) :
    List DiscoveryEndpoint → Except String (List AuroraReplicaStatusRow)
  | [] => .error ("aurora replica status query failed on all discovery endpoints: " ++
      joinStrings errs "\n")
  | endpoint :: endpoints =>
    match rowsFromEndpoint around connection creds endpoint with
    | .ok rows => .ok rows
    | .error err => rowsFromEndpoints (errs ++ [endpointError endpoint err]) endpoints

/-- `KubernetesRowSource.Rows`. -/
def kubernetesRows (resource : PgBouncerAurora) : Except String (List AuroraReplicaStatusRow) :=
  let endpoints := discoveryEndpoints connection resource
  if endpoints = [] then
    .error "spec.discovery.clusterName/domainName or clusterEndpoints.writer.host is empty"
  else if connection.authSecretRef = "" then .error "spec.discovery.authSecretRef.name is empty"
  else do
    let secret ← around.secret connection.authSecretRef
    let creds ← credentialsFromSecret secret
    rowsFromEndpoints around connection creds [] endpoints

end Rows

/-! ## 4. The first complete answer -/

section Answers

variable {around : Surroundings} {connection : ConnectionSpec} {creds : Credentials Url.Bytes}
  {rows : List AuroraReplicaStatusRow}

/-- The database at the endpoint answers with these rows, all of them. -/
def Answers (around : Surroundings) (connection : ConnectionSpec) (creds : Credentials Url.Bytes)
    (endpoint : DiscoveryEndpoint) (rows : List AuroraReplicaStatusRow) : Prop :=
  around.connect (connInfo connection creds endpoint) = .ok (.ok (Cursor.over rows))

theorem rowsFromEndpoint_eq_ok {endpoint : DiscoveryEndpoint} :
    rowsFromEndpoint around connection creds endpoint = .ok rows ↔
      Answers around connection creds endpoint rows := by
  unfold rowsFromEndpoint Answers
  rw [exceptBind_eq_ok]
  constructor
  · rintro ⟨query, hconnect, hrows⟩
    rw [hconnect, rowsFromStandardQueryer_eq_ok.mp hrows]
  · intro hconnect
    exact ⟨_, hconnect, rowsFromStandardQueryer_eq_ok.mpr rfl⟩

/-- The rows are the complete answer of an endpoint before which none has answered. -/
def FirstAnswer (around : Surroundings) (connection : ConnectionSpec) (creds : Credentials Url.Bytes)
    (endpoints : List DiscoveryEndpoint) (rows : List AuroraReplicaStatusRow) : Prop :=
  ∃ failed endpoint others, endpoints = failed ++ endpoint :: others ∧
    (∀ e ∈ failed, ∀ rows', ¬ Answers around connection creds e rows') ∧
    Answers around connection creds endpoint rows

theorem rowsFromEndpoints_eq_ok {endpoints : List DiscoveryEndpoint} {errs : List String} :
    rowsFromEndpoints around connection creds errs endpoints = .ok rows ↔
      FirstAnswer around connection creds endpoints rows := by
  induction endpoints generalizing errs with
  | nil =>
    refine iff_of_false nofun ?_
    rintro ⟨failed, endpoint, others, hsplit, -⟩
    cases failed <;> cases hsplit
  | cons endpoint endpoints ih =>
    unfold rowsFromEndpoints
    cases hone : rowsFromEndpoint around connection creds endpoint with
    | ok answer =>
      have hanswer := rowsFromEndpoint_eq_ok.mp hone
      constructor
      · intro h
        cases h
        exact ⟨[], endpoint, endpoints, rfl, nofun, hanswer⟩
      · rintro ⟨failed, e, others, hsplit, hfailed, hrows⟩
        cases failed with
        | nil =>
          cases hsplit
          rw [← rowsFromEndpoint_eq_ok, hone] at hrows
          exact hrows
        | cons e' failed =>
          cases hsplit
          exact absurd hanswer (hfailed _ List.mem_cons_self _)
    | error err =>
      have hnone (rows' : List AuroraReplicaStatusRow) :
          ¬ Answers around connection creds endpoint rows' := by
        rw [← rowsFromEndpoint_eq_ok, hone]
        exact nofun
      show rowsFromEndpoints around connection creds _ endpoints = .ok rows ↔ _
      rw [ih]
      constructor
      · rintro ⟨failed, e, others, rfl, hfailed, hrows⟩
        refine ⟨endpoint :: failed, e, others, rfl, ?_, hrows⟩
        rintro e' (_ | ⟨_, hmem⟩)
        · exact hnone
        · exact hfailed e' hmem
      · rintro ⟨failed, e, others, hsplit, hfailed, hrows⟩
        cases failed with
        | nil =>
          cases hsplit
          exact absurd hrows (hnone _)
        | cons e' failed =>
          cases hsplit
          exact ⟨failed, e, others, rfl, fun e'' he => hfailed e'' (List.mem_cons_of_mem _ he), hrows⟩

theorem FirstAnswer.endpoints_ne_nil {endpoints : List DiscoveryEndpoint}
    (h : FirstAnswer around connection creds endpoints rows) : endpoints ≠ [] := by
  obtain ⟨failed, endpoint, others, rfl, -⟩ := h
  simp

/-- `Rows`, read backwards. -/
theorem kubernetesRows_eq_ok {resource : PgBouncerAurora} :
    kubernetesRows around connection resource = .ok rows ↔
      connection.authSecretRef ≠ "" ∧ ∃ secret creds,
        around.secret connection.authSecretRef = .ok secret ∧
        credentialsFromSecret secret = .ok creds ∧
        FirstAnswer around connection creds (discoveryEndpoints connection resource) rows := by
  unfold kubernetesRows
  dsimp only
  split
  · rename_i hnone
    refine iff_of_false nofun ?_
    rintro ⟨-, secret, creds, -, -, hfirst⟩
    exact hfirst.endpoints_ne_nil hnone
  · split
    · rename_i href
      exact iff_of_false nofun fun h => h.1 href
    · rename_i href
      simp only [exceptBind_eq_ok, rowsFromEndpoints_eq_ok]
      constructor
      · rintro ⟨secret, hsecret, creds, hcreds, hfirst⟩
        exact ⟨href, secret, creds, hsecret, hcreds, hfirst⟩
      · rintro ⟨-, secret, creds, hsecret, hcreds, hfirst⟩
        exact ⟨secret, hsecret, creds, hcreds, hfirst⟩

end Answers

/-! ## 5. Trusted topologies -/

/-- What decides about traffic in an observation, and in a row. -/
def seen (o : InstanceObservation) : String × Role := (o.name, o.role)

def listed (row : AuroraReplicaStatusRow) : String × Role :=
  (rowName row, roleFromSessionID row.sessionID)

theorem buildResult_seen {resource : PgBouncerAurora} {rows : List AuroraReplicaStatusRow}
    {metadata : Metadata} (h : (buildResult resource rows metadata).trusted = true) :
    ((buildResult resource rows metadata).instances.map seen).Perm (rows.map listed) := by
  obtain ⟨instances, hloop, -, hsorted⟩ := buildResult_trusted h
  obtain ⟨-, -, -, rfl⟩ := buildRows_eq_ok.mp hloop
  rw [hsorted]
  refine ((List.perm_insertionSort _ _).map seen).trans ?_
  rw [List.nil_append, List.map_map]
  refine List.Perm.of_eq (List.map_congr_left fun row _ => ?_)
  show (rowName row, (observe resource metadata row).role) = listed row
  rw [observe_role]
  rfl

/-- A trusted result is made from the rows of the source, one instance a row. -/
theorem discover_seen {p : Provider} {resource : PgBouncerAurora}
    (h : (p.discover resource).trusted = true) : ∃ rows, p.rows = some (.ok rows) ∧
      ((p.discover resource).instances.map seen).Perm (rows.map listed) := by
  -- metadata decides neither trust nor names nor roles
  have hsame := (discover_enriches p resource).1
  have hseen : (p.discover resource).instances.map seen
      = (Provider.discover ⟨p.rows, none⟩ resource).instances.map seen := by
    have hdecided := congrArg (List.map fun d : String × String × Int32 × Role => (d.1, d.2.2.2))
      hsame.instances
    rw [List.map_map, List.map_map] at hdecided
    exact hdecided
  rw [hsame.trusted] at h
  rw [hseen]
  obtain ⟨rows, metadata⟩ := p
  rcases rows with - | (err | rows)
  · cases h
  · cases h
  · exact ⟨rows, rfl, buildResult_seen h⟩

/-- **A trusted topology is the complete answer of one database.**  It is that of the first endpoint
that answered at all; whatever cursors broke off before it left no trace. -/
theorem trusted_topology_is_one_answer (around : Surroundings) (connection : ConnectionSpec)
    (metadata : Option (List String → Except String Metadata)) (resource : PgBouncerAurora)
    (h : (Provider.discover ⟨some (kubernetesRows around connection resource), metadata⟩
      resource).trusted = true) :
    ∃ secret creds rows, around.secret connection.authSecretRef = .ok secret ∧
      credentialsFromSecret secret = .ok creds ∧
      FirstAnswer around connection creds (discoveryEndpoints connection resource) rows ∧
      ((Provider.discover ⟨some (kubernetesRows around connection resource), metadata⟩
        resource).instances.map seen).Perm (rows.map listed) := by
  obtain ⟨rows, hrows, hseen⟩ := discover_seen h
  obtain ⟨-, secret, creds, hsecret, hcreds, hfirst⟩ :=
    kubernetesRows_eq_ok.mp (Option.some.inj hrows)
  exact ⟨secret, creds, rows, hsecret, hcreds, hfirst, hseen⟩

/-- The writer's database goes away in the middle of its answer; the reader's answers. -/
def brokenWriter : Surroundings where
  secret := fun name => .ok
    { nameSpace := "default", name := name
      data := ((∅ : StringMap Url.Bytes).insert "username" [1]).insert "password" [2] }
  connect := fun info =>
    if info.port = 1 then
      .ok (.ok (.row (.ok { serverID := "b", sessionID := "" }) (.done (some "connection reset"))))
    else .ok (.ok (Cursor.over [{ serverID := "a", sessionID := "MASTER_SESSION_ID" },
      { serverID := "b", sessionID := "" }]))

def twoEndpoints : ConnectionSpec where
  writer := { host := "w", port := 1 }
  reader := { host := "r", port := 2 }
  authSecretRef := "auth"

theorem brokenWriter_topology :
    let result := Provider.discover
      ⟨some (kubernetesRows brokenWriter twoEndpoints exampleResource), none⟩ exampleResource
    result.trusted = true ∧ result.instances.map seen = [("a", .writer), ("b", .reader)] ∧
    ∃ secret creds rows, brokenWriter.secret twoEndpoints.authSecretRef = .ok secret ∧
      credentialsFromSecret secret = .ok creds ∧
      FirstAnswer brokenWriter twoEndpoints creds (discoveryEndpoints twoEndpoints exampleResource)
        rows ∧ (result.instances.map seen).Perm (rows.map listed) := by
  intro result
  have htrusted : result.trusted = true := by decide +kernel
  exact ⟨htrusted, by decide +kernel,
    trusted_topology_is_one_answer brokenWriter twoEndpoints none exampleResource htrusted⟩

end Discovery

end AuroraOperator

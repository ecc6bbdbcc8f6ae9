/-
# Discovery: from `aurora_replica_status` rows to a topology

`internal/discovery/aurora.go`.  `buildResult` turns the rows of one query, together with
whatever RDS metadata is at hand, into a `DiscoveryResult`; `Provider.discover` is the whole
call, with its three ways to end up untrusted (no row source, a failed query, rows that do
not make a topology).

The main result is `buildResult_wellFormed`: a TRUSTED result has non-empty, pairwise
distinct names and exactly one writer.  Everything the controller proves about a topology it
has stored starts from there.
-/
import AuroraOperator.Api

namespace AuroraOperator

namespace Discovery

def masterSessionID : String := "MASTER_SESSION_ID"

structure AuroraReplicaStatusRow where
  serverID : String
  sessionID : String
  deriving DecidableEq, Repr

structure InstanceMetadata where
  instanceName : String
  availabilityZone : String := ""
  dbiResourceId : String := ""
  status : String := ""
  deriving DecidableEq, Repr

/-! ## 1. Endpoints -/

/-- `strings.ReplaceAll` on characters; each round drops at least one, so the length of the
text bounds the rounds. -/
def replaceChars (old new : List Char) : Nat → List Char → List Char
  | 0, text => text
  | _ + 1, [] => []
  | fuel + 1, c :: rest =>
    if old.isPrefixOf (c :: rest) ∧ old ≠ [] then
      new ++ replaceChars old new fuel ((c :: rest).drop old.length)
    else
      c :: replaceChars old new fuel rest

def replaceAll (s old new : String) : String :=
  String.ofList (replaceChars old.toList new.toList (s.toList.length + 1) s.toList)

/-- A key between braces. -/
def placeholder (key : String) : String := String.ofList ('{' :: key.toList ++ ['}'])

/-- The source ranges over a map here, so the order of the replacements is not fixed; it
shows only when a value contains a placeholder itself. -/
def renderAuroraEndpoint (template : String) (values : List (String × String)) : String :=
  values.foldl (fun out kv => replaceAll out (placeholder kv.1) (trimSpace kv.2)) template

def auroraInstanceEndpoint (instanceName domainName : String) : String :=
  renderAuroraEndpoint "{instanceName}.{domainName}"
    [("instanceName", instanceName), ("domainName", domainName)]

/-! ## 2. What a row falls back on -/

/-- The stored topology by trimmed name; the last entry of a name wins. -/
def previousTopology (resource : PgBouncerAurora) : StringMap InstanceTopologyStatus :=
  resource.status.lastKnownTopology.foldl (fun out entry =>
    let name := trimSpace entry.instanceName
    if name ≠ "" then out.insert name entry else out) ∅

def endpointForInstance (resource : PgBouncerAurora) (name : String)
    (previous : StringMap InstanceTopologyStatus) : String :=
  if trimSpace resource.spec.discovery.domainName ≠ "" then
    auroraInstanceEndpoint name resource.spec.discovery.domainName
  else
    match previous[name]? with
    | some item => trimSpace item.endpoint
    | none => ""

def availabilityZoneForInstance (name : String) (metadata : Option InstanceMetadata)
    (previous : StringMap InstanceTopologyStatus) : String :=
  let zone := trimSpace ((metadata.map (·.availabilityZone)).getD "")
  if zone ≠ "" then zone
  else match previous[name]? with
    | some item => trimSpace item.availabilityZone
    | none => ""

def dbiResourceIdForInstance (name : String) (metadata : Option InstanceMetadata)
    (previous : StringMap InstanceTopologyStatus) : String :=
  let id := trimSpace ((metadata.map (·.dbiResourceId)).getD "")
  if id ≠ "" then id
  else match previous[name]? with
    | some item => trimSpace item.dbiResourceId
    | none => ""

def portForInstance (resource : PgBouncerAurora) (name : String)
    (previous : StringMap InstanceTopologyStatus) : Int32 :=
  if resource.spec.discovery.port > 0 then resource.spec.discovery.port
  else match previous[name]? with
    | some item => if item.port > 0 then item.port else 0
    | none => 0

def roleFromSessionID (sessionID : String) : Role :=
  if equalFold (trimSpace sessionID) masterSessionID then .writer else .reader

/-! ## 3. `BuildResult` -/

def untrusted (reason : String) : DiscoveryResult := { trusted := false, reason := reason }

/-- The observation one row makes, once its name has passed the checks. -/
def observationFor (resource : PgBouncerAurora) (metadata : StringMap InstanceMetadata)
    (previous : StringMap InstanceTopologyStatus) (name endpoint : String)
    (row : AuroraReplicaStatusRow) : InstanceObservation :=
  let port := portForInstance resource name previous
  { name := name
    endpoint := endpoint
    port := if port = 0 then 5432 else port
    role := roleFromSessionID row.sessionID
    availabilityZone := availabilityZoneForInstance name metadata[name]? previous
    dbiResourceId := dbiResourceIdForInstance name metadata[name]? previous }

/-- The loop over the rows.  `instances` are the observations made so far: their names are
the source's `seen` set, and the writers among them are what `writerCount` counts. -/
def buildRows (resource : PgBouncerAurora) (metadata : StringMap InstanceMetadata)
    (previous : StringMap InstanceTopologyStatus) :
    List InstanceObservation → List AuroraReplicaStatusRow →
      Except String (List InstanceObservation)
  | instances, [] => .ok instances
  | instances, row :: rows =>
    let name := trimSpace row.serverID
    if name = "" then .error "aurora_replica_status row has empty server_id"
    else if name ∈ instances.map (·.name) then .error ("duplicate instanceName " ++ quote name)
    else
      let endpoint := endpointForInstance resource name previous
      if endpoint = "" then .error ("endpoint missing for instance " ++ quote name)
      else buildRows resource metadata previous
        (instances ++ [observationFor resource metadata previous name endpoint row]) rows

def writerCount (instances : List InstanceObservation) : Nat :=
  instances.countP (·.role = .writer)

/-- `sort.Slice` by name. -/
def sortObservations (instances : List InstanceObservation) : List InstanceObservation :=
  instances.insertionSort (fun a b => a.name ≤ b.name)

def buildResult (resource : PgBouncerAurora) (rows : List AuroraReplicaStatusRow)
    (metadata : StringMap InstanceMetadata) : DiscoveryResult :=
  if rows = [] then untrusted "aurora_replica_status returned no rows"
  else match buildRows resource metadata (previousTopology resource) [] rows with
    | .error reason => untrusted reason
    | .ok instances =>
      if writerCount instances ≠ 1 then
        untrusted ("expected exactly one writer, got " ++ toString (writerCount instances))
      else if instances = [] then untrusted "no usable instances discovered"
      else { trusted := true
             instances := sortObservations instances
             reason := "aurora discovery succeeded" }

/-! ## 4. The provider -/

/-- What the outside world answers to one `Provider.Discover`: the row source, when there is
one, and the metadata resolver, when there is one. -/
structure Provider where
  rows : Option (Except String (List AuroraReplicaStatusRow))
  metadata : Option (List String → Except String (StringMap InstanceMetadata))

def uniqueSorted (values : List String) : List String :=
  sortStrings (values.filter (· ≠ "")).dedup

def Provider.discover (p : Provider) (resource : PgBouncerAurora) : DiscoveryResult :=
  match p.rows with
  | none => untrusted "aurora row source is not configured"
  | some (.error err) => untrusted ("aurora replica status query failed: " ++ err)
  | some (.ok rows) =>
    let instanceNames := (rows.map (·.serverID)).filter (· ≠ "")
    match p.metadata, instanceNames with
    | none, _ | some _, [] => buildResult resource rows ∅
    | some resolve, _ :: _ =>
      match resolve (uniqueSorted instanceNames) with
      | .ok metadata => buildResult resource rows metadata
      | .error err =>
        let result := buildResult resource rows ∅
        -- the source remembers the error by its text, and an empty one counts as none
        if err = "" then result
        else { result with
               reason := result.reason ++ "; rds metadata refresh failed; using fallback" }

/-! ## 5. Trusted results are well formed -/

/-- What a list of observations must be to be a topology: named, unambiguous, and with a
single writer. -/
structure WellFormed (instances : List InstanceObservation) : Prop where
  named : ∀ o ∈ instances, o.name ≠ ""
  nodup : (instances.map (·.name)).Nodup
  writer : writerCount instances = 1

theorem WellFormed.perm {l m : List InstanceObservation} (h : WellFormed l) (hp : m.Perm l) :
    WellFormed m where
  named o ho := h.named o (hp.mem_iff.mp ho)
  nodup := ((hp.map _).nodup_iff).mpr h.nodup
  writer := (hp.countP_eq _).trans h.writer

theorem WellFormed.ne_nil {instances : List InstanceObservation} (h : WellFormed instances) :
    instances ≠ [] := by
  rintro rfl
  cases h.writer

/-- The names that a topology lists as writers. -/
def discoveredWriters (instances : List InstanceObservation) : List String :=
  (instances.filter (·.role = .writer)).map (·.name)

/-- In a well-formed topology a writer is the only one. -/
theorem WellFormed.discoveredWriters_eq {instances : List InstanceObservation}
    (h : WellFormed instances) {o : InstanceObservation} (ho : o ∈ instances)
    (hr : o.role = .writer) : discoveredWriters instances = [o.name] := by
  have hlen : (instances.filter (·.role = .writer)).length = 1 := by
    rw [← List.countP_eq_length_filter]
    exact h.writer
  obtain ⟨o', ho'⟩ := List.length_eq_one_iff.mp hlen
  have hmem : o ∈ instances.filter (·.role = .writer) := List.mem_filter.mpr ⟨ho, by simpa using hr⟩
  rw [ho'] at hmem
  rw [discoveredWriters, ho', List.mem_singleton.mp hmem]
  rfl

/-- ... and its name is nobody else's. -/
theorem WellFormed.role_eq {instances : List InstanceObservation} (h : WellFormed instances)
    {o o' : InstanceObservation} (ho : o ∈ instances) (ho' : o' ∈ instances)
    (hname : o'.name = o.name) : o'.role = o.role := by
  rw [List.inj_on_of_nodup_map h.nodup ho' ho hname]

/-- The loop keeps its observations named and distinct. -/
theorem buildRows_ok {resource : PgBouncerAurora} {metadata : StringMap InstanceMetadata}
    {previous : StringMap InstanceTopologyStatus} :
    ∀ {rows : List AuroraReplicaStatusRow} {acc out : List InstanceObservation},
      buildRows resource metadata previous acc rows = .ok out →
      (∀ o ∈ acc, o.name ≠ "") → (acc.map (·.name)).Nodup →
      (∀ o ∈ out, o.name ≠ "") ∧ (out.map (·.name)).Nodup
  | [], acc, out, h, hnamed, hnodup => by
    simp only [buildRows, Except.ok.injEq] at h
    subst h
    exact ⟨hnamed, hnodup⟩
  | row :: rows, acc, out, h, hnamed, hnodup => by
    simp only [buildRows] at h
    split at h
    · exact absurd h (by simp)
    · rename_i hne
      split at h
      · exact absurd h (by simp)
      · rename_i hfresh
        split at h
        · exact absurd h (by simp)
        · refine buildRows_ok h ?_ ?_
          · intro o ho
            rcases List.mem_append.mp ho with ho | ho
            · exact hnamed o ho
            · rw [List.mem_singleton.mp ho]; exact hne
          · rw [List.map_append, List.map_singleton]
            exact hnodup.append (List.nodup_singleton _) (List.disjoint_singleton.mpr hfresh)

/-- `buildResult`, read backwards: a trusted result is the sorted outcome of the loop, with
one writer in it. -/
theorem buildResult_trusted {resource : PgBouncerAurora} {rows : List AuroraReplicaStatusRow}
    {metadata : StringMap InstanceMetadata}
    (h : (buildResult resource rows metadata).trusted = true) :
    ∃ instances, buildRows resource metadata (previousTopology resource) [] rows = .ok instances ∧
      writerCount instances = 1 ∧
      (buildResult resource rows metadata).instances = sortObservations instances := by
  unfold buildResult at h ⊢
  by_cases hrows : rows = []
  · simp [hrows, untrusted] at h
  rw [if_neg hrows] at h ⊢
  cases hloop : buildRows resource metadata (previousTopology resource) [] rows with
  | error reason => rw [hloop] at h; simp [untrusted] at h
  | ok instances =>
    rw [hloop] at h
    by_cases hw : writerCount instances = 1
    · by_cases hnil : instances = []
      · simp [hnil, writerCount] at hw
      · exact ⟨instances, rfl, hw, by simp [hw, hnil]⟩
    · simp [hw, untrusted] at h

/-- **Trusted means well formed.**  The loop rejects an empty or repeated name, and the
count after it rejects any number of writers but one. -/
theorem buildResult_wellFormed {resource : PgBouncerAurora}
    {rows : List AuroraReplicaStatusRow} {metadata : StringMap InstanceMetadata}
    (h : (buildResult resource rows metadata).trusted = true) :
    WellFormed (buildResult resource rows metadata).instances := by
  obtain ⟨instances, hloop, hw, heq⟩ := buildResult_trusted h
  obtain ⟨hnamed, hnodup⟩ := buildRows_ok hloop (by simp) (by simp)
  rw [heq]
  exact WellFormed.perm ⟨hnamed, hnodup, hw⟩ (List.perm_insertionSort _ _)

/-- Whatever the metadata resolver does, `discover` answers with some `buildResult`, up to
the text of its reason, or it is untrusted. -/
theorem Provider.discover_cases (p : Provider) (resource : PgBouncerAurora) :
    (p.discover resource).trusted = false ∨
      ∃ rows metadata, (p.discover resource).trusted = (buildResult resource rows metadata).trusted ∧
        (p.discover resource).instances = (buildResult resource rows metadata).instances := by
  unfold Provider.discover
  cases p.rows with
  | none => exact Or.inl rfl
  | some answer =>
    cases answer with
    | error err => exact Or.inl rfl
    | ok rows =>
      right
      cases p.metadata with
      | none => exact ⟨rows, ∅, rfl, rfl⟩
      | some resolve =>
        dsimp only
        split
        · exact ⟨rows, ∅, rfl, rfl⟩
        · exact ⟨rows, ∅, rfl, rfl⟩
        · rename_i resolve' _ _ hresolve _
          cases hresolve
          cases hmeta : resolve (uniqueSorted ((rows.map (·.serverID)).filter (· ≠ ""))) with
          | ok metadata => exact ⟨rows, metadata, rfl, rfl⟩
          | error err =>
            dsimp only
            split <;> exact ⟨rows, ∅, rfl, rfl⟩

/-- A trusted `discover` is well formed. -/
theorem Provider.discover_wellFormed {p : Provider} {resource : PgBouncerAurora}
    (h : (p.discover resource).trusted = true) : WellFormed (p.discover resource).instances := by
  rcases p.discover_cases resource with hu | ⟨rows, metadata, ht, hi⟩
  · rw [h] at hu
    exact absurd hu (by simp)
  · rw [hi]
    rw [ht] at h
    exact buildResult_wellFormed h

end Discovery

end AuroraOperator

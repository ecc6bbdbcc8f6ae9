/-
# RDS metadata: what it can decide, and what happens without it

`Provider.Discover` asks a `MetadataResolver` for the zone and the resource id of each
instance.  The answer is an enrichment: whatever RDS says, or fails to say, which instances
there are and what they do is read off the rows alone (`discover_ignores_metadata`).

The field that holds the resolver is an interface.  `main` stores in it the pointer that
`NewRDSMetadataResolver` returns, also when that pointer is nil because the AWS configuration
could not be loaded; an interface that holds a nil pointer is not a nil interface, so the guard
`p.Metadata != nil` lets the call through to a method that reads a field of the nil receiver.
`unloaded_resolver_harmless_iff` says for which rows this goes unnoticed.
-/
import AuroraOperator.Discovery.Views

namespace AuroraOperator

namespace Discovery

/-! ## 1. `Provider.Discover` as a call -/

/-- How a call of the source ends. -/
inductive Outcome (α : Type) where
  | returns (value : α)
  | fails (err : String)
  | panics

def Outcome.ofExcept {α : Type} : Except String α → Outcome α
  | .ok value => .returns value
  | .error err => .fails err

abbrev Metadata := StringMap InstanceMetadata

/-- The instances `Discover` asks about. -/
def requestedNames (rows : List AuroraReplicaStatusRow) : List String :=
  uniqueSorted ((rows.map (·.serverID)).filter (· ≠ ""))

/-- What the resolver is asked, if it is: only when there are rows, and they name servers. -/
def askedNames : Option (Except String (List AuroraReplicaStatusRow)) → Option (List String)
  | some (.ok rows) =>
    if (rows.map (·.serverID)).filter (· ≠ "") = [] then none else some (requestedNames rows)
  | _ => none

/-- `Provider.Discover` over the interface value in `Provider.Metadata`: `none` is the nil
interface, and anything else has a `Resolve` to call.  A panic in there is one of `Discover`;
otherwise the answer is all that `Discover` learns of the resolver. -/
def discoverCall (rows : Option (Except String (List AuroraReplicaStatusRow)))
    (metadata : Option (List String → Outcome Metadata)) (resource : PgBouncerAurora) :
    Outcome DiscoveryResult :=
  match metadata, askedNames rows with
  | some resolve, some names =>
    match resolve names with
    | .returns answer => .returns (Provider.discover ⟨rows, some fun _ => .ok answer⟩ resource)
    | .fails err => .returns (Provider.discover ⟨rows, some fun _ => .error err⟩ resource)
    | .panics => .panics
  | _, _ => .returns (Provider.discover ⟨rows, none⟩ resource)

section Asking

variable {rows : Option (Except String (List AuroraReplicaStatusRow))}

theorem discover_unasked (h : askedNames rows = none)
    (m : Option (List String → Except String Metadata)) (resource : PgBouncerAurora) :
    Provider.discover ⟨rows, m⟩ resource = Provider.discover ⟨rows, none⟩ resource := by
  rcases rows with - | (err | rows)
  · rfl
  · rfl
  · rw [askedNames, ite_eq_left_iff] at h
    have hnil : (rows.map (·.serverID)).filter (· ≠ "") = [] := by
      by_contra hne
      cases h hne
    simp only [Provider.discover, hnil]
    cases m <;> rfl

/-- One answer stands for the resolver that gave it. -/
theorem discover_asked {names : List String} (h : askedNames rows = some names)
    (resolve : List String → Except String Metadata) (resource : PgBouncerAurora) :
    Provider.discover ⟨rows, some fun _ => resolve names⟩ resource =
      Provider.discover ⟨rows, some resolve⟩ resource := by
  rcases rows with - | (err | rows)
  · cases h
  · cases h
  · rw [askedNames, ite_eq_right_iff.mpr (fun hnil => by rw [if_pos hnil] at h; cases h)] at h
    cases h
    unfold Provider.discover requestedNames
    dsimp only
    cases (rows.map (·.serverID)).filter (· ≠ "") <;> rfl

end Asking

/-- A resolver that answers or fails makes `Discover` return, and never with an error. -/
theorem discoverCall_eq (p : Provider) (resource : PgBouncerAurora) :
    discoverCall p.rows (p.metadata.map fun resolve names => .ofExcept (resolve names)) resource =
      .returns (p.discover resource) := by
  obtain ⟨rows, metadata⟩ := p
  unfold discoverCall
  cases metadata with
  | none => rfl
  | some resolve =>
    cases hasked : askedNames rows with
    | none =>
      dsimp only [Option.map_some]
      rw [discover_unasked hasked (some resolve)]
    | some names =>
      rw [← discover_asked hasked resolve]
      dsimp only [Option.map_some]
      cases resolve names <;> rfl

/-! ## 2. What metadata cannot decide -/

/-- The part of an observation that decides about traffic. -/
def decided (o : InstanceObservation) : String × String × Int32 × Role :=
  (o.name, o.endpoint, o.port, o.role)

theorem names_of_decided {l l' : List InstanceObservation} (h : l.map decided = l'.map decided) :
    l.map (·.name) = l'.map (·.name) := by
  have := congrArg (List.map Prod.fst) h
  simpa [Function.comp_def, decided] using this

theorem writerCount_of_decided {l l' : List InstanceObservation}
    (h : l.map decided = l'.map decided) : writerCount l = writerCount l' := by
  have hcount : ∀ l : List InstanceObservation,
      writerCount l = (l.map decided).countP (·.2.2.2 = .writer) := fun l => by
    rw [List.countP_map]
    rfl
  rw [hcount, hcount, h]

theorem sortObservations_decided {l l' : List InstanceObservation}
    (h : l.map decided = l'.map decided) :
    (sortObservations l).map decided = (sortObservations l').map decided := by
  have hsort : ∀ l : List InstanceObservation, (sortObservations l).map decided =
      (l.map decided).insertionSort (fun a b => a.1 ≤ b.1) := fun l =>
    List.map_insertionSort _ _ _ _ fun _ _ _ _ => Iff.rfl
  rw [hsort, hsort, h]

/-- Two loops over the same rows stop at the same row for the same reason, or both go
through with the same decisions. -/
theorem buildRows_metadata (resource : PgBouncerAurora) (m m' : Metadata)
    (previous : StringMap InstanceTopologyStatus) (rows : List AuroraReplicaStatusRow) :
    ∀ {acc acc' : List InstanceObservation}, acc.map decided = acc'.map decided →
      (buildRows resource m previous acc rows).map (List.map decided) =
        (buildRows resource m' previous acc' rows).map (List.map decided) := by
  induction rows with
  | nil =>
    intro acc acc' h
    simp only [buildRows, Except.map, h]
  | cons row rows ih =>
    intro acc acc' h
    simp only [buildRows, names_of_decided h]
    split
    · rfl
    split
    · rfl
    split
    · rfl
    apply ih
    rw [List.map_append, List.map_append, h]
    simp only [List.map_cons, List.map_nil, decided, observationFor]

/-- Two results that say the same about traffic. -/
structure SameTopology (a b : DiscoveryResult) : Prop where
  trusted : a.trusted = b.trusted
  instances : a.instances.map decided = b.instances.map decided

theorem buildResult_metadata (resource : PgBouncerAurora) (rows : List AuroraReplicaStatusRow)
    (m m' : Metadata) :
    SameTopology (buildResult resource rows m) (buildResult resource rows m') ∧
      (buildResult resource rows m).reason = (buildResult resource rows m').reason := by
  have hloop := @buildRows_metadata resource m m' (previousTopology resource) rows [] [] rfl
  unfold buildResult
  split
  · exact ⟨⟨rfl, rfl⟩, rfl⟩
  cases h : buildRows resource m (previousTopology resource) [] rows with
  | error reason =>
    cases h' : buildRows resource m' (previousTopology resource) [] rows with
    | error reason' =>
      rw [h, h'] at hloop
      cases hloop
      exact ⟨⟨rfl, rfl⟩, rfl⟩
    | ok l' =>
      rw [h, h'] at hloop
      cases hloop
  | ok l =>
    cases h' : buildRows resource m' (previousTopology resource) [] rows with
    | error reason' =>
      rw [h, h'] at hloop
      cases hloop
    | ok l' =>
      rw [h, h'] at hloop
      have hsame : l.map decided = l'.map decided := Except.ok.inj hloop
      have hnil : l = [] ↔ l' = [] := by
        rw [← List.map_eq_nil_iff (f := decided), hsame, List.map_eq_nil_iff]
      dsimp only
      rw [writerCount_of_decided hsame]
      split
      · exact ⟨⟨rfl, rfl⟩, rfl⟩
      simp only [hnil]
      split
      · exact ⟨⟨rfl, rfl⟩, rfl⟩
      · exact ⟨⟨rfl, sortObservations_decided hsame⟩, rfl⟩

/-- The resolver was asked about these rows and answered with an error. -/
def ResolveFailed (p : Provider) : Prop :=
  ∃ rows resolve err, p.rows = some (.ok rows) ∧ p.metadata = some resolve ∧
    resolve (requestedNames rows) = .error err

/-- Beside the result without metadata, the one with it has the same topology, and the same
reason unless the resolver failed. -/
theorem discover_enriches (p : Provider) (resource : PgBouncerAurora) :
    SameTopology (p.discover resource) (Provider.discover ⟨p.rows, none⟩ resource) ∧
      ((p.discover resource).reason ≠ (Provider.discover ⟨p.rows, none⟩ resource).reason →
        ResolveFailed p) := by
  obtain ⟨rows, metadata⟩ := p
  rcases rows with - | (err | rows)
  · exact ⟨⟨rfl, rfl⟩, fun h => absurd rfl h⟩
  · exact ⟨⟨rfl, rfl⟩, fun h => absurd rfl h⟩
  rcases metadata with - | resolve
  · exact ⟨⟨rfl, rfl⟩, fun h => absurd rfl h⟩
  unfold Provider.discover
  dsimp only
  cases hnames : (rows.map (·.serverID)).filter (· ≠ "") with
  | nil => exact ⟨⟨rfl, rfl⟩, fun h => absurd rfl h⟩
  | cons name names =>
    dsimp only
    cases hresolve : resolve (uniqueSorted (name :: names)) with
    | ok metadata =>
      obtain ⟨hsame, hreason⟩ := buildResult_metadata resource rows metadata ∅
      exact ⟨hsame, fun h => absurd hreason h⟩
    | error err =>
      have hfailed : ResolveFailed ⟨some (.ok rows), some resolve⟩ :=
        ⟨rows, resolve, err, rfl, rfl, by rw [requestedNames, hnames, hresolve]⟩
      refine ⟨?_, fun _ => hfailed⟩
      dsimp only
      split <;> exact ⟨rfl, rfl⟩

/-- **Metadata decides nothing about the topology.**  Two calls over the same rows, with any
two resolvers or none, both return, agree on trust and, instance by instance, on name,
endpoint, port and role; their reasons differ only after a failed resolve. -/
theorem discover_ignores_metadata (resource : PgBouncerAurora)
    (rows : Option (Except String (List AuroraReplicaStatusRow)))
    (m m' : Option (List String → Except String Metadata)) :
    ∃ a b : DiscoveryResult,
      discoverCall rows (m.map fun resolve names => .ofExcept (resolve names)) resource =
        .returns a ∧
      discoverCall rows (m'.map fun resolve names => .ofExcept (resolve names)) resource =
        .returns b ∧
      a.trusted = b.trusted ∧ a.instances.length = b.instances.length ∧
      a.instances.map decided = b.instances.map decided ∧
      (a.reason ≠ b.reason → ResolveFailed ⟨rows, m⟩ ∨ ResolveFailed ⟨rows, m'⟩) := by
  obtain ⟨hsame, hreason⟩ := discover_enriches ⟨rows, m⟩ resource
  obtain ⟨hsame', hreason'⟩ := discover_enriches ⟨rows, m'⟩ resource
  have hinstances := hsame.instances.trans hsame'.instances.symm
  refine ⟨_, _, discoverCall_eq ⟨rows, m⟩ resource, discoverCall_eq ⟨rows, m'⟩ resource,
    hsame.trusted.trans hsame'.trusted.symm, ?_, hinstances, fun hne => ?_⟩
  · simpa using congrArg List.length hinstances
  · by_contra hnone
    rw [not_or] at hnone
    have h := not_not.mp (mt hreason hnone.1)
    have h' := not_not.mp (mt hreason' hnone.2)
    exact hne (h.trans h'.symm)

/-! ## 3. The wiring of `main` -/

/-- A resolver that exists.  Of its fields only what its `Resolve` answers matters here. -/
structure RDSMetadataResolver where
  answer : List String → Except String Metadata

/-- `NewRDSMetadataResolver`, given what loading the AWS configuration comes to: a pointer, nil
beside an error. -/
def newRDSMetadataResolver (loaded : Except String RDSMetadataResolver) :
    Option RDSMetadataResolver × Option String :=
  match loaded with
  | .error err => (none, some err)
  | .ok resolver => (some resolver, none)

/-- `(*RDSMetadataResolver).Resolve`: its first statement reads `r.Client`. -/
def RDSMetadataResolver.resolve (r : Option RDSMetadataResolver) (names : List String) :
    Outcome Metadata :=
  match r with
  | none => .panics
  | some r => .ofExcept (r.answer names)

/-- What `main` stores in `Provider.Metadata`.  The interface has a type whatever the pointer
is, so it is never the nil interface. -/
def mainMetadata (loaded : Except String RDSMetadataResolver) :
    Option (List String → Outcome Metadata) :=
  some (RDSMetadataResolver.resolve (newRDSMetadataResolver loaded).1)

/-- No row names a server, so that no resolver is asked. -/
def Unasked (rows : Option (Except String (List AuroraReplicaStatusRow))) : Prop :=
  ∀ l, rows = some (.ok l) → ∀ row ∈ l, row.serverID = ""

theorem unasked_iff {rows : Option (Except String (List AuroraReplicaStatusRow))} :
    Unasked rows ↔ askedNames rows = none := by
  rcases rows with - | (failure | l)
  · exact ⟨fun _ => rfl, fun _ l hl => (nomatch hl)⟩
  · exact ⟨fun _ => rfl, fun _ l hl => (nomatch hl)⟩
  · simp [Unasked, askedNames]

/-- **A resolver that could not be loaded** goes unnoticed exactly when it is not asked:
otherwise `Discover` panics in it, where without a resolver it would have returned. -/
theorem unloaded_resolver_harmless_iff (err : String) (resource : PgBouncerAurora)
    (rows : Option (Except String (List AuroraReplicaStatusRow))) :
    (discoverCall rows (mainMetadata (.error err)) resource = discoverCall rows none resource ∧
        discoverCall rows (mainMetadata (.error err)) resource ≠ .panics) ↔ Unasked rows := by
  rw [unasked_iff]
  unfold discoverCall mainMetadata
  cases askedNames rows with
  | none => exact ⟨fun _ => rfl, fun _ => ⟨rfl, nofun⟩⟩
  | some names => exact ⟨fun h => absurd rfl h.2, nofun⟩

/-- One row is enough. -/
theorem unloaded_resolver_panics :
    discoverCall (some (.ok [⟨"writer-1", "MASTER_SESSION_ID"⟩]))
        (mainMetadata (.error "no credentials")) exampleResource = .panics ∧
      ∃ result, result.trusted = true ∧
        discoverCall (some (.ok [⟨"writer-1", "MASTER_SESSION_ID"⟩])) none exampleResource =
          .returns result :=
  ⟨rfl, _, by decide +kernel, rfl⟩

end Discovery

end AuroraOperator

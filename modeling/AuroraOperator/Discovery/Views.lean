/-
# Which views `BuildResult` trusts

`Discovery` shows that a trusted result is well formed.  Here is the converse, and the rest of
what the controller takes for granted about one discovery: the loop with its three early exits
accepts exactly the well-formed views, and then its answer does not depend on the order of the
rows (`trusted_iff_wellFormedView`).
-/
import AuroraOperator.Discovery

namespace AuroraOperator

namespace Discovery

/-! ## 1. The text of an endpoint -/

/-- A text that holds no placeholder and no part of one. -/
def BraceFree (s : String) : Prop := '{' ∉ s.toList ∧ '}' ∉ s.toList

instance (s : String) : Decidable (BraceFree s) := inferInstanceAs (Decidable (_ ∧ _))

theorem mem_trimSpace {s : String} {c : Char} (h : c ∈ (trimSpace s).toList) : c ∈ s.toList := by
  rw [trimSpace_eq_rdropWhile, String.toList_ofList] at h
  exact (List.dropWhile_sublist _).mem ((List.rdropWhile_prefix _ _).mem h)

theorem BraceFree.trim {s : String} (h : BraceFree s) : BraceFree (trimSpace s) :=
  ⟨fun hc => h.1 (mem_trimSpace hc), fun hc => h.2 (mem_trimSpace hc)⟩

/-- A text without the first character of the pattern is copied as it is. -/
theorem replaceChars_skip {c : Char} {old new rest : List Char} {fuel : Nat} :
    ∀ {text : List Char}, c ∉ text →
      replaceChars (c :: old) new (text.length + fuel) (text ++ rest) =
        text ++ replaceChars (c :: old) new fuel rest
  | [], _ => by simp
  | d :: text, h => by
    have hd : (c == d) = false := by
      rw [beq_eq_false_iff_ne]
      rintro rfl
      exact h List.mem_cons_self
    have htext : c ∉ text := fun hc => h (List.mem_cons_of_mem _ hc)
    rw [List.length_cons, Nat.add_right_comm]
    simp [replaceChars, List.isPrefixOf, hd, replaceChars_skip htext]

/-- The pattern at the front is replaced, and the rest is searched on. -/
theorem replaceChars_match {c : Char} {old new rest : List Char} {fuel : Nat} :
    replaceChars (c :: old) new (fuel + 1) (c :: old ++ rest) =
      new ++ replaceChars (c :: old) new fuel rest := by
  simp [replaceChars]

theorem placeholder_instanceName : placeholder "instanceName" = "{instanceName}" := by decide

theorem placeholder_domainName : placeholder "domainName" = "{domainName}" := by decide

theorem replace_instanceName (name : String) :
    replaceAll "{instanceName}.{domainName}" "{instanceName}" name =
      name ++ ".{domainName}" := by
  apply String.toList_inj.mp
  rw [replaceAll, String.toList_ofList, String.toList_append]
  simp [replaceChars]

theorem replace_domainName {name : String} (h : BraceFree name) (domain : String) :
    replaceAll (name ++ ".{domainName}") "{domainName}" domain =
      name ++ "." ++ domain := by
  have hlit : "{domainName}".toList = '{' :: ("domainName".toList ++ ['}']) := by simp
  apply String.toList_inj.mp
  rw [replaceAll, String.toList_ofList, String.toList_append, List.length_append, Nat.add_assoc,
    hlit, replaceChars_skip h.1]
  simp [replaceChars]

/-- The endpoint of an instance. -/
theorem auroraInstanceEndpoint_eq {name : String} (h : BraceFree name) (domain : String) :
    auroraInstanceEndpoint name domain = trimSpace name ++ "." ++ trimSpace domain := by
  simp only [auroraInstanceEndpoint, renderAuroraEndpoint, List.foldl_cons, List.foldl_nil,
    placeholder_instanceName, placeholder_domainName]
  rw [replace_instanceName, replace_domainName h.trim]

theorem renderAuroraEndpoint_swapped {name domain : String} (hname : BraceFree name)
    (hdomain : BraceFree domain) :
    renderAuroraEndpoint "{instanceName}.{domainName}"
      [("domainName", domain), ("instanceName", name)] = auroraInstanceEndpoint name domain := by
  have hfirst : replaceAll "{instanceName}.{domainName}" "{domainName}"
      (trimSpace domain) = "{instanceName}" ++ ("." ++ trimSpace domain) := by
    apply String.toList_inj.mp
    rw [replaceAll, String.toList_ofList, String.toList_append, String.toList_append]
    simp [replaceChars]
  have hsecond : replaceAll ("{instanceName}" ++ ("." ++ trimSpace domain))
      "{instanceName}" (trimSpace name) = trimSpace name ++ ("." ++ trimSpace domain) := by
    have hdot : '{' ∉ ("." ++ trimSpace domain).toList := by simp [hdomain.trim.1]
    have hlit : "{instanceName}".toList = '{' :: ("instanceName".toList ++ ['}']) := by simp
    apply String.toList_inj.mp
    generalize "." ++ trimSpace domain = rest at hdot ⊢
    have hskip := @replaceChars_skip _ ("instanceName".toList ++ ['}']) (trimSpace name).toList []
      (("instanceName".toList ++ ['}']).length + 1) _ hdot
    rw [List.append_nil] at hskip
    rw [replaceAll, String.toList_ofList, String.toList_append, String.toList_append, hlit,
      replaceChars_match, List.length_append, List.length_cons, Nat.add_comm, hskip]
    simp [replaceChars]
  rw [auroraInstanceEndpoint_eq hname, String.append_assoc, ← hsecond, ← hfirst]
  simp only [renderAuroraEndpoint, List.foldl_cons, List.foldl_nil, placeholder_instanceName,
    placeholder_domainName]

/-- The source ranges over a map: with no braces in the values, the order of the replacements
does not show. -/
theorem renderAuroraEndpoint_perm {name domain : String} (hname : BraceFree name)
    (hdomain : BraceFree domain) {values : List (String × String)}
    (hp : values.Perm [("instanceName", name), ("domainName", domain)]) :
    renderAuroraEndpoint "{instanceName}.{domainName}" values =
      auroraInstanceEndpoint name domain := by
  rcases List.perm_pair.mp hp with rfl | rfl
  · rfl
  · exact renderAuroraEndpoint_swapped hname hdomain

/-! ## 2. The loop over the rows -/

/-- The instance a row is about. -/
def rowName (row : AuroraReplicaStatusRow) : String := trimSpace row.serverID

/-- What an accepted row becomes. -/
def observe (resource : PgBouncerAurora) (metadata : StringMap InstanceMetadata)
    (row : AuroraReplicaStatusRow) : InstanceObservation :=
  observationFor resource metadata (previousTopology resource) (rowName row)
    (endpointForInstance resource (rowName row) (previousTopology resource)) row

@[simp] theorem observe_name (resource : PgBouncerAurora) (metadata : StringMap InstanceMetadata)
    (row : AuroraReplicaStatusRow) : (observe resource metadata row).name = rowName row := rfl

@[simp] theorem observe_role (resource : PgBouncerAurora) (metadata : StringMap InstanceMetadata)
    (row : AuroraReplicaStatusRow) :
    (observe resource metadata row).role = roleFromSessionID row.sessionID := by
  simp only [observe, observationFor]

@[simp] theorem observe_endpoint (resource : PgBouncerAurora)
    (metadata : StringMap InstanceMetadata) (row : AuroraReplicaStatusRow) :
    (observe resource metadata row).endpoint =
      endpointForInstance resource (rowName row) (previousTopology resource) := by
  simp only [observe, observationFor]

/-- The checks one row passes on its own. -/
def Usable (resource : PgBouncerAurora) (row : AuroraReplicaStatusRow) : Prop :=
  rowName row ≠ "" ∧ endpointForInstance resource (rowName row) (previousTopology resource) ≠ ""

/-- One round: the row's own checks, then the rest with its name among the seen ones. -/
theorem buildRows_cons {resource : PgBouncerAurora} {metadata : StringMap InstanceMetadata}
    {row : AuroraReplicaStatusRow} {rows : List AuroraReplicaStatusRow}
    {acc out : List InstanceObservation} :
    buildRows resource metadata (previousTopology resource) acc (row :: rows) = .ok out ↔
      Usable resource row ∧ rowName row ∉ acc.map (·.name) ∧
        buildRows resource metadata (previousTopology resource)
          (acc ++ [observe resource metadata row]) rows = .ok out := by
  simp only [buildRows, Usable, observe, rowName]
  split
  · next hname => simp only [reduceCtorEq, hname, ne_eq, not_true, false_and]
  · next hname =>
    split
    · next hseen => simp only [reduceCtorEq, hseen, not_true, false_and, and_false]
    · next hseen =>
      split
      · next hend => simp only [reduceCtorEq, hend, ne_eq, not_true, false_and, and_false]
      · next hend => simp only [ne_eq, hname, hseen, hend, not_false_eq_true, true_and]

/-- The loop goes through exactly when every row is usable and no name comes twice, and then
it has observed every row, in order. -/
theorem buildRows_eq_ok {resource : PgBouncerAurora} {metadata : StringMap InstanceMetadata}
    {rows : List AuroraReplicaStatusRow} {acc out : List InstanceObservation} :
    buildRows resource metadata (previousTopology resource) acc rows = .ok out ↔
      (∀ row ∈ rows, Usable resource row) ∧ (∀ row ∈ rows, rowName row ∉ acc.map (·.name)) ∧
        (rows.map rowName).Nodup ∧ out = acc ++ rows.map (observe resource metadata) := by
  induction rows generalizing acc with
  | nil => simp [buildRows, eq_comm]
  | cons row rows ih =>
    rw [buildRows_cons, ih]
    simp only [List.mem_cons, forall_eq_or_imp, List.map_append, List.mem_append, List.map_cons,
      List.map_nil, observe_name, List.nodup_cons, List.append_assoc, List.singleton_append,
      List.mem_map, not_exists, not_and]
    grind

/-! ## 3. Well-formed views -/

/-- The endpoint an instance has: under the configured domain, else where it was before. -/
def viewEndpoint (resource : PgBouncerAurora) (name : String) : String :=
  if trimSpace resource.spec.discovery.domainName ≠ "" then
    name ++ "." ++ trimSpace resource.spec.discovery.domainName
  else ((previousTopology resource)[name]?.map fun item => trimSpace item.endpoint).getD ""

/-- What the rows of one query must be to make a topology. -/
structure WellFormedView (resource : PgBouncerAurora) (rows : List AuroraReplicaStatusRow) :
    Prop where
  nonempty : rows ≠ []
  named : ∀ row ∈ rows, trimSpace row.serverID ≠ ""
  distinct : (rows.map fun row => trimSpace row.serverID).Nodup
  writer : rows.countP (fun row => equalFold (trimSpace row.sessionID) masterSessionID) = 1
  endpoint : ∀ row ∈ rows, viewEndpoint resource (trimSpace row.serverID) ≠ ""

theorem endpointForInstance_eq {resource : PgBouncerAurora} {row : AuroraReplicaStatusRow}
    (h : BraceFree row.serverID) :
    endpointForInstance resource (rowName row) (previousTopology resource) =
      viewEndpoint resource (rowName row) := by
  unfold endpointForInstance viewEndpoint
  split
  · rw [rowName, auroraInstanceEndpoint_eq h.trim, trimSpace_idem]
  · cases (previousTopology resource)[rowName row]? <;> rfl

theorem WellFormedView.perm {resource : PgBouncerAurora} {rows rows' : List AuroraReplicaStatusRow}
    (h : WellFormedView resource rows) (hp : rows'.Perm rows) : WellFormedView resource rows' where
  nonempty hnil := h.nonempty (by rw [hnil] at hp; exact hp.symm.eq_nil)
  named row hrow := h.named row (hp.mem_iff.mp hrow)
  distinct := ((hp.map _).nodup_iff).mpr h.distinct
  writer := (hp.countP_eq _).trans h.writer
  endpoint row hrow := h.endpoint row (hp.mem_iff.mp hrow)

theorem writerCount_observe (resource : PgBouncerAurora) (metadata : StringMap InstanceMetadata)
    (rows : List AuroraReplicaStatusRow) :
    writerCount (rows.map (observe resource metadata)) =
      rows.countP fun row => equalFold (trimSpace row.sessionID) masterSessionID := by
  rw [writerCount, List.countP_map]
  refine List.countP_congr fun row _ => ?_
  simp only [Function.comp, observe_role, roleFromSessionID, decide_eq_true_eq]
  split <;> simp_all

section BuildResult

variable {resource : PgBouncerAurora} {rows : List AuroraReplicaStatusRow}
  {metadata : StringMap InstanceMetadata}

/-- A view the loop and the count after it both accept. -/
theorem buildResult_of_view (hrows : ∀ row ∈ rows, BraceFree row.serverID)
    (h : WellFormedView resource rows) :
    buildResult resource rows metadata =
      { trusted := true
        instances := sortObservations (rows.map (observe resource metadata))
        reason := "aurora discovery succeeded" } := by
  have hloop : buildRows resource metadata (previousTopology resource) [] rows =
      .ok (rows.map (observe resource metadata)) := by
    refine buildRows_eq_ok.mpr ⟨fun row hrow => ⟨h.named row hrow, ?_⟩, by simp, h.distinct, by simp⟩
    rw [endpointForInstance_eq (hrows row hrow)]
    exact h.endpoint row hrow
  have hcount := (writerCount_observe resource metadata rows).trans h.writer
  have hnil : rows.map (observe resource metadata) ≠ [] := by simpa using h.nonempty
  simp only [buildResult, if_neg h.nonempty, hloop, hcount, ne_eq, not_true, if_false, if_neg hnil]

/-- ... and whatever they accept is such a view. -/
theorem view_of_trusted (hrows : ∀ row ∈ rows, BraceFree row.serverID)
    (h : (buildResult resource rows metadata).trusted = true) : WellFormedView resource rows := by
  obtain ⟨instances, hloop, hwriter, -⟩ := buildResult_trusted h
  obtain ⟨husable, -, hdistinct, rfl⟩ := buildRows_eq_ok.mp hloop
  rw [List.nil_append, writerCount_observe] at hwriter
  refine ⟨?_, fun row hrow => (husable row hrow).1, hdistinct, hwriter, fun row hrow => ?_⟩
  · rintro rfl
    cases hwriter
  · have hend := (husable row hrow).2
    rwa [endpointForInstance_eq (hrows row hrow)] at hend

theorem untrusted_empty (h : (buildResult resource rows metadata).trusted = false) :
    (buildResult resource rows metadata).instances = [] := by
  unfold buildResult at h ⊢
  repeat' split
  all_goals simp_all [untrusted]

/-- Sorting forgets the order of the rows: no two observations share a name. -/
theorem sortObservations_perm {l m : List InstanceObservation} (hp : l.Perm m)
    (hnodup : (l.map (·.name)).Nodup) : sortObservations l = sortObservations m := by
  have hl := List.perm_insertionSort (fun a b : InstanceObservation => a.name ≤ b.name) l
  have hm := List.perm_insertionSort (fun a b : InstanceObservation => a.name ≤ b.name) m
  refine List.Perm.eq_of_pairwise ?_ (List.pairwise_insertionSort _ _)
    (List.pairwise_insertionSort _ _) (hl.trans (hp.trans hm.symm))
  intro a b ha hb hab hba
  exact List.inj_on_of_nodup_map hnodup (hl.mem_iff.mp ha) (hp.mem_iff.mpr (hm.mem_iff.mp hb))
    (le_antisymm hab hba)

theorem observe_port_pos (row : AuroraReplicaStatusRow) :
    0 < (observe resource metadata row).port := by
  have hport : portForInstance resource (rowName row) (previousTopology resource) = 0 ∨
      0 < portForInstance resource (rowName row) (previousTopology resource) := by
    unfold portForInstance
    repeat' split
    all_goals simp_all
  simp only [observe, observationFor]
  split
  · decide
  · next hne => exact hport.resolve_left hne

end BuildResult

/-- What a trusted result says about the rows it was made from. -/
structure TopologyOf (resource : PgBouncerAurora) (rows : List AuroraReplicaStatusRow)
    (instances : List InstanceObservation) : Prop where
  sorted : (instances.map (·.name)).Pairwise (· < ·)
  names : (instances.map (·.name)).Perm (rows.map fun row => trimSpace row.serverID)
  roles : ∀ row ∈ rows, ∀ o ∈ instances, o.name = trimSpace row.serverID →
    o.role = roleFromSessionID row.sessionID
  endpoints : ∀ o ∈ instances, o.endpoint = viewEndpoint resource o.name
  ports : ∀ o ∈ instances, 0 < o.port

theorem topologyOf_sorted {resource : PgBouncerAurora} {rows : List AuroraReplicaStatusRow}
    (metadata : StringMap InstanceMetadata) (hrows : ∀ row ∈ rows, BraceFree row.serverID)
    (h : WellFormedView resource rows) :
    TopologyOf resource rows (sortObservations (rows.map (observe resource metadata))) := by
  have hp : (sortObservations (rows.map (observe resource metadata))).Perm
      (rows.map (observe resource metadata)) := List.perm_insertionSort _ _
  have hnames : ((sortObservations (rows.map (observe resource metadata))).map (·.name)).Perm
      (rows.map fun row => trimSpace row.serverID) := by
    simpa [Function.comp_def, rowName] using hp.map (·.name)
  have hmem : ∀ o ∈ sortObservations (rows.map (observe resource metadata)),
      ∃ row ∈ rows, observe resource metadata row = o := fun o ho =>
    List.mem_map.mp (hp.mem_iff.mp ho)
  refine ⟨?_, hnames, ?_, ?_, ?_⟩
  · have hle : ((sortObservations (rows.map (observe resource metadata))).map (·.name)).Pairwise
        (· ≤ ·) := List.pairwise_map.mpr (List.pairwise_insertionSort _ _)
    exact (hle.and (hnames.nodup_iff.mpr h.distinct)).imp fun hab => lt_of_le_of_ne hab.1 hab.2
  · intro row hrow o ho hname
    obtain ⟨row', hrow', rfl⟩ := hmem o ho
    rw [List.inj_on_of_nodup_map h.distinct hrow' hrow hname, observe_role]
  · intro o ho
    obtain ⟨row, hrow, rfl⟩ := hmem o ho
    rw [observe_endpoint, observe_name, endpointForInstance_eq (hrows row hrow)]
  · intro o ho
    obtain ⟨row, -, rfl⟩ := hmem o ho
    exact observe_port_pos row

/-- **The trusted views are exactly the well-formed ones**, and a trusted result is the sorted
image of its rows: it does not depend on their order, nor on the order in which the endpoint's
placeholders are filled in. -/
theorem trusted_iff_wellFormedView (resource : PgBouncerAurora)
    (rows : List AuroraReplicaStatusRow) (metadata : StringMap InstanceMetadata)
    (hrows : ∀ row ∈ rows, BraceFree row.serverID)
    (hdomain : BraceFree resource.spec.discovery.domainName) :
    ((buildResult resource rows metadata).trusted = true ↔ WellFormedView resource rows) ∧
      ((buildResult resource rows metadata).trusted = true →
        TopologyOf resource rows (buildResult resource rows metadata).instances ∧
          ∀ rows', rows'.Perm rows →
            buildResult resource rows' metadata = buildResult resource rows metadata) ∧
      ((buildResult resource rows metadata).trusted = false →
        (buildResult resource rows metadata).instances = []) ∧
      ∀ row ∈ rows, ∀ values : List (String × String),
        values.Perm [("instanceName", trimSpace row.serverID),
          ("domainName", resource.spec.discovery.domainName)] →
        renderAuroraEndpoint "{instanceName}.{domainName}" values =
          auroraInstanceEndpoint (trimSpace row.serverID) resource.spec.discovery.domainName := by
  refine ⟨⟨view_of_trusted hrows, fun h => ?_⟩, fun htrusted => ?_, untrusted_empty, ?_⟩
  · rw [buildResult_of_view hrows h]
  · have h := view_of_trusted hrows htrusted
    constructor
    · rw [buildResult_of_view hrows h]
      exact topologyOf_sorted metadata hrows h
    · intro rows' hp
      have hrows' : ∀ row ∈ rows', BraceFree row.serverID := fun row hrow =>
        hrows row (hp.mem_iff.mp hrow)
      have h' := h.perm hp
      rw [buildResult_of_view hrows h, buildResult_of_view hrows' h',
        sortObservations_perm (hp.map _) (by simpa [Function.comp_def, rowName] using h'.distinct)]
  · exact fun row hrow values hp => renderAuroraEndpoint_perm (hrows row hrow).trim hdomain hp

def exampleRows : List AuroraReplicaStatusRow :=
  [⟨"reader-1 ", "9f2c"⟩, ⟨"writer-1", "master_session_id"⟩]

def exampleResource : PgBouncerAurora :=
  { name := "db", spec := { discovery := { domainName := "abc.eu-west-1.rds.amazonaws.com" } } }

theorem exampleRows_trusted :
    (∀ row ∈ exampleRows, BraceFree row.serverID) ∧
      BraceFree exampleResource.spec.discovery.domainName ∧
      WellFormedView exampleResource exampleRows := by
  have hrows : ∀ row ∈ exampleRows, BraceFree row.serverID := by decide +kernel
  have hdomain : BraceFree exampleResource.spec.discovery.domainName := by decide +kernel
  have htrusted : (buildResult exampleResource exampleRows ∅).trusted = true := by decide +kernel
  exact ⟨hrows, hdomain,
    (trusted_iff_wellFormedView exampleResource exampleRows ∅ hrows hdomain).1.mp htrusted⟩

end Discovery

end AuroraOperator

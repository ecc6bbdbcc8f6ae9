/-
# The shared cache of RDS metadata

`internal/discovery/rds.go`.  One worker refreshes the metadata of all clusters, and every discovery
reads what it left: in `CachedOnly` mode `Resolve` never calls AWS.  Both sides share one map, with
a snapshot for each cluster and an entry for each instance, which is pruned on every call.

The snapshots, and the answers of both calls, are Go maps and so are passed around by reference;
`Resolve` deletes names from the map it is about to return.  So the model has a heap, and a caller
may do to a map it was given what it likes.  That nothing of this shows in later answers is part of
what is proved: an answer is the result of the last refresh of its cluster that succeeded, as long
as it has not expired, without the names that are reported missing (`resolve_answers_last_refresh`).
-/
import AuroraOperator.Lib.Heap
import AuroraOperator.Lib.Machine
import AuroraOperator.Discovery.Metadata

namespace AuroraOperator

namespace Discovery

namespace Rds

open Heap (Ref)

/-! ## 1. The resolver -/

/-- The configuration of an `RDSMetadataResolver`; `client` says whether there is one. -/
structure Resolver where
  client : Bool
  cacheTTL : Int := 0
  cachedOnly : Bool := false

structure CachedInstanceMetadata where
  metadata : InstanceMetadata := { instanceName := "" }
  cluster : Option Ref := none
  expiresAt : Int

/-- The maps of the process, and the resolver's cache.  A nil cache is an empty one. -/
structure Memory where
  heap : Heap Metadata := {}
  cache : StringMap CachedInstanceMetadata := ∅

def Resolver.ttl (r : Resolver) : Int := if 0 < r.cacheTTL then r.cacheTTL else 60 * second

def nameCacheKey (clusterName instanceName : String) : String :=
  "instance:" ++ clusterName ++ ":" ++ instanceName

def clusterCacheKey (clusterName : String) : String := "cluster:" ++ clusterName

/-- `now.After(entry.expiresAt)`. -/
def CachedInstanceMetadata.expired (entry : CachedInstanceMetadata) (now : Int) : Bool :=
  decide (entry.expiresAt < now)

def prune (now : Int) (m : Memory) : Memory :=
  { m with cache := m.cache.filter fun _ entry => !entry.expired now }

def store (name : String) (metadata : InstanceMetadata) (expiresAt : Int) (m : Memory) : Memory :=
  { m with cache := m.cache.insert name { metadata := metadata, expiresAt := expiresAt } }

/-- What stands in a map; nothing in a nil one. -/
def Memory.contents (m : Memory) (r : Option Ref) : Metadata := (r.bind m.heap.read).getD ∅

def Memory.alloc (m : Memory) (metadata : Metadata) : Memory × Ref :=
  ({ m with heap := (m.heap.alloc metadata).1 }, (m.heap.alloc metadata).2)

/-- The stored map is a copy. -/
def storeCluster (clusterName : String) (metadata : Ref) (expiresAt : Int) (m : Memory) : Memory :=
  let (m, cluster) := m.alloc (m.contents (some metadata))
  let entry : CachedInstanceMetadata := { cluster := some cluster, expiresAt := expiresAt }
  { m with cache := m.cache.insert (clusterCacheKey clusterName) entry }

/-- So is the map that is handed out. -/
def clusterSnapshot (clusterName : String) (now : Int) (m : Memory) : Memory × Option Ref :=
  match m.cache[clusterCacheKey clusterName]? with
  | none => (m, none)
  | some entry =>
    if entry.expired now then ({ m with cache := m.cache.erase (clusterCacheKey clusterName) }, none)
    else
      let (m, out) := m.alloc (m.contents entry.cluster)
      (m, some out)

/-- The snapshot, if it has all the requested names. -/
def clusterCached (clusterName : String) (requestedNames : List String) (now : Int) (m : Memory) :
    Memory × Option Ref :=
  match clusterSnapshot clusterName now m with
  | (m, none) => (m, none)
  | (m, some out) =>
    (m, if requestedNames.all ((m.contents (some out)).contains ·) then some out else none)

/-! ## 2. What AWS answers -/

structure DBInstance where
  dbInstanceIdentifier : Option String
  availabilityZone : Option String := none
  dbiResourceId : Option String := none
  dbInstanceStatus : Option String := none

def metadataFromDBInstance (inst : DBInstance) : Option InstanceMetadata :=
  match inst.dbInstanceIdentifier with
  | none | some "" => none
  | some name => some
    { instanceName := name
      availabilityZone := inst.availabilityZone.getD ""
      dbiResourceId := inst.dbiResourceId.getD ""
      status := inst.dbInstanceStatus.getD "" }

/-- What a refresh meets on its way: the two waits for the rate limiter, the number of clusters in
the answer of `DescribeDBClusters`, and the answer of `DescribeDBInstances`. -/
structure Answers where
  clusterWait : Except String Unit := .ok ()
  clusters : Except String Nat
  instanceWait : Except String Unit := .ok ()
  instances : Except String (List DBInstance)

def describeCluster (clusterName : String) (answers : Answers) : Except String Unit := do
  answers.clusterWait
  let clusters ← answers.clusters
  if clusters = 0 then .error ("DB cluster " ++ quote clusterName ++ " not found")

/-- The calls of a refresh, in their order. -/
def describe (clusterName : String) (answers : Answers) : Except String (List DBInstance) := do
  describeCluster clusterName answers
  answers.instanceWait
  answers.instances

/-- The loop over the described instances: the map under construction, and the cache. -/
def collect (clusterName : String) (expiresAt : Int) (instances : List DBInstance) (m : Memory) :
    Metadata × Memory :=
  instances.foldl (fun (out, m) inst =>
    match metadataFromDBInstance inst with
    | none => (out, m)
    | some metadata =>
      (out.insert metadata.instanceName metadata,
        store (nameCacheKey clusterName metadata.instanceName) metadata expiresAt m)) (∅, m)

def Resolver.refreshCluster (r : Resolver) (clusterName : String) (now : Int) (answers : Answers)
    (m : Memory) : Memory × Except String Ref :=
  if !r.client then (m, .error "rds client is nil")
  else
    let clusterName := trimSpace clusterName
    if clusterName = "" then (m, .error "clusterName is required for RDS metadata refresh")
    else
      let m := prune now m
      match describe clusterName answers with
      | .error err => (m, .error err)
      | .ok instances =>
        let (collected, m) := collect clusterName (now + r.ttl) instances m
        let (m, out) := m.alloc collected
        (storeCluster clusterName out (now + r.ttl) m, .ok out)

/-! ## 3. `Resolve` -/

/-- The requested names among the missing ones, both without surrounding blanks. -/
def reappearedInstanceNames (resource : Option PgBouncerAurora) (requestedNames : List String) :
    List String :=
  match resource with
  | none => []
  | some resource =>
    (resource.status.missingInstances.map (trimSpace ·.instanceName)).filter fun name =>
      (requestedNames.map trimSpace).contains name

def clusterNameOf (resource : Option PgBouncerAurora) : String :=
  match resource with
  | none => ""
  | some resource => trimSpace resource.spec.discovery.clusterName

/-- A refresh that `Resolve` starts itself reads the clock again, at `later`. -/
def Resolver.resolve (r : Resolver) (resource : Option PgBouncerAurora)
    (instanceNames : List String) (now later : Int) (answers : Answers) (m : Memory) :
    Memory × Except String Ref :=
  if !r.client then (m, .error "rds client is nil")
  else
    let clusterName := clusterNameOf resource
    if clusterName = "" then
      (m, .error "discovery.clusterName is required for RDS metadata inventory")
    else
      let m := prune now m
      let requestedNames := uniqueSorted instanceNames
      let reappearedNames := reappearedInstanceNames resource requestedNames
      if r.cachedOnly then
        match clusterSnapshot clusterName now m with
        | (m, some cached) =>
          ({ m with heap := m.heap.update cached fun metadata =>
              reappearedNames.foldl (fun metadata name => metadata.erase name) metadata },
            .ok cached)
        | (m, none) =>
          -- both ways to miss the cache return an empty map
          let (m, out) := m.alloc ∅
          (m, .ok out)
      else if reappearedNames = [] then
        match clusterCached clusterName requestedNames now m with
        | (m, some cached) => (m, .ok cached)
        | (m, none) => r.refreshCluster clusterName later answers m
      else r.refreshCluster clusterName later answers m

/-! ## 4. The system of callers -/

/-- The memory, and the maps that callers have been given. -/
structure Process where
  memory : Memory := {}
  handed : List Ref := []

inductive Call where
  | refresh (clusterName : String) (now : Int) (answers : Answers)
  | resolve (resource : Option PgBouncerAurora) (instanceNames : List String) (now later : Int)
      (answers : Answers)
  /-- a caller changes a map it was given -/
  | edit (i : Nat) (change : Metadata → Metadata)

def Process.return (p : Process) (result : Memory × Except String Ref) : Process :=
  { memory := result.1, handed := p.handed ++ result.2.toOption.toList }

@[simp] theorem Process.return_error (p : Process) (m : Memory) (err : String) :
    p.return (m, .error err) = { p with memory := m } := by
  simp [Process.return, Except.toOption]

@[simp] theorem Process.return_ok (p : Process) (m : Memory) (ref : Ref) :
    p.return (m, .ok ref) = { memory := m, handed := p.handed ++ [ref] } := rfl

def Resolver.call (r : Resolver) (p : Process) : Call → Process
  | .refresh clusterName now answers => p.return (r.refreshCluster clusterName now answers p.memory)
  | .resolve resource instanceNames now later answers =>
    p.return (r.resolve resource instanceNames now later answers p.memory)
  | .edit i change =>
    match p.handed[i]? with
    | none => p
    | some ref =>
      { p with memory := { p.memory with heap := p.memory.heap.update ref change } }

/-- When a call reads the clock. -/
def Call.time : Call → Option Int
  | .refresh _ now _ | .resolve _ _ now _ _ => some now
  | .edit _ _ => none

/-- What a `Resolve` after the calls answers. -/
def Resolver.answer (r : Resolver) (calls : List Call) (resource : PgBouncerAurora)
    (instanceNames : List String) (now later : Int) (answers : Answers) : Except String Metadata :=
  let memory := (Machine.run r.call {} calls).memory
  let result := r.resolve (some resource) instanceNames now later answers memory
  result.2.map fun ref => result.1.contents (some ref)

/-! ## 5. What is to be answered -/

/-- The described instances by name; of two with one name the later. -/
def metadataOf (instances : List DBInstance) : Metadata :=
  (instances.filterMap metadataFromDBInstance).foldl
    (fun out metadata => out.insert metadata.instanceName metadata) ∅

/-- The start and the result of a refresh of the cluster that succeeds. -/
def Call.refreshed (c : String) : Call → Option (Int × Metadata)
  | .refresh clusterName now answers =>
    if trimSpace clusterName = c ∧ c ≠ "" then
      (describe c answers).toOption.map fun instances => (now, metadataOf instances)
    else none
  | _ => none

/-- The most recent one. -/
def lastRefresh (c : String) (calls : List Call) : Option (Int × Metadata) :=
  (calls.filterMap (Call.refreshed c)).getLast?

/-- Requested, and listed as missing; names are compared without surrounding blanks. -/
def Reappeared (resource : PgBouncerAurora) (instanceNames : List String) (name : String) : Prop :=
  (∃ requested ∈ instanceNames, trimSpace requested = name) ∧
    ∃ missing ∈ resource.status.missingInstances, trimSpace missing.instanceName = name

theorem lastRefresh_concat (c : String) (calls : List Call) (call : Call) :
    lastRefresh c (calls ++ [call]) = (call.refreshed c).or (lastRefresh c calls) := by
  unfold lastRefresh
  cases h : call.refreshed c <;> simp [h]

theorem collect_fst (clusterName : String) (expiresAt : Int) (instances : List DBInstance)
    (m : Memory) : (collect clusterName expiresAt instances m).1 = metadataOf instances := by
  unfold collect metadataOf
  generalize (∅ : Metadata) = out
  induction instances generalizing out m with
  | nil => rfl
  | cons inst instances ih =>
    rw [List.foldl_cons, List.filterMap_cons]
    cases metadataFromDBInstance inst with
    | none => exact ih m out
    | some metadata => exact ih _ _

/-- An instance without a name is skipped. -/
theorem metadataOf_empty (instances : List DBInstance) : (metadataOf instances)[""]? = none := by
  unfold metadataOf
  have hnames : ∀ metadata ∈ instances.filterMap metadataFromDBInstance,
      metadata.instanceName ≠ "" := by
    intro metadata hmem
    obtain ⟨inst, -, hinst⟩ := List.mem_filterMap.mp hmem
    unfold metadataFromDBInstance at hinst
    split at hinst
    · cases hinst
    · cases hinst
    · next name hne _ =>
      cases hinst
      exact fun hempty => hne hempty
  generalize instances.filterMap metadataFromDBInstance = l at hnames
  have hstart : (∅ : Metadata)[""]? = none := by simp
  generalize (∅ : Metadata) = out at hstart ⊢
  induction l generalizing out with
  | nil => exact hstart
  | cons metadata l ih =>
    obtain ⟨hname, hl⟩ := List.forall_mem_cons.mp hnames
    refine ih hl _ ?_
    rw [Std.ExtTreeMap.getElem?_insert, if_neg, hstart]
    exact fun heq => hname (Std.LawfulEqCmp.eq_of_compare heq)

theorem getElem?_foldl_erase (names : List String) (metadata : Metadata) (name : String) :
    (names.foldl (fun metadata name => metadata.erase name) metadata)[name]? =
      if name ∈ names then none else metadata[name]? := by
  induction names generalizing metadata with
  | nil => simp
  | cons first names ih =>
    rw [List.foldl_cons, ih, Std.ExtTreeMap.getElem?_erase]
    by_cases heq : first = name
    · simp [heq]
    · have hne : ¬ compare first name = .eq := fun h => heq (Std.LawfulEqCmp.eq_of_compare h)
      have hne' : ¬ name = first := fun h => heq h.symm
      simp [hne, hne']

theorem mem_reappearedInstanceNames {resource : PgBouncerAurora} {instanceNames : List String}
    {name : String} (hname : name ≠ "") :
    name ∈ reappearedInstanceNames (some resource) (uniqueSorted instanceNames) ↔
      Reappeared resource instanceNames name := by
  have hrequested : (∃ requested ∈ uniqueSorted instanceNames, trimSpace requested = name) ↔
      ∃ requested ∈ instanceNames, trimSpace requested = name := by
    constructor
    · rintro ⟨requested, hmem, htrim⟩
      simp only [uniqueSorted, mem_sortStrings, List.mem_dedup, List.mem_filter] at hmem
      exact ⟨requested, hmem.1, htrim⟩
    · rintro ⟨requested, hmem, htrim⟩
      have hne : requested ≠ "" := by
        rintro rfl
        exact hname (htrim.symm.trans (by decide +kernel))
      refine ⟨requested, ?_, htrim⟩
      simpa [uniqueSorted, hne] using hmem
  unfold reappearedInstanceNames Reappeared
  rw [← hrequested]
  simp only [List.mem_filter, List.mem_map, List.contains_iff_mem]
  exact and_comm

/-! ## 6. What the cache remembers -/

theorem clusterCacheKey_inj {c d : String} (h : clusterCacheKey c = clusterCacheKey d) : c = d := by
  simpa [clusterCacheKey] using h

theorem nameCacheKey_ne_clusterCacheKey (clusterName instanceName c : String) :
    nameCacheKey clusterName instanceName ≠ clusterCacheKey c := by
  intro h
  simpa [nameCacheKey, clusterCacheKey] using congrArg String.toList h

/-- The snapshot of the cluster is the last refresh of it, in a map that no caller has; without one
there was no refresh, or it has expired. -/
structure Remembers (ttl : Int) (c : String) (last : Option (Int × Metadata)) (now : Int)
    (m : Memory) (handed : List Ref) : Prop where
  handed_read : ∀ ref ∈ handed, ∃ x, m.heap.read ref = some x
  kept : ∀ entry, m.cache[clusterCacheKey c]? = some entry → ∃ start metadata ref,
    last = some (start, metadata) ∧ entry.expiresAt = start + ttl ∧ entry.cluster = some ref ∧
      m.heap.read ref = some metadata ∧ ref ∉ handed
  lost : m.cache[clusterCacheKey c]? = none → ∀ start metadata, last = some (start, metadata) →
    start + ttl < now

namespace Remembers

variable {ttl : Int} {c : String} {last : Option (Int × Metadata)} {now : Int} {m m' : Memory}
  {handed handed' : List Ref}

theorem init (ttl : Int) (c : String) (now : Int) : Remembers ttl c none now {} [] where
  handed_read := by simp
  kept := by simp
  lost := by simp

theorem mono (h : Remembers ttl c last now m handed) {now' : Int} (hle : now ≤ now') :
    Remembers ttl c last now' m handed :=
  { h with lost := fun hnone start metadata hlast =>
      lt_of_lt_of_le (h.lost hnone start metadata hlast) hle }

/-- What an operation may do that leaves the snapshot alone: write to maps that callers have, and
hand out maps that are new. -/
theorem frame (h : Remembers ttl c last now m handed)
    (hcache : m'.cache[clusterCacheKey c]? = m.cache[clusterCacheKey c]?)
    (hread : ∀ ref x, m.heap.read ref = some x → ref ∉ handed → m'.heap.read ref = some x)
    (hhanded : ∀ ref ∈ handed', (∃ x, m'.heap.read ref = some x) ∧
      ∀ x, m.heap.read ref = some x → ref ∈ handed) :
    Remembers ttl c last now m' handed' where
  handed_read ref hmem := (hhanded ref hmem).1
  kept entry hentry := by
    obtain ⟨start, metadata, ref, hlast, hexpires, hcluster, href, hnew⟩ :=
      h.kept entry (hcache ▸ hentry)
    exact ⟨start, metadata, ref, hlast, hexpires, hcluster, hread ref metadata href hnew,
      fun hmem => hnew ((hhanded ref hmem).2 metadata href)⟩
  lost hnone := h.lost (hcache ▸ hnone)

/-- A map is allocated and given to the caller. -/
theorem hand (h : Remembers ttl c last now m handed) (x : Metadata) :
    Remembers ttl c last now (m.alloc x).1 (handed ++ [(m.alloc x).2]) := by
  refine h.frame rfl (fun ref y hy _ => Heap.read_alloc hy) fun ref hmem => ?_
  rcases List.mem_append.mp hmem with hold | hout
  · obtain ⟨y, hy⟩ := h.handed_read ref hold
    exact ⟨⟨y, Heap.read_alloc hy⟩, fun _ _ => hold⟩
  · obtain rfl := List.mem_singleton.mp hout
    exact ⟨⟨x, Heap.read_alloc_self⟩, fun y hy => absurd rfl (Heap.alloc_ne (x := x) hy)⟩

/-- A map that a caller has is changed. -/
theorem update (h : Remembers ttl c last now m handed) {ref : Ref} (hmem : ref ∈ handed)
    (change : Metadata → Metadata) :
    Remembers ttl c last now { m with heap := m.heap.update ref change } handed := by
  refine h.frame rfl (fun other x hx hother => ?_) fun other hother => ⟨?_, fun _ _ => hother⟩
  · have hne : other ≠ ref := fun heq => hother (heq ▸ hmem)
    exact (Heap.read_update_ne hne change).trans hx
  · obtain ⟨x, hx⟩ := h.handed_read other hother
    by_cases heq : other = ref
    · exact ⟨change x, by rw [← heq, Heap.read_update_self, hx]; rfl⟩
    · exact ⟨x, (Heap.read_update_ne heq change).trans hx⟩

/-- The cache changes under other keys. -/
theorem cache (h : Remembers ttl c last now m handed) (cache : StringMap CachedInstanceMetadata)
    (hcache : cache[clusterCacheKey c]? = m.cache[clusterCacheKey c]?) :
    Remembers ttl c last now { m with cache := cache } handed :=
  h.frame hcache (fun _ _ hx _ => hx) fun ref hmem => ⟨h.handed_read ref hmem, fun _ _ => hmem⟩

theorem insert_ne (h : Remembers ttl c last now m handed) {key : String}
    (hkey : key ≠ clusterCacheKey c) (entry : CachedInstanceMetadata) :
    Remembers ttl c last now { m with cache := m.cache.insert key entry } handed := by
  refine h.cache _ ?_
  rw [Std.ExtTreeMap.getElem?_insert, if_neg]
  exact fun heq => hkey (Std.LawfulEqCmp.eq_of_compare heq)

/-- An expired snapshot may go. -/
theorem drop (h : Remembers ttl c last now m handed) (cache : StringMap CachedInstanceMetadata)
    (hcache : ∀ entry, cache[clusterCacheKey c]? = some entry →
      m.cache[clusterCacheKey c]? = some entry)
    (hdrop : ∀ entry, m.cache[clusterCacheKey c]? = some entry → cache[clusterCacheKey c]? = none →
      entry.expiresAt < now) :
    Remembers ttl c last now { m with cache := cache } handed where
  handed_read := h.handed_read
  kept entry hentry := h.kept entry (hcache entry hentry)
  lost hnone start metadata hlast := by
    cases hentry : m.cache[clusterCacheKey c]? with
    | none => exact h.lost hentry start metadata hlast
    | some entry =>
      obtain ⟨start', metadata', ref, hlast', hexpires, -⟩ := h.kept entry hentry
      cases hlast.symm.trans hlast'
      exact hexpires ▸ hdrop entry hentry hnone

theorem getElem?_prune (now : Int) (m : Memory) (key : String) :
    (Rds.prune now m).cache[key]? = m.cache[key]?.filter fun entry => !entry.expired now := by
  simp [Rds.prune, Std.ExtTreeMap.getElem?_filter, Option.pfilter_eq_filter]

theorem prune (h : Remembers ttl c last now m handed) :
    Remembers ttl c last now (Rds.prune now m) handed := by
  refine h.drop _ (fun entry hentry => ?_) fun entry hentry hnone => ?_
  · exact (Option.filter_eq_some_iff.mp ((getElem?_prune ..).symm.trans hentry)).1
  · have hfilter := (getElem?_prune now m (clusterCacheKey c)).symm.trans hnone
    simpa [hentry, CachedInstanceMetadata.expired] using hfilter

theorem collect (h : Remembers ttl c last now m handed) (clusterName : String) (expiresAt : Int)
    (instances : List DBInstance) :
    Remembers ttl c last now (Rds.collect clusterName expiresAt instances m).2 handed := by
  unfold Rds.collect
  generalize (∅ : Metadata) = out
  induction instances generalizing out m with
  | nil => exact h
  | cons inst instances ih =>
    rw [List.foldl_cons]
    cases metadataFromDBInstance inst with
    | none => exact ih h out
    | some metadata =>
      exact ih (h.insert_ne (nameCacheKey_ne_clusterCacheKey _ _ c) _) _

/-- The snapshot is replaced: what the caller has is copied. -/
theorem storeCluster (h : Remembers ttl c last now m handed) {ref : Ref} {metadata : Metadata}
    (href : m.heap.read ref = some metadata) (start : Int) :
    Remembers ttl c (some (start, metadata)) now (Rds.storeCluster c ref (start + ttl) m)
      handed where
  handed_read other hother := by
    obtain ⟨x, hx⟩ := h.handed_read other hother
    exact ⟨x, Heap.read_alloc hx⟩
  kept entry hentry := by
    have hcontents : m.contents (some ref) = metadata := by simp [Memory.contents, href]
    simp only [Rds.storeCluster, hcontents, Std.ExtTreeMap.getElem?_insert_self,
      Option.some.injEq] at hentry
    subst hentry
    refine ⟨start, metadata, _, rfl, rfl, rfl, ?_, fun hmem => ?_⟩
    · simp only [Rds.storeCluster, hcontents]
      exact Heap.read_alloc_self
    · obtain ⟨x, hx⟩ := h.handed_read _ hmem
      exact Heap.alloc_ne (x := metadata) hx rfl
  lost hnone := by simp [Rds.storeCluster] at hnone

theorem storeCluster_ne (h : Remembers ttl c last now m handed) {clusterName : String}
    (hne : clusterName ≠ c) (ref : Ref) (expiresAt : Int) :
    Remembers ttl c last now (Rds.storeCluster clusterName ref expiresAt m) handed := by
  have halloc : Remembers ttl c last now (m.alloc (m.contents (some ref))).1 handed :=
    h.frame rfl (fun _ _ hx _ => Heap.read_alloc hx) fun other hother =>
      ⟨(h.handed_read other hother).imp fun _ hx => Heap.read_alloc hx, fun _ _ => hother⟩
  exact halloc.insert_ne (fun heq => hne (clusterCacheKey_inj heq)) _

/-- A snapshot is copied and the copy handed out, or there is none. -/
theorem clusterSnapshot (h : Remembers ttl c last now m handed) (clusterName : String) :
    Remembers ttl c last now (Rds.clusterSnapshot clusterName now m).1
      (handed ++ (Rds.clusterSnapshot clusterName now m).2.toList) := by
  unfold Rds.clusterSnapshot
  cases hentry : m.cache[clusterCacheKey clusterName]? with
  | none => simpa using h
  | some entry =>
    dsimp only
    split
    · next hexpired =>
      simp only [Option.toList_none, List.append_nil]
      refine h.drop _ (fun kept hkept => ?_) fun kept hkept herased => ?_
      · rw [Std.ExtTreeMap.getElem?_erase] at hkept
        split at hkept
        · cases hkept
        · exact hkept
      · rw [Std.ExtTreeMap.getElem?_erase] at herased
        split at herased
        · next heq =>
          rw [Std.LawfulEqCmp.eq_of_compare heq, hkept] at hentry
          cases hentry
          simpa [CachedInstanceMetadata.expired] using hexpired
        · exact absurd (hkept.symm.trans herased) (by simp)
    · exact h.hand _

end Remembers

/-! ## 7. One call, and a run of calls -/

section Step

variable {r : Resolver} {c : String} {last : Option (Int × Metadata)} {now : Int} {p : Process}

theorem refreshCluster_remembers (hclient : r.client = true) (clusterName : String)
    (answers : Answers) (h : Remembers r.ttl c last now p.memory p.handed) :
    Remembers r.ttl c (((Call.refresh clusterName now answers).refreshed c).or last) now
      (p.return (r.refreshCluster clusterName now answers p.memory)).memory
      (p.return (r.refreshCluster clusterName now answers p.memory)).handed := by
  unfold Resolver.refreshCluster Call.refreshed
  by_cases hblank : trimSpace clusterName = ""
  · have hnot : ¬ (trimSpace clusterName = c ∧ c ≠ "") := fun h => h.2 (h.1.symm.trans hblank)
    simpa [hclient, hblank, hnot] using h
  simp only [hclient, Bool.not_true, Bool.false_eq_true, if_false, hblank]
  cases hdescribe : describe (trimSpace clusterName) answers with
  | error err =>
    have hnone : (if trimSpace clusterName = c ∧ c ≠ "" then
        (describe c answers).toOption.map fun instances => (now, metadataOf instances)
        else none) = none := by
      split
      · next hc => rw [← hc.1, hdescribe]; rfl
      · rfl
    rw [hnone]
    simpa using h.prune
  | ok instances =>
    dsimp only
    rw [collect_fst]
    have hcollected := (h.prune.collect (trimSpace clusterName) (now + r.ttl) instances).hand
      (metadataOf instances)
    by_cases hc : trimSpace clusterName = c
    · subst hc
      rw [if_pos ⟨rfl, hblank⟩, hdescribe]
      exact hcollected.storeCluster Heap.read_alloc_self now
    · rw [if_neg (fun h => hc h.1)]
      exact hcollected.storeCluster_ne hc _ _

theorem resolve_remembers (hclient : r.client = true) (hcached : r.cachedOnly = true)
    (resource : Option PgBouncerAurora) (instanceNames : List String) (later : Int)
    (answers : Answers) (h : Remembers r.ttl c last now p.memory p.handed) :
    Remembers r.ttl c last now
      (p.return (r.resolve resource instanceNames now later answers p.memory)).memory
      (p.return (r.resolve resource instanceNames now later answers p.memory)).handed := by
  unfold Resolver.resolve
  by_cases hblank : clusterNameOf resource = ""
  · simpa [hclient, hblank] using h
  simp only [hclient, hcached, Bool.not_true, Bool.false_eq_true, if_false, if_true, hblank]
  have hsnapshot := h.prune.clusterSnapshot (clusterNameOf resource)
  generalize clusterSnapshot (clusterNameOf resource) now (prune now p.memory) = snapshot
    at hsnapshot
  obtain ⟨m, _ | cached⟩ := snapshot
  · simp only [Option.toList_none, List.append_nil] at hsnapshot
    exact hsnapshot.hand ∅
  · exact hsnapshot.update (by simp) _

/-- A call keeps what is remembered, and a refresh of the cluster that succeeds replaces it. -/
theorem call_remembers (hclient : r.client = true) (hcached : r.cachedOnly = true) (call : Call)
    (htime : ∀ at', call.time = some at' → at' = now)
    (h : Remembers r.ttl c last now p.memory p.handed) :
    Remembers r.ttl c ((call.refreshed c).or last) now (r.call p call).memory
      (r.call p call).handed := by
  cases call with
  | refresh clusterName start answers =>
    obtain rfl := htime start rfl
    exact refreshCluster_remembers hclient clusterName answers h
  | resolve resource instanceNames start later answers =>
    obtain rfl := htime start rfl
    exact resolve_remembers hclient hcached resource instanceNames later answers h
  | edit i change =>
    unfold Resolver.call
    cases href : p.handed[i]? with
    | none => simpa [Call.refreshed, href] using h
    | some ref =>
      simp only [Call.refreshed, Option.none_or, href]
      exact h.update (List.mem_of_getElem? href) change

end Step

/-- The times at which the calls, and then a call at `now`, read the clock do not decrease. -/
def InOrder (calls : List Call) (now : Int) : Prop :=
  (calls.filterMap Call.time ++ [now]).Pairwise (· ≤ ·)

theorem run_remembers {r : Resolver} (hclient : r.client = true) (hcached : r.cachedOnly = true)
    (c : String) (calls : List Call) {now : Int} (htimes : InOrder calls now) :
    Remembers r.ttl c (lastRefresh c calls) now (Machine.run r.call {} calls).memory
      (Machine.run r.call {} calls).handed := by
  induction calls using List.reverseRecOn generalizing now with
  | nil => exact Remembers.init ..
  | append_singleton calls call ih =>
    rw [Machine.run_append, lastRefresh_concat]
    unfold InOrder at htimes
    rw [List.filterMap_append] at htimes
    cases htime : call.time with
    | none =>
      -- an edit reads no clock
      have hbefore : InOrder calls now := by simpa [InOrder, htime] using htimes
      exact call_remembers hclient hcached call (by simp [htime]) (ih hbefore)
    | some start =>
      simp only [List.filterMap_cons, htime, List.filterMap_nil] at htimes
      obtain ⟨hbefore, -, hle⟩ := List.pairwise_append.mp htimes
      have hstart : start ≤ now := hle start (by simp) now (by simp)
      refine Remembers.mono ?_ hstart
      exact call_remembers hclient hcached call (by simp [htime, eq_comm]) (ih hbefore)

/-! ## 8. The answers -/

/-- What a refresh still says at `now`. -/
def unexpired (ttl now : Int) : Option (Int × Metadata) → Metadata
  | none => ∅
  | some (start, metadata) => if now ≤ start + ttl then metadata else ∅

theorem unexpired_of_lost {ttl now : Int} {last : Option (Int × Metadata)}
    (h : ∀ start metadata, last = some (start, metadata) → start + ttl < now) :
    unexpired ttl now last = ∅ := by
  obtain _ | ⟨start, metadata⟩ := last
  · rfl
  · exact if_neg (not_le.mpr (h start metadata rfl))

theorem foldl_erase_empty (names : List String) :
    names.foldl (fun metadata name => metadata.erase name) (∅ : Metadata) = ∅ := by
  refine Std.ExtTreeMap.ext_getElem? fun name => ?_
  rw [getElem?_foldl_erase]
  simp

/-- The answer of `Resolve` from what is remembered. -/
theorem resolve_of_remembers {r : Resolver} (hclient : r.client = true) (hcached : r.cachedOnly = true)
    {resource : PgBouncerAurora} (hcluster : clusterNameOf (some resource) ≠ "")
    {last : Option (Int × Metadata)} {now : Int} {m : Memory} {handed : List Ref}
    (h : Remembers r.ttl (clusterNameOf (some resource)) last now m handed)
    (instanceNames : List String) (later : Int) (answers : Answers) :
    let result := r.resolve (some resource) instanceNames now later answers m
    (result.2.map fun ref => result.1.contents (some ref)) =
      .ok ((reappearedInstanceNames (some resource) (uniqueSorted instanceNames)).foldl
        (fun metadata name => metadata.erase name) (unexpired r.ttl now last)) := by
  have hpruned := h.prune
  unfold Resolver.resolve clusterSnapshot
  simp only [hclient, hcached, Bool.not_true, Bool.false_eq_true, if_false, if_true, hcluster]
  cases hentry : (prune now m).cache[clusterCacheKey (clusterNameOf (some resource))]? with
  | none =>
    rw [unexpired_of_lost (hpruned.lost hentry), foldl_erase_empty]
    simp [Except.map, Memory.contents, Memory.alloc]
  | some entry =>
    obtain ⟨start, metadata, ref, rfl, hexpires, hclusterRef, href, -⟩ := hpruned.kept entry hentry
    have hfresh : entry.expired now = false := by
      have hfilter := (Remembers.getElem?_prune ..).symm.trans hentry
      simpa using (Option.filter_eq_some_iff.mp hfilter).2
    have hle : now ≤ start + r.ttl := by
      simpa [CachedInstanceMetadata.expired, hexpires] using hfresh
    simp [hfresh, hclusterRef, href, unexpired, hle, Except.map, Memory.contents, Memory.alloc,
      Heap.read_update_self]

theorem answer_eq {r : Resolver} (hclient : r.client = true) (hcached : r.cachedOnly = true)
    {resource : PgBouncerAurora} (hcluster : clusterNameOf (some resource) ≠ "")
    {calls : List Call} {now : Int} (htimes : InOrder calls now) (instanceNames : List String)
    (later : Int) (answers : Answers) :
    r.answer calls resource instanceNames now later answers =
      .ok ((reappearedInstanceNames (some resource) (uniqueSorted instanceNames)).foldl
        (fun metadata name => metadata.erase name)
        (unexpired r.ttl now (lastRefresh (clusterNameOf (some resource)) calls))) :=
  resolve_of_remembers hclient hcached hcluster (run_remembers hclient hcached _ calls htimes) ..

theorem lastRefresh_metadata {c : String} {calls : List Call} {start : Int} {metadata : Metadata}
    (h : lastRefresh c calls = some (start, metadata)) :
    ∃ instances, metadata = metadataOf instances := by
  obtain ⟨call, -, hcall⟩ := List.mem_filterMap.mp (List.mem_of_getLast? h)
  cases call with
  | refresh clusterName now answers =>
    by_cases hc : trimSpace clusterName = c ∧ c ≠ ""
    · rw [Call.refreshed, if_pos hc] at hcall
      obtain ⟨instances, -, hmetadata⟩ := Option.map_eq_some_iff.mp hcall
      exact ⟨instances, (congrArg Prod.snd hmetadata).symm⟩
    · simp [Call.refreshed, hc] at hcall
  | resolve => cases hcall
  | edit => cases hcall

/-- A call that refreshes nothing may as well not have been made. -/
theorem lastRefresh_erase {c : String} {call : Call} (h : call.refreshed c = none)
    (before after : List Call) :
    lastRefresh c (before ++ call :: after) = lastRefresh c (before ++ after) := by
  unfold lastRefresh
  rw [List.filterMap_append, List.filterMap_cons, h, List.filterMap_append]

theorem InOrder.erase {before after : List Call} {call : Call} {now : Int}
    (h : InOrder (before ++ call :: after) now) : InOrder (before ++ after) now := by
  refine List.Pairwise.sublist (List.Sublist.append_right (List.Sublist.filterMap _ ?_) _) h
  exact List.Sublist.append_left (List.sublist_cons_self ..) _

/-- **The cache answers from the last refresh that succeeded.**  In `CachedOnly` mode `Resolve`
returns what the most recent successful refresh of the cluster found, without the requested names
that are listed as missing, until the refresh has expired, and nothing then.  A call that is not
such a refresh changes no later answer, and neither does what callers do to the maps they get. -/
theorem resolve_answers_last_refresh (r : Resolver) (hclient : r.client = true)
    (hcached : r.cachedOnly = true) (calls : List Call) (resource : PgBouncerAurora)
    (hcluster : clusterNameOf (some resource) ≠ "") (instanceNames : List String) (now later : Int)
    (htimes : InOrder calls now) (answers : Answers) :
    ∃ answer, r.answer calls resource instanceNames now later answers = .ok answer ∧
      (∀ start metadata, lastRefresh (clusterNameOf (some resource)) calls = some (start, metadata) →
        now ≤ start + r.ttl → ∀ name,
          (Reappeared resource instanceNames name → answer[name]? = none) ∧
          (¬ Reappeared resource instanceNames name → answer[name]? = metadata[name]?)) ∧
      ((∀ start metadata, lastRefresh (clusterNameOf (some resource)) calls = some (start, metadata) →
        start + r.ttl < now) → answer = ∅) ∧
      ∀ before call after, calls = before ++ call :: after →
        call.refreshed (clusterNameOf (some resource)) = none →
        r.answer (before ++ after) resource instanceNames now later answers = .ok answer := by
  refine ⟨_, answer_eq hclient hcached hcluster htimes .., ?_, ?_, ?_⟩
  · intro start metadata hlast hle name
    rw [getElem?_foldl_erase, hlast, unexpired, if_pos hle]
    by_cases hname : name = ""
    · -- no instance is called so
      obtain ⟨instances, rfl⟩ := lastRefresh_metadata hlast
      rw [hname, metadataOf_empty]
      simp
    · rw [← mem_reappearedInstanceNames hname]
      exact ⟨fun h => if_pos h, fun h => if_neg h⟩
  · intro hlost
    rw [unexpired_of_lost hlost, foldl_erase_empty]
  · rintro before call after rfl hcall
    rw [answer_eq hclient hcached hcluster htimes.erase, lastRefresh_erase hcall]

/-- A resource of the cluster, with one instance reported missing. -/
def billing (missing : String) : PgBouncerAurora where
  name := "billing"
  spec := { discovery := { clusterName := "billing" } }
  status := { missingInstances := [{ instanceName := missing }] }

def found (names : List String) : Answers where
  clusters := .ok 1
  instances := .ok (names.map fun name => { dbInstanceIdentifier := some name })

/-- The second refresh fails, and the third is of another cluster. -/
theorem billing_answered :
    let calls : List Call := [.refresh "billing" 0 (found ["a", "b"]),
      .refresh "billing" 1 { found [] with clusters := .ok 0 },
      .refresh "orders" 2 (found ["c"])]
    InOrder calls (60 * second) ∧ ∃ answer,
      Resolver.answer { client := true, cachedOnly := true } calls (billing "a") ["a", "b"]
        (60 * second) (60 * second) (found []) = .ok answer ∧
      answer["a"]? = none ∧ answer["b"]? = some { instanceName := "b" } := by
  intro calls
  have htimes : InOrder calls (60 * second) := by unfold InOrder; decide +kernel
  obtain ⟨answer, hanswer, hvalue, -⟩ := resolve_answers_last_refresh
    { client := true, cachedOnly := true } rfl rfl calls (billing "a") (by decide +kernel) ["a", "b"]
    (60 * second) (60 * second) htimes (found [])
  have hlast : lastRefresh (clusterNameOf (some (billing "a"))) calls =
      some (0, metadataOf [{ dbInstanceIdentifier := some "a" },
        { dbInstanceIdentifier := some "b" }]) := by
    rfl
  have hnames := hvalue _ _ hlast (by decide)
  refine ⟨htimes, answer, hanswer, (hnames "a").1 ?_, ((hnames "b").2 ?_).trans ?_⟩
  · exact ⟨⟨"a", by simp, by decide +kernel⟩, { instanceName := "a" }, by simp [billing],
      by decide +kernel⟩
  · rintro ⟨-, missing, hmissing, htrim⟩
    obtain rfl := List.mem_singleton.mp hmissing
    exact absurd htrim (by decide +kernel)
  · decide +kernel

/-- Blanks around names do not count: an instance whose name has one stays although it is requested
and listed as missing, and a refresh under a name with one is a refresh of the cluster. -/
theorem blanks_do_not_count :
    (Resolver.answer { client := true, cachedOnly := true }
      [.refresh "billing" 0 (found [" a"])] (billing " a") [" a"] 1 1 (found [])).toOption.map
        (fun answer => answer.contains " a") = some true ∧
    (Resolver.answer { client := true, cachedOnly := true }
      [.refresh "billing" 0 (found ["a"]), .refresh " billing" 1 (found ["b"])] (billing "c") []
        2 2 (found [])).toOption.map (fun answer => answer.keys) = some ["b"] := by
  decide +kernel

end Rds

end Discovery

end AuroraOperator

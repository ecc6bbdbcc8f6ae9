/-
# What a required zone does to a user's node affinity

A Deployment is rendered with the affinity the user configured, and zone awareness adds the
zone of the instance to it.  With enforcement `Required` the zone goes into the required node
affinity, and the promise of the documentation is that it is *additive*: a node is eligible
when it was before and lies in the zone.

What a node affinity means is for the scheduler to say, so this file starts with its reading
of one: the terms are alternatives, a term asks for all its expressions and fields, and a term
that asks for nothing matches no node.  The last rule is what the promise fails on.  A user who
writes an empty list of terms, or an empty term, admits no node by it; adding the zone to it
admits every node of the zone (`zone_affinity_additive_iff`).
-/
import AuroraOperator.Render.Resources

namespace AuroraOperator

/-! ## 1. Nodes and what matches them -/

/-- What the scheduler sees of a node.  The only field with a value is `metadata.name`. -/
structure Node where
  labels : StringMap String := ∅
  fields : StringMap String := ∅

/-- `strconv.ParseInt` with base 10 and 64 bits. -/
def parseInt64 (s : String) : Option Int :=
  (Render.atoi s).filter fun n => decide (-(2 ^ 63) ≤ n ∧ n < 2 ^ 63)

/-- A numeric comparison; a side that is not a number, or more than one bound, fails it. -/
def comparesAs (compares : Int → Int → Bool) (value : Option String) (bounds : List String) :
    Bool :=
  match value.bind parseInt64, bounds.map parseInt64 with
  | some n, [some bound] => compares n bound
  | _, _ => false

/-- Whether a requirement holds of the value that a node has under its key. -/
def NodeSelectorRequirement.holds (r : NodeSelectorRequirement) (value : Option String) : Bool :=
  match r.operator with
  | .In => value.any r.values.contains
  | .NotIn => !value.any r.values.contains
  | .Exists => value.isSome
  | .DoesNotExist => value.isNone
  | .Gt => comparesAs (fun n bound => decide (bound < n)) value r.values
  | .Lt => comparesAs (fun n bound => decide (n < bound)) value r.values

/-- All that a term asks for, be it nothing. -/
def NodeSelectorTerm.holds (t : NodeSelectorTerm) (node : Node) : Bool :=
  t.matchExpressions.all (fun r => r.holds node.labels[r.key]?) &&
    t.matchFields.all (fun r => r.holds node.fields[r.key]?)

def NodeSelectorTerm.asksNothing (t : NodeSelectorTerm) : Bool :=
  t.matchExpressions.isEmpty && t.matchFields.isEmpty

def NodeSelectorTerm.matches (t : NodeSelectorTerm) (node : Node) : Bool :=
  !t.asksNothing && t.holds node

namespace Render

open Planner

/-- A required node affinity: no constraint if it is absent, alternatives otherwise. -/
def requiredMatches (required : Option (List NodeSelectorTerm)) (node : Node) : Bool :=
  required.all fun terms => terms.any (·.matches node)

/-! ## 2. The parts of an affinity -/

def requiredTerms (affinity : Option Affinity) : Option (List NodeSelectorTerm) :=
  (affinity.bind (·.nodeAffinity)).bind (·.required)

def preferredTerms (affinity : Option Affinity) : List PreferredSchedulingTerm :=
  ((affinity.bind (·.nodeAffinity)).map (·.preferred)).getD []

def defaultTopologyKey : String := "topology.kubernetes.io/zone"

/-- The key under which a zone is rendered. -/
def renderedKey (spec : ZoneAwareSpec) : String := firstNonEmpty spec.topologyKey defaultTopologyKey

/-- What is added to the user's affinity. -/
def zoneRequirement (key zone : String) : NodeSelectorRequirement :=
  { key := key, operator := .In, values := [zone] }

@[simp] theorem zoneRequirement_key (key zone : String) : (zoneRequirement key zone).key = key := rfl

theorem zoneRequirement_holds (key zone : String) (value : Option String) :
    (zoneRequirement key zone).holds value = true ↔ value = some zone := by
  cases value <;> simp [NodeSelectorRequirement.holds, zoneRequirement]

theorem applyZoneAffinity_required {affinity : Option Affinity} {spec : ZoneAwareSpec}
    {zone : String} (henabled : enabledDefaultTrue spec.enabled = true) (hzone : zone ≠ "")
    (hrequired : spec.enforcement = some .required) :
    requiredTerms (applyZoneAffinity affinity spec zone) =
      some (mergeRequiredNodeAffinity (requiredTerms affinity)
        (zoneRequirement (renderedKey spec) zone)) := by
  rcases affinity with - | ⟨- | nodeAffinity, _, _⟩ <;>
    simp [applyZoneAffinity, requiredTerms, henabled, hzone, hrequired, renderedKey,
      defaultTopologyKey, zoneRequirement]

/-- With enforcement `Required` nothing but the required node affinity is touched. -/
theorem applyZoneAffinity_rest (affinity : Option Affinity) {spec : ZoneAwareSpec}
    (zone : String) (hrequired : spec.enforcement = some .required) :
    preferredTerms (applyZoneAffinity affinity spec zone) = preferredTerms affinity ∧
      (applyZoneAffinity affinity spec zone).bind (·.podAffinity) = affinity.bind (·.podAffinity) ∧
      (applyZoneAffinity affinity spec zone).bind (·.podAntiAffinity) =
        affinity.bind (·.podAntiAffinity) := by
  unfold applyZoneAffinity
  split
  · exact ⟨rfl, rfl, rfl⟩
  · rcases affinity with - | ⟨- | nodeAffinity, _, _⟩ <;> simp [preferredTerms]

/-! ## 3. Adding the zone to the terms -/

/-- A term with the zone added, which now asks for something. -/
theorem extended_matches (t : NodeSelectorTerm) (key zone : String) (node : Node) :
    ({ t with matchExpressions := t.matchExpressions ++ [zoneRequirement key zone] } :
        NodeSelectorTerm).matches node = true ↔
      t.holds node = true ∧ node.labels[key]? = some zone := by
  have hzone := zoneRequirement_holds key zone node.labels[key]?
  have hasks : ({ t with matchExpressions := t.matchExpressions ++ [zoneRequirement key zone] } :
      NodeSelectorTerm).asksNothing = false := by
    simp [NodeSelectorTerm.asksNothing]
  rw [NodeSelectorTerm.matches, hasks, Bool.not_false, Bool.true_and]
  simp only [NodeSelectorTerm.holds, List.all_append, List.all_cons, List.all_nil, Bool.and_true,
    Bool.and_eq_true, zoneRequirement_key, hzone]
  exact and_right_comm

/-- The merged affinity: the zone, and one term of the user's that holds, whether or not it asks
for anything; of an empty list the zone alone. -/
theorem merged_matches (required : Option (List NodeSelectorTerm)) (key zone : String)
    (node : Node) :
    requiredMatches (some (mergeRequiredNodeAffinity required (zoneRequirement key zone))) node =
        true ↔
      (∀ terms, required = some terms → terms = [] ∨ ∃ t ∈ terms, t.holds node = true) ∧
        node.labels[key]? = some zone := by
  have hnew := extended_matches {} key zone node
  rcases required with - | (- | ⟨t, terms⟩)
  · simpa [requiredMatches, mergeRequiredNodeAffinity, NodeSelectorTerm.holds] using hnew
  · simpa [requiredMatches, mergeRequiredNodeAffinity, NodeSelectorTerm.holds] using hnew
  · simp only [requiredMatches, mergeRequiredNodeAffinity, Option.all_some, List.any_map,
      List.any_eq_true, Function.comp_apply, extended_matches]
    constructor
    · rintro ⟨u, hu, hholds, hlabel⟩
      refine ⟨fun terms' heq => Or.inr ?_, hlabel⟩
      cases heq
      exact ⟨u, hu, hholds⟩
    · rintro ⟨hholds, hlabel⟩
      obtain ⟨u, hu, h⟩ := (hholds _ rfl).resolve_left (List.cons_ne_nil _ _)
      exact ⟨u, hu, h, hlabel⟩

/-- The user's node affinity has no shape that admits no node by asking for nothing. -/
def AsksSomething (required : Option (List NodeSelectorTerm)) : Prop :=
  ∀ terms, required = some terms → terms ≠ [] ∧ ∀ t ∈ terms, t.asksNothing = false

/-- One node in the zone: adding the zone keeps the user's verdict exactly if the user's affinity
asks for something, or admits the node anyway. -/
theorem kept_in_zone_iff (required : Option (List NodeSelectorTerm)) (node : Node) :
    ((∀ terms, required = some terms → terms = [] ∨ ∃ t ∈ terms, t.holds node = true) ↔
        requiredMatches required node = true) ↔
      AsksSomething required ∨ requiredMatches required node = true := by
  rcases required with - | terms
  · simp [requiredMatches]
  simp only [AsksSomething, requiredMatches, Option.some.injEq, forall_eq', Option.all_some,
    List.any_eq_true, NodeSelectorTerm.matches, Bool.and_eq_true, Bool.not_eq_true']
  constructor
  · intro hkept
    by_contra hnot
    obtain ⟨hasks, hnone⟩ := not_or.mp hnot
    -- whatever admits the zone's nodes would have been matched by the user's terms
    refine hasks ⟨fun hnil => hnone (hkept.mp (Or.inl hnil)), fun t ht => ?_⟩
    by_contra hnothing
    have hempty : t.matchExpressions = [] ∧ t.matchFields = [] := by
      simpa [NodeSelectorTerm.asksNothing] using hnothing
    exact hnone (hkept.mp (Or.inr ⟨t, ht, by simp [NodeSelectorTerm.holds, hempty]⟩))
  · rintro (⟨hne, hasks⟩ | ⟨t, ht, hmatch⟩)
    · exact ⟨fun h => (h.resolve_left hne).imp fun t ⟨ht, hholds⟩ => ⟨ht, hasks t ht, hholds⟩,
        fun ⟨t, ht, hmatch⟩ => Or.inr ⟨t, ht, hmatch.2⟩⟩
    · exact ⟨fun _ => ⟨t, ht, hmatch⟩, fun _ => Or.inr ⟨t, ht, hmatch.2⟩⟩

/-! ## 4. The rendered Deployment -/

/-- **When a required zone is additive.**  The rendered affinity admits a node exactly if the
user's does and the node is in the zone, unless the node is in the zone, is not admitted by the
user, and the user's affinity is an empty list or has a term that asks for nothing.  Everything
else the user wrote is rendered as it is. -/
theorem zone_affinity_additive_iff (affinity : Option Affinity) (spec : ZoneAwareSpec)
    (zone : String) (node : Node) (henabled : enabledDefaultTrue spec.enabled = true)
    (hzone : zone ≠ "") (hrequired : spec.enforcement = some .required) :
    ((requiredMatches (requiredTerms (applyZoneAffinity affinity spec zone)) node = true ↔
          requiredMatches (requiredTerms affinity) node = true ∧
            node.labels[renderedKey spec]? = some zone) ↔
        AsksSomething (requiredTerms affinity) ∨ node.labels[renderedKey spec]? ≠ some zone ∨
          requiredMatches (requiredTerms affinity) node = true) ∧
      preferredTerms (applyZoneAffinity affinity spec zone) = preferredTerms affinity ∧
      (applyZoneAffinity affinity spec zone).bind (·.podAffinity) = affinity.bind (·.podAffinity) ∧
      (applyZoneAffinity affinity spec zone).bind (·.podAntiAffinity) =
        affinity.bind (·.podAntiAffinity) ∧
      ∀ (owner : PgBouncerAurora) (planned : InstancePlan)
        (authFileHash : Option (Digest AuthFileMetadata)),
        (instanceDeployment owner planned authFileHash).template.spec.nodeSelector =
            owner.spec.pgbouncer.nodeSelector ∧
          (instanceDeployment owner planned authFileHash).template.spec.affinity =
            applyZoneAffinity owner.spec.pgbouncer.affinity owner.spec.topologyPolicy.zoneAware
              planned.availabilityZone := by
  obtain ⟨hpreferred, hpod, hanti⟩ := applyZoneAffinity_rest affinity zone hrequired
  refine ⟨?_, hpreferred, hpod, hanti, fun owner planned authFileHash => ⟨rfl, rfl⟩⟩
  rw [applyZoneAffinity_required henabled hzone hrequired, merged_matches]
  by_cases hlabel : node.labels[renderedKey spec]? = some zone
  · simpa [hlabel] using kept_in_zone_iff (requiredTerms affinity) node
  · simp [hlabel]

def requiredZone : ZoneAwareSpec := { enforcement := some .required }

def zoneNode : Node := { labels := (∅ : StringMap String).insert defaultTopologyKey "a" }

/-- An affinity that requires one of these terms. -/
def requiring (terms : List NodeSelectorTerm) : Option Affinity :=
  some { nodeAffinity := some { required := some terms } }

/-- A user who asks for fast disks. -/
def ssdTerm : NodeSelectorTerm :=
  { matchExpressions := [{ key := "disk", operator := .In, values := ["ssd"] }] }

theorem ssd_in_zone :
    requiredMatches (requiredTerms (applyZoneAffinity (requiring [ssdTerm]) requiredZone "a"))
        zoneNode = true ↔
      requiredMatches (requiredTerms (requiring [ssdTerm])) zoneNode = true ∧
        zoneNode.labels[renderedKey requiredZone]? = some "a" := by
  refine (zone_affinity_additive_iff (requiring [ssdTerm]) requiredZone "a" zoneNode rfl
    (by decide) rfl).1.mpr (Or.inl fun terms hterms => ?_)
  obtain rfl : [ssdTerm] = terms := Option.some.inj hterms
  exact ⟨by decide, by decide⟩

/-- A term that asks for nothing, or no term at all, admits no node, and with the zone added every
node of the zone. -/
theorem nothing_admits_zone :
    (requiredMatches (requiredTerms (requiring [{}])) zoneNode = false ∧
        requiredMatches (requiredTerms (applyZoneAffinity (requiring [{}]) requiredZone "a"))
          zoneNode = true) ∧
      requiredMatches (requiredTerms (requiring [])) zoneNode = false ∧
        requiredMatches (requiredTerms (applyZoneAffinity (requiring []) requiredZone "a"))
          zoneNode = true := by
  decide +kernel

end Render

end AuroraOperator

/-
# Does the zone check see every conflict?

`zoneAwareConflictCondition` compares the zone of every active instance with what the user asks
for under the topology key, in the `nodeSelector` and in the required node affinity.  It reports a
conflict when no node with that zone could take the pod.

The check reads each term of the affinity up to its first expression on the key and takes its word
for the term.  A term asks for all its expressions, so what the first one admits a later one may
still reject: such a conflict is missed, and with policy `Fail` a plan whose pods cannot be placed
is applied.  What the first one rejects is rejected, so within one key nothing is reported wrongly.

Besides, the check and the rendering of the affinity each have a `firstNonEmpty` of their own, and
only one of the two trims.  A topology key of blanks is rendered as it is and checked as the default
key, so the check looks at constraints that have nothing to do with the rendered one.

`zone_conflict_exact_iff` says for which specs neither matters.
-/
import AuroraOperator.Controller.Agreement
import AuroraOperator.Render.Scheduling

namespace AuroraOperator

namespace Controller

open Planner Render

/-! ## 1. What the user asks for under one key -/

/-- The node meets what is asked for under the key: the `nodeSelector` entry, and one term's
expressions on the key. -/
structure AdmittedOn (pgbouncer : PgBouncerSpec) (key : String) (node : Node) : Prop where
  selector : ∀ selected, pgbouncer.nodeSelector[key]? = some selected →
    node.labels[key]? = some selected
  affinity : ∀ terms, requiredTerms pgbouncer.affinity = some terms →
    ∃ t ∈ terms, ∀ r ∈ t.matchExpressions, r.key = key → r.holds node.labels[key]? = true

/-- No node with this label can take the pods. -/
def ShutsOut (pgbouncer : PgBouncerSpec) (key zone : String) : Prop :=
  ∀ node : Node, node.labels[key]? = some zone → ¬ AdmittedOn pgbouncer key node

def SelectsOther (pgbouncer : PgBouncerSpec) (key zone : String) : Prop :=
  ∃ selected, pgbouncer.nodeSelector[key]? = some selected ∧ selected ≠ zone

/-- Some expression of the term on the key rejects the zone ... -/
def Rejects (key zone : String) (t : NodeSelectorTerm) : Prop :=
  ∃ r ∈ t.matchExpressions, r.key = key ∧ r.holds (some zone) = false

/-- ... and here it is the first one. -/
def RejectsAtOnce (key zone : String) (t : NodeSelectorTerm) : Prop :=
  ∃ r, t.matchExpressions.find? (fun r => r.key = key) = some r ∧ r.holds (some zone) = false

/-- The zone is out, where `rejects` says which terms reject it. -/
def Closed (rejects : String → String → NodeSelectorTerm → Prop) (pgbouncer : PgBouncerSpec)
    (key zone : String) : Prop :=
  SelectsOther pgbouncer key zone ∨
    ∃ terms, requiredTerms pgbouncer.affinity = some terms ∧ ∀ t ∈ terms, rejects key zone t

/-- The expressions use the operators that can be decided from one label value. -/
def OnLabelValues (required : Option (List NodeSelectorTerm)) : Prop :=
  ∀ terms, required = some terms → ∀ t ∈ terms, ∀ r ∈ t.matchExpressions,
    r.operator ∈ [.In, .NotIn, .Exists, .DoesNotExist]

section Reading

variable {pgbouncer : PgBouncerSpec} {key zone : String}

theorem RejectsAtOnce.rejects {t : NodeSelectorTerm} (h : RejectsAtOnce key zone t) :
    Rejects key zone t := by
  obtain ⟨r, hfind, hholds⟩ := h
  exact ⟨r, List.mem_of_find?_eq_some hfind, by simpa using List.find?_some hfind, hholds⟩

theorem not_rejects {t : NodeSelectorTerm} :
    ¬ Rejects key zone t ↔
      ∀ r ∈ t.matchExpressions, r.key = key → r.holds (some zone) = true := by
  simp [Rejects]

/-- The label value is all that matters of a node. -/
theorem shutsOut_iff : ShutsOut pgbouncer key zone ↔ Closed Rejects pgbouncer key zone := by
  constructor
  · intro hout
    by_contra hopen
    obtain ⟨hselector, haffinity⟩ := not_or.mp hopen
    refine hout { labels := (∅ : StringMap String).insert key zone } (by simp)
      ⟨fun selected hselected => ?_, fun terms hterms => ?_⟩
    · by_contra hne
      refine hselector ⟨selected, hselected, fun heq => hne ?_⟩
      simp [heq]
    · by_contra hnone
      refine haffinity ⟨terms, hterms, fun t ht => ?_⟩
      by_contra hadmits
      exact hnone ⟨t, ht, by simpa using not_rejects.mp hadmits⟩
  · rintro (⟨selected, hselected, hne⟩ | ⟨terms, hterms, hreject⟩) node hlabel hadmitted
    · have := hadmitted.selector selected hselected
      rw [hlabel] at this
      exact hne (Option.some.inj this).symm
    · obtain ⟨t, ht, hholds⟩ := hadmitted.affinity terms hterms
      rw [hlabel] at hholds
      exact not_rejects.mpr hholds (hreject t ht)

/-! ## 2. What the check reads -/

/-- The source's switch is `holds` at the zone, for the first expression on the key. -/
theorem nodeSelectorTermAllowsZone_eq {t : NodeSelectorTerm}
    (hops : ∀ r ∈ t.matchExpressions, r.operator ∈ [.In, .NotIn, .Exists, .DoesNotExist]) :
    nodeSelectorTermAllowsZone t key zone = false ↔ RejectsAtOnce key zone t := by
  unfold nodeSelectorTermAllowsZone RejectsAtOnce
  dsimp only
  generalize t.matchExpressions = expressions at hops ⊢
  induction expressions with
  | nil => simp
  | cons r rest ih =>
    obtain ⟨hop, hrest⟩ := List.forall_mem_cons.mp hops
    by_cases hkey : r.key = key
    · rw [List.filterMap_cons, if_neg (not_not_intro hkey), List.find?_cons_of_pos (by simp [hkey])]
      simp only [Option.some.injEq, exists_eq_left', NodeSelectorRequirement.holds]
      cases hcase : r.operator <;> simp_all
    · rw [List.filterMap_cons, if_pos hkey, List.find?_cons_of_neg (by simp [hkey])]
      exact ih hrest

theorem requiredNodeAffinityConflicts_eq (hasks : AsksSomething (requiredTerms pgbouncer.affinity))
    (hops : OnLabelValues (requiredTerms pgbouncer.affinity)) :
    requiredNodeAffinityConflicts pgbouncer.affinity key zone = true ↔
      ∃ terms, requiredTerms pgbouncer.affinity = some terms ∧
        ∀ t ∈ terms, RejectsAtOnce key zone t := by
  unfold requiredNodeAffinityConflicts
  rw [show (pgbouncer.affinity.bind (·.nodeAffinity)).bind (·.required) =
    requiredTerms pgbouncer.affinity from rfl]
  rcases hterms : requiredTerms pgbouncer.affinity with - | (- | ⟨t, terms⟩)
  · simp
  · exact absurd rfl (hasks [] hterms).1
  · have hread : ∀ u ∈ t :: terms,
        (nodeSelectorTermAllowsZone u key zone = false ↔ RejectsAtOnce key zone u) :=
      fun u hu => nodeSelectorTermAllowsZone_eq (hops _ hterms u hu)
    simp only [Bool.not_eq_true', List.any_eq_false, Bool.not_eq_true, Option.some.injEq,
      exists_eq_left']
    exact forall₂_congr hread

theorem excludesZone_eq {resource : PgBouncerAurora}
    (hasks : AsksSomething (requiredTerms resource.spec.pgbouncer.affinity))
    (hops : OnLabelValues (requiredTerms resource.spec.pgbouncer.affinity)) :
    excludesZone resource key zone = true ↔
      zone ≠ "" ∧ Closed RejectsAtOnce resource.spec.pgbouncer key zone := by
  rw [excludesZone, Closed, ← requiredNodeAffinityConflicts_eq hasks hops]
  cases hselected : resource.spec.pgbouncer.nodeSelector[key]? <;> simp [SelectsOther, hselected]

end Reading

/-! ## 3. Exactness -/

/-- The topology key that the check and the rendering understand differently. -/
def BlankKey (spec : ZoneAwareSpec) : Prop :=
  spec.topologyKey ≠ "" ∧ trimSpace spec.topologyKey = ""

/-- Every term rejects the zone, but one of them admits it with its first expression on the key. -/
def Hides (pgbouncer : PgBouncerSpec) (key zone : String) : Prop :=
  ¬ SelectsOther pgbouncer key zone ∧
    ∃ terms, requiredTerms pgbouncer.affinity = some terms ∧ (∀ t ∈ terms, Rejects key zone t) ∧
      ∃ t ∈ terms, ¬ RejectsAtOnce key zone t

/-- No conflict is hidden from the check.  For a key of blanks that takes a coincidence: what is
asked for under the default key must put out the same zones. -/
def ConflictsVisible (resource : PgBouncerAurora) : Prop :=
  let spec := resource.spec.topologyPolicy.zoneAware
  let pgbouncer := resource.spec.pgbouncer
  (¬ BlankKey spec ∧ ∀ zone ≠ "", ¬ Hides pgbouncer (renderedKey spec) zone) ∨
    (BlankKey spec ∧
      ¬ (spec.enforcement = some .required ∧
        hasTopologySpreadOnKey resource defaultTopologyKey = true) ∧
      ∀ zone ≠ "", (Closed RejectsAtOnce pgbouncer defaultTopologyKey zone ↔
        Closed Rejects pgbouncer spec.topologyKey zone))

/-- The key under which the check looks. -/
def checkedKey (spec : ZoneAwareSpec) : String :=
  firstNonBlank spec.topologyKey defaultTopologyKey

theorem defaultTopologyKey_not_blank : trimSpace defaultTopologyKey ≠ "" := by decide +kernel

theorem checkedKey_of_blank {spec : ZoneAwareSpec} (h : BlankKey spec) :
    checkedKey spec = defaultTopologyKey ∧ renderedKey spec = spec.topologyKey := by
  simp [checkedKey, firstNonBlank, renderedKey, firstNonEmpty, h.1, h.2,
    defaultTopologyKey_not_blank]

theorem checkedKey_of_not_blank {spec : ZoneAwareSpec} (h : ¬ BlankKey spec) :
    checkedKey spec = renderedKey spec := by
  have hempty : trimSpace "" = "" := by decide +kernel
  by_cases hkey : spec.topologyKey = ""
  · simp [checkedKey, firstNonBlank, renderedKey, firstNonEmpty, hkey, hempty,
      defaultTopologyKey_not_blank]
  · have hblank : trimSpace spec.topologyKey ≠ "" := fun hb => h ⟨hkey, hb⟩
    simp [checkedKey, firstNonBlank, renderedKey, firstNonEmpty, hkey, hblank]

/-- Within one key the check errs in one direction only. -/
theorem closed_iff_not_hides {pgbouncer : PgBouncerSpec} {key zone : String} :
    (Closed RejectsAtOnce pgbouncer key zone ↔ Closed Rejects pgbouncer key zone) ↔
      ¬ Hides pgbouncer key zone := by
  constructor
  · rintro hsame ⟨hselector, terms, hterms, hall, t, ht, hlate⟩
    rcases hsame.mpr (Or.inr ⟨terms, hterms, hall⟩) with h | ⟨terms', hterms', hfirst⟩
    · exact hselector h
    · cases hterms.symm.trans hterms'
      exact hlate (hfirst t ht)
  · intro hhides
    constructor
    · exact Or.imp_right fun ⟨terms, hterms, h⟩ => ⟨terms, hterms, fun t ht => (h t ht).rejects⟩
    · rintro (h | ⟨terms, hterms, hall⟩)
      · exact Or.inl h
      · by_contra hopen
        obtain ⟨hselector, hfirst⟩ := not_or.mp hopen
        refine hhides ⟨hselector, terms, hterms, hall, ?_⟩
        by_contra hnone
        refine hfirst ⟨terms, hterms, fun t ht => ?_⟩
        by_contra hlate
        exact hnone ⟨t, ht, hlate⟩

/-- Zone awareness is on with a policy that reports, no spread constraint is on the rendered key,
and the required node affinity has ordinary terms only. -/
structure Checkable (resource : PgBouncerAurora) : Prop where
  enabled : enabledDefaultTrue resource.spec.topologyPolicy.zoneAware.enabled = true
  policy : resource.spec.topologyPolicy.zoneAware.conflictPolicy ≠ some .ignore
  spread : hasTopologySpreadOnKey resource
    (renderedKey resource.spec.topologyPolicy.zoneAware) = false
  asks : AsksSomething (requiredTerms resource.spec.pgbouncer.affinity)
  operators : OnLabelValues (requiredTerms resource.spec.pgbouncer.affinity)

/-- Exactness for all plans, zone by zone: the empty plan shows the spread constraint, and a plan
with one instance shows its zone. -/
theorem exact_iff {resource : PgBouncerAurora} (h : Checkable resource) (key : String) :
    let spec := resource.spec.topologyPolicy.zoneAware
    (∀ plan : Output, (zoneAwareConflictCondition resource plan).status = .true ↔
        ∃ entry ∈ activePlanInstances plan.instances, entry.availabilityZone ≠ "" ∧
          ShutsOut resource.spec.pgbouncer key entry.availabilityZone) ↔
      ¬ (spec.enforcement = some .required ∧
          hasTopologySpreadOnKey resource (checkedKey spec) = true) ∧
        ∀ zone ≠ "", (Closed RejectsAtOnce resource.spec.pgbouncer (checkedKey spec) zone ↔
          Closed Rejects resource.spec.pgbouncer key zone) := by
  intro spec
  have hstatus : ∀ plan : Output, (zoneAwareConflictCondition resource plan).status = .true ↔
      (∃ entry ∈ activePlanInstances plan.instances, entry.availabilityZone ≠ "" ∧
        Closed RejectsAtOnce resource.spec.pgbouncer (checkedKey spec) entry.availabilityZone) ∨
      (spec.enforcement = some .required ∧
        hasTopologySpreadOnKey resource (checkedKey spec) = true) := by
    intro plan
    refine (zoneAwareConflictCondition_status plan h.policy).trans ?_
    simp only [h.enabled, true_and, excludesZone_eq h.asks h.operators, activePlanInstances,
      List.mem_filter, Bool.not_eq_true', and_assoc]
    rfl
  simp only [hstatus, shutsOut_iff]
  constructor
  · intro hexact
    have hspread : ¬ (spec.enforcement = some .required ∧
        hasTopologySpreadOnKey resource (checkedKey spec) = true) := by
      simpa [activePlanInstances] using hexact {}
    refine ⟨hspread, fun zone hzone => ?_⟩
    simpa [activePlanInstances, hspread, hzone] using
      hexact { instances := [{ name := "db-1", role := .reader, availabilityZone := zone }] }
  · rintro ⟨hspread, hzones⟩ plan
    simp only [hspread, or_false]
    exact exists_congr fun entry => and_congr_right fun _ => and_congr_right fun hzone =>
      hzones _ hzone

/-- **When the zone check is exact.**  For all plans the check reports a conflict exactly when some
active instance's zone is shut out under the rendered key, if and only if no conflict is hidden
from it. -/
theorem zone_conflict_exact_iff (resource : PgBouncerAurora) (h : Checkable resource) :
    (∀ plan : Output, (zoneAwareConflictCondition resource plan).status = .true ↔
        ∃ entry ∈ activePlanInstances plan.instances, entry.availabilityZone ≠ "" ∧
          ShutsOut resource.spec.pgbouncer (renderedKey resource.spec.topologyPolicy.zoneAware)
            entry.availabilityZone) ↔
      ConflictsVisible resource := by
  refine (exact_iff h _).trans ?_
  unfold ConflictsVisible
  dsimp only
  by_cases hblank : BlankKey resource.spec.topologyPolicy.zoneAware
  · obtain ⟨hchecked, hrendered⟩ := checkedKey_of_blank hblank
    rw [hchecked, hrendered]
    simp only [hblank, not_true_eq_false, false_and, true_and, false_or]
  · rw [checkedKey_of_not_blank hblank, h.spread]
    simp only [hblank, not_false_eq_true, false_and, true_and, or_false, Bool.false_eq_true,
      and_false, closed_iff_not_hides]

/-- A user whose pods must satisfy the expressions, under some topology key. -/
def constrained (topologyKey : String) (expressions : List NodeSelectorRequirement) :
    PgBouncerAurora :=
  { name := "db"
    spec :=
      { pgbouncer := { affinity := requiring [{ matchExpressions := expressions }] }
        topologyPolicy := { zoneAware := { topologyKey := topologyKey } } } }

/-- One active instance, in zone `a`. -/
def planInZoneA : Output :=
  { instances := [{ name := "db-1", role := .reader, availabilityZone := "a" }] }

theorem constrained_checkable {topologyKey : String} {expressions : List NodeSelectorRequirement}
    (hne : expressions ≠ [])
    (hops : ∀ r ∈ expressions, r.operator ∈ [.In, .NotIn, .Exists, .DoesNotExist]) :
    Checkable (constrained topologyKey expressions) where
  enabled := rfl
  policy := by simp [constrained]
  spread := rfl
  asks := by
    rintro terms hterms
    obtain rfl := Option.some.inj hterms
    simp [NodeSelectorTerm.asksNothing, hne]
  operators := by
    rintro terms hterms t ht
    obtain rfl := Option.some.inj hterms
    rw [List.mem_singleton.mp ht]
    exact hops

theorem constrained_shutsOut {topologyKey zone : String}
    {expressions : List NodeSelectorRequirement}
    (h : ∃ r ∈ expressions, r.key = renderedKey { topologyKey := topologyKey } ∧
      r.holds (some zone) = false) :
    ShutsOut (constrained topologyKey expressions).spec.pgbouncer
      (renderedKey { topologyKey := topologyKey }) zone := by
  refine shutsOut_iff.mpr (Or.inr ⟨_, rfl, fun t ht => ?_⟩)
  rw [List.mem_singleton.mp ht]
  exact h

/-- One expression under the default key hides nothing. -/
theorem one_expression_exact :
    Checkable (constrained "" [zoneRequirement defaultTopologyKey "b"]) ∧
      ∀ plan : Output,
        (zoneAwareConflictCondition (constrained "" [zoneRequirement defaultTopologyKey "b"])
            plan).status = .true ↔
          ∃ entry ∈ activePlanInstances plan.instances, entry.availabilityZone ≠ "" ∧
            ShutsOut (constrained "" [zoneRequirement defaultTopologyKey "b"]).spec.pgbouncer
              (renderedKey { topologyKey := "" }) entry.availabilityZone := by
  have hcheckable : Checkable (constrained "" [zoneRequirement defaultTopologyKey "b"]) :=
    constrained_checkable (by simp) (by decide)
  refine ⟨hcheckable, (zone_conflict_exact_iff _ hcheckable).mpr (Or.inl ?_)⟩
  refine ⟨fun hblank => hblank.1 rfl, ?_⟩
  rintro zone - ⟨-, terms, hterms, hall, t, ht, hlate⟩
  obtain rfl := Option.some.inj hterms
  obtain ⟨r, hr, hkey, hholds⟩ := hall t ht
  rw [List.mem_singleton.mp ht, List.mem_singleton] at hr
  refine hlate ⟨r, ?_, hholds⟩
  rw [List.mem_singleton.mp ht, List.find?_cons_of_pos (by simp [← hr, hkey]), hr]

/-- The check is to find the conflict of this resource in zone `a`, and does not. -/
structure MissesZoneA (resource : PgBouncerAurora) : Prop where
  checkable : Checkable resource
  unreported : (zoneAwareConflictCondition resource planInZoneA).status = .false
  shutsOut : ShutsOut resource.spec.pgbouncer
    (renderedKey resource.spec.topologyPolicy.zoneAware) "a"

/-- A later expression rejects what the first admits, or the topology key is blank: the zone is
shut out, and no conflict is reported. -/
theorem conflicts_missed :
    MissesZoneA (constrained "" [{ key := defaultTopologyKey, operator := .Exists },
        zoneRequirement defaultTopologyKey "b"]) ∧
      MissesZoneA (constrained " " [zoneRequirement " " "b"]) := by
  constructor
  · refine ⟨constrained_checkable (by simp) (by decide), by decide +kernel, ?_⟩
    exact constrained_shutsOut
      ⟨_, List.mem_cons_of_mem _ (List.mem_singleton_self _), rfl, by decide⟩
  · refine ⟨constrained_checkable (by simp) (by decide), by decide +kernel, ?_⟩
    exact constrained_shutsOut ⟨_, List.mem_singleton_self _, rfl, by decide⟩

end Controller

end AuroraOperator

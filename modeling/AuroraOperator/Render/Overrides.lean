/-
# Overrides

`spec.pgbouncer.instanceOverrides` is a list with an entry for an instance wherever the user put
one: twice, or with settings that overlap.  `mergedConfig` folds the entries of one instance over
the common configuration, map by map.

* The outcome is known key by key: the last entry of the instance that sets a key decides, then
  the common configuration (`MergeLaw`).
* Everything rendered for an instance reads the list through the entries of its own name, and
  through those without a name, which is how `ListenPort` asks for the common port.  So an edit of
  other entries leaves the instance alone (`override_merge_and_locality`).
-/
import AuroraOperator.Render.Resources

namespace AuroraOperator

namespace Render

open Planner

/-! ## 1. Merging, key by key -/

theorem mergeMap_getElem? {α : Type} (base overlay : StringMap α) (key : String) :
    (mergeMap base overlay)[key]? = overlay[key]?.or base[key]? := by
  cases h : overlay[key]? with
  | none => rw [getElem?_mergeMap_of_none h, Option.none_or]
  | some value => rw [getElem?_mergeMap h, Option.some_or]

/-- Updating a map at each key of a list without repetitions. -/
theorem foldl_update_getElem? {α β : Type} (update : Option α → β → α) (l : List (String × β))
    (hkeys : (l.map (·.1)).Nodup) (base : StringMap α) (key : String) :
    (l.foldl (fun out kv => out.insert kv.1 (update out[kv.1]? kv.2)) base)[key]? =
      ((l.find? (·.1 = key)).map fun kv => update base[key]? kv.2).or base[key]? := by
  induction l generalizing base with
  | nil => rfl
  | cons kv l ih =>
    rw [List.map_cons, List.nodup_cons] at hkeys
    rw [List.foldl_cons, ih hkeys.2, List.find?_cons]
    by_cases hkey : kv.1 = key
    · subst hkey
      have hnone : l.find? (·.1 = kv.1) = none := by
        rw [List.find?_eq_none]
        intro other hother
        have hne : other.1 ≠ kv.1 := fun heq => hkeys.1 (heq ▸ List.mem_map_of_mem hother)
        simpa using hne
      simp [hnone]
    · have hsame : (base.insert kv.1 (update base[kv.1]? kv.2))[key]? = base[key]? := by
        rw [Std.ExtTreeMap.getElem?_insert, if_neg (by simpa using hkey)]
      simp only [hkey, decide_false, hsame]

theorem find?_toList {α : Type} (m : StringMap α) (key : String) :
    (m.toList.find? (·.1 = key)).map (·.2) = m[key]? := by
  cases hfound : m.toList.find? (·.1 = key) with
  | some kv =>
    have hkey : kv.1 = key := by simpa using List.find?_some hfound
    have hmem : (kv.1, kv.2) ∈ m.toList := List.mem_of_find?_eq_some hfound
    rw [Std.ExtTreeMap.mem_toList_iff_getElem?_eq_some, hkey] at hmem
    rw [hmem]
    rfl
  | none =>
    cases hvalue : m[key]? with
    | none => rfl
    | some value =>
      have hmem := Std.ExtTreeMap.mem_toList_iff_getElem?_eq_some.mpr hvalue
      simpa using List.find?_eq_none.mp hfound _ hmem

theorem nodup_keys_toList {α : Type} (m : StringMap α) : (m.toList.map (·.1)).Nodup := by
  rw [Std.ExtTreeMap.map_fst_toList_eq_keys]
  exact (Std.ExtTreeMap.distinct_keys).imp fun hne heq => hne (by simp [heq])

/-- A shared name gets the merged options. -/
theorem mergeMapMap_getElem? (base overlay : StringMap (StringMap String)) (name : String) :
    (mergeMapMap base overlay)[name]? =
      (overlay[name]?.map fun values => mergeMap (base[name]?.getD ∅) values).or base[name]? := by
  rw [mergeMapMap, Std.ExtTreeMap.foldl_eq_foldl_toList,
    foldl_update_getElem? (fun old values => mergeMap (old.getD ∅) values) _
      (nodup_keys_toList overlay), ← find?_toList overlay, Option.map_map]
  rfl

/-! ## 2. What an instance's configuration is -/

/-- The sections whose entries have a name and options of their own. -/
inductive NamedSection where
  | databases
  | users
  | peers

def namedSection (config : PgBouncerConfigSpec) : NamedSection → StringMap (StringMap String)
  | .databases => config.databases
  | .users => config.users
  | .peers => config.peers

theorem namedSection_mergeConfigInto (base overlay : PgBouncerConfigSpec) (kind : NamedSection) :
    namedSection (mergeConfigInto base overlay) kind =
      mergeMapMap (namedSection base kind) (namedSection overlay kind) := by
  cases kind <;> rfl

/-- The value of an option, if the section sets it. -/
def optionAt (entries : StringMap (StringMap String)) (name key : String) : Option String :=
  entries[name]?.bind (·[key]?)

theorem optionAt_mergeMapMap (base overlay : StringMap (StringMap String)) (name key : String) :
    optionAt (mergeMapMap base overlay) name key =
      (optionAt overlay name key).or (optionAt base name key) := by
  unfold optionAt
  rw [mergeMapMap_getElem?]
  cases overlay[name]? with
  | none => rfl
  | some values =>
    cases base[name]? <;> simp [mergeMap_getElem?]

theorem mem_mergeMapMap (base overlay : StringMap (StringMap String)) (name : String) :
    name ∈ mergeMapMap base overlay ↔ name ∈ base ∨ name ∈ overlay := by
  simp only [Std.ExtTreeMap.mem_iff_isSome_getElem?, mergeMapMap_getElem?]
  cases overlay[name]? <;> simp

/-- The entries of an instance, in the order of the list. -/
def overridesFor (spec : PgBouncerAuroraSpec) (instanceName : String) : List InstanceOverrideSpec :=
  spec.pgbouncer.instanceOverrides.filter (·.name = instanceName)

theorem mergedConfig_eq (spec : PgBouncerAuroraSpec) (instanceName : String) :
    mergedConfig spec instanceName = (overridesFor spec instanceName).foldl
      (fun config override => mergeConfigInto config override.config) spec.pgbouncer.config := by
  rw [mergedConfig, overridesFor, List.foldl_filter]
  congr 1
  funext config override
  by_cases h : override.name = instanceName <;> simp [h]

/-- **The last override wins**, for whatever a merge decides by asking the overlay first. -/
theorem mergedConfig_lookup {α : Type} (get : PgBouncerConfigSpec → Option α)
    (hget : ∀ base overlay, get (mergeConfigInto base overlay) = (get overlay).or (get base))
    (spec : PgBouncerAuroraSpec) (instanceName : String) :
    get (mergedConfig spec instanceName) =
      ((overridesFor spec instanceName).reverse.findSome? fun override => get override.config).or
        (get spec.pgbouncer.config) := by
  rw [mergedConfig_eq]
  generalize spec.pgbouncer.config = base
  induction overridesFor spec instanceName generalizing base with
  | nil => rfl
  | cons override rest ih =>
    rw [List.foldl_cons, ih, hget, List.reverse_cons, List.findSome?_append, Option.or_assoc]
    simp

/-- The configuration of an instance, key by key. -/
structure MergeLaw (spec : PgBouncerAuroraSpec) (instanceName : String) : Prop where
  settings : ∀ key : String, (mergedConfig spec instanceName).pgbouncer[key]? =
    ((overridesFor spec instanceName).reverse.findSome? (·.config.pgbouncer[key]?)).or
      spec.pgbouncer.config.pgbouncer[key]?
  options : ∀ kind name key, optionAt (namedSection (mergedConfig spec instanceName) kind) name key =
    ((overridesFor spec instanceName).reverse.findSome? fun override =>
      optionAt (namedSection override.config kind) name key).or
      (optionAt (namedSection spec.pgbouncer.config kind) name key)
  names : ∀ kind name, name ∈ namedSection (mergedConfig spec instanceName) kind ↔
    name ∈ namedSection spec.pgbouncer.config kind ∨
      ∃ override ∈ overridesFor spec instanceName, name ∈ namedSection override.config kind
  /-- nothing the common configuration has is lost -/
  kept : (∀ key ∈ spec.pgbouncer.config.pgbouncer, key ∈ (mergedConfig spec instanceName).pgbouncer) ∧
    ∀ kind name key, (optionAt (namedSection spec.pgbouncer.config kind) name key).isSome →
      (optionAt (namedSection (mergedConfig spec instanceName) kind) name key).isSome

theorem mem_namedSection_mergedConfig (spec : PgBouncerAuroraSpec) (instanceName : String)
    (kind : NamedSection) (name : String) :
    name ∈ namedSection (mergedConfig spec instanceName) kind ↔
      name ∈ namedSection spec.pgbouncer.config kind ∨
        ∃ override ∈ overridesFor spec instanceName, name ∈ namedSection override.config kind := by
  rw [mergedConfig_eq]
  generalize spec.pgbouncer.config = base
  induction overridesFor spec instanceName generalizing base with
  | nil => simp
  | cons override rest ih =>
    rw [List.foldl_cons, ih, namedSection_mergeConfigInto, mem_mergeMapMap]
    simp only [List.mem_cons, exists_eq_or_imp, or_assoc]

theorem mergeLaw (spec : PgBouncerAuroraSpec) (instanceName : String) :
    MergeLaw spec instanceName := by
  have hsettings : ∀ key : String, (mergedConfig spec instanceName).pgbouncer[key]? =
      ((overridesFor spec instanceName).reverse.findSome? (·.config.pgbouncer[key]?)).or
        spec.pgbouncer.config.pgbouncer[key]? := fun key =>
    mergedConfig_lookup (·.pgbouncer[key]?) (fun _ _ => mergeMap_getElem? _ _ _) spec instanceName
  have hoptions : ∀ kind name key,
      optionAt (namedSection (mergedConfig spec instanceName) kind) name key =
        ((overridesFor spec instanceName).reverse.findSome? fun override =>
          optionAt (namedSection override.config kind) name key).or
          (optionAt (namedSection spec.pgbouncer.config kind) name key) := fun kind name key =>
    mergedConfig_lookup (fun config => optionAt (namedSection config kind) name key)
      (fun base overlay => by rw [namedSection_mergeConfigInto, optionAt_mergeMapMap]) spec
      instanceName
  refine ⟨hsettings, hoptions, mem_namedSection_mergedConfig spec instanceName, ?_, ?_⟩
  · intro key hkey
    rw [Std.ExtTreeMap.mem_iff_isSome_getElem?] at hkey ⊢
    rw [hsettings, Option.isSome_or, hkey, Bool.or_true]
  · intro kind name key hkey
    rw [hoptions, Option.isSome_or, hkey, Bool.or_true]

/-! ## 3. Locality -/

/-- The resource with another list of overrides. -/
def withOverrides (owner : PgBouncerAurora) (overrides : List InstanceOverrideSpec) :
    PgBouncerAurora :=
  { owner with spec := { owner.spec with
      pgbouncer := { owner.spec.pgbouncer with instanceOverrides := overrides } } }

/-- The two lists differ in entries that have a name, and another one than `instanceName`. -/
def EditedElsewhere (instanceName : String) (old new : List InstanceOverrideSpec) : Prop :=
  new.filter (fun override => override.name = instanceName ∨ override.name = "") =
    old.filter fun override => override.name = instanceName ∨ override.name = ""

section Locality

variable {owner : PgBouncerAurora} {instanceName : String} {overrides : List InstanceOverrideSpec}

/-- Whoever looks at the entries of one of the two names sees no edit. -/
theorem EditedElsewhere.filter_eq (h : EditedElsewhere instanceName
    owner.spec.pgbouncer.instanceOverrides overrides) (keep : InstanceOverrideSpec → Bool)
    (hkeep : ∀ override, keep override → override.name = instanceName ∨ override.name = "") :
    overrides.filter keep = owner.spec.pgbouncer.instanceOverrides.filter keep := by
  have hnarrow : ∀ l : List InstanceOverrideSpec, l.filter keep = (l.filter fun override =>
      override.name = instanceName ∨ override.name = "").filter keep := by
    intro l
    rw [List.filter_filter]
    refine List.filter_congr fun override _ => ?_
    cases hk : keep override with
    | false => simp
    | true => simpa using hkeep override hk
  rw [hnarrow overrides, hnarrow owner.spec.pgbouncer.instanceOverrides, h]

theorem mergedConfig_local (h : EditedElsewhere instanceName
    owner.spec.pgbouncer.instanceOverrides overrides) {name : String}
    (hname : name = instanceName ∨ name = "") :
    mergedConfig (withOverrides owner overrides).spec name = mergedConfig owner.spec name := by
  have hfor : overridesFor (withOverrides owner overrides).spec name = overridesFor owner.spec name :=
    h.filter_eq (fun override => override.name = name) fun override hmatch => by
      rw [of_decide_eq_true hmatch]
      exact hname
  rw [mergedConfig_eq, mergedConfig_eq, hfor]
  rfl

theorem listenPort_local (h : EditedElsewhere instanceName
    owner.spec.pgbouncer.instanceOverrides overrides) :
    listenPort (withOverrides owner overrides).spec = listenPort owner.spec := by
  rw [listenPort, listenPort, mergedConfig_local h (.inr rfl)]

theorem authFilePath_local (h : EditedElsewhere instanceName
    owner.spec.pgbouncer.instanceOverrides overrides) :
    authFilePath (withOverrides owner overrides).spec instanceName =
      authFilePath owner.spec instanceName := by
  rw [authFilePath, authFilePath, mergedConfig_local h (.inl rfl)]

theorem pgBouncerINI_local {observed : InstanceObservation} (h : EditedElsewhere observed.name
    owner.spec.pgbouncer.instanceOverrides overrides) :
    pgBouncerINI (withOverrides owner overrides).spec observed =
      pgBouncerINI owner.spec observed := by
  simp only [pgBouncerINI, mergedConfig_local h (.inl rfl), listenPort_local h]
  rfl

theorem instanceDisabled_local (h : EditedElsewhere instanceName
    owner.spec.pgbouncer.instanceOverrides overrides) :
    instanceDisabled (withOverrides owner overrides).spec.pgbouncer instanceName =
      instanceDisabled owner.spec.pgbouncer instanceName := by
  have hany : ∀ (l : List InstanceOverrideSpec) (p : InstanceOverrideSpec → Bool),
      l.any p = !(l.filter p).isEmpty := fun l p => by
    rw [Bool.eq_iff_iff]
    simp
  rw [instanceDisabled, instanceDisabled, hany, hany]
  refine congrArg (fun l : List InstanceOverrideSpec => !l.isEmpty) (h.filter_eq _ ?_)
  intro override hmatch
  simp only [Bool.and_eq_true, beq_iff_eq] at hmatch
  exact .inl hmatch.1

theorem replicasFor_local (h : EditedElsewhere instanceName
    owner.spec.pgbouncer.instanceOverrides overrides) :
    replicasFor (withOverrides owner overrides).spec.pgbouncer instanceName =
      replicasFor owner.spec.pgbouncer instanceName := by
  have hfind : overrides.find? (fun override =>
      override.name == instanceName && decide (override.replicas > 0)) =
      owner.spec.pgbouncer.instanceOverrides.find? fun override =>
        override.name == instanceName && decide (override.replicas > 0) := by
    rw [← List.head?_filter, ← List.head?_filter, h.filter_eq]
    intro override hmatch
    simp only [Bool.and_eq_true, beq_iff_eq] at hmatch
    exact .inl hmatch.1
  simp only [replicasFor, withOverrides, hfind]

/-- What is rendered and planned for an instance is what it was. -/
structure Unaffected (owner owner' : PgBouncerAurora) (instanceName : String) : Prop where
  configMap : ∀ observed : InstanceObservation, observed.name = instanceName →
    configMap owner' observed = configMap owner observed
  deployment : ∀ planned : InstancePlan, planned.name = instanceName → ∀ authFileHash,
    instanceDeployment owner' planned authFileHash = instanceDeployment owner planned authFileHash
  service : ∀ planned : InstancePlan, planned.name = instanceName →
    instanceService owner' planned = instanceService owner planned
  replicas : replicasFor owner'.spec.pgbouncer instanceName =
    replicasFor owner.spec.pgbouncer instanceName
  disabled : instanceDisabled owner'.spec.pgbouncer instanceName =
    instanceDisabled owner.spec.pgbouncer instanceName
  /-- all of the plan entry, and so the Deployment rendered from it -/
  planned : ∀ (input : Input) (observed : InstanceObservation), input.resource = owner →
    observed.name = instanceName →
    planEntry { input with resource := owner' } observed = planEntry input observed
  roles : ∀ role, roleService owner' role = roleService owner role

theorem unaffected (h : EditedElsewhere instanceName owner.spec.pgbouncer.instanceOverrides
    overrides) : Unaffected owner (withOverrides owner overrides) instanceName where
  configMap := by
    rintro observed rfl
    simp only [Render.configMap, pgBouncerINI_local h]
    rfl
  deployment := by
    rintro planned rfl authFileHash
    simp only [instanceDeployment, podTemplateAnnotations, deploymentAnnotations, podSpec,
      pgbouncerContainer, listenPort_local h, authFilePath_local h,
      @pgBouncerINI_local _ _ planned.toInstanceObservation h]
    rfl
  service := by
    rintro planned rfl
    simp only [instanceService, servicePort, listenPort_local h]
    rfl
  replicas := replicasFor_local h
  disabled := instanceDisabled_local h
  planned := by
    rintro input observed rfl rfl
    simp only [planEntry, replicasFor_local h, instanceDisabled_local h]
    rfl
  roles := by
    intro role
    simp only [roleService, servicePort, listenPort_local h]
    cases role <;> rfl

end Locality

/-- **Overrides merge by key and stay local.** -/
theorem override_merge_and_locality (owner : PgBouncerAurora) (instanceName : String) :
    MergeLaw owner.spec instanceName ∧
      ∀ overrides, EditedElsewhere instanceName owner.spec.pgbouncer.instanceOverrides overrides →
        Unaffected owner (withOverrides owner overrides) instanceName :=
  ⟨mergeLaw owner.spec instanceName, fun _ h => unaffected h⟩

/-- An override for `a`; the edit switches `b` off. -/
def overriddenOwner : PgBouncerAurora :=
  { name := "db", spec := { pgbouncer := { instanceOverrides := [{ name := "a", replicas := 2 }] } } }

theorem disabling_b_leaves_a :
    EditedElsewhere "a" overriddenOwner.spec.pgbouncer.instanceOverrides
      [{ name := "b", enabled := some false }, { name := "a", replicas := 2 }] ∧
    Unaffected overriddenOwner (withOverrides overriddenOwner
      [{ name := "b", enabled := some false }, { name := "a", replicas := 2 }]) "a" := by
  have hedit : EditedElsewhere "a" overriddenOwner.spec.pgbouncer.instanceOverrides
      [{ name := "b", enabled := some false }, { name := "a", replicas := 2 }] := by
    simp [EditedElsewhere, overriddenOwner]
  exact ⟨hedit, (override_merge_and_locality overriddenOwner "a").2 _ hedit⟩

end Render

end AuroraOperator

/-
# Does the drift detector see the API server's defaults?

The API server fills in what a pod template leaves open, so what the operator reads back is not what
it wrote.  `podTemplateSemanticallyEqual` takes the defaults away again on both sides before it
compares.  For that it has to know all of them.

The operator's own container leaves few fields open, and those are taken care of.  But users bring
containers and probes of their own, and for these the detector does not know the pull policy, the
timeout and period of a probe, and the scheme of an HTTP probe.  Where one of these is left open the
Deployment looks changed for ever, and every Reconcile applies it again.

`defaults_unseen_iff` says which specs are free of that.
-/
import AuroraOperator.Controller.Drift

namespace AuroraOperator

/-! ## 1. What the API server fills in -/

def ProbeHandler.defaulted : ProbeHandler → ProbeHandler
  | .httpGet scheme rest => .httpGet (if scheme = "" then "HTTP" else scheme) rest
  | handler => handler

def Probe.defaulted (p : Probe) : Probe :=
  { p with
    handler := p.handler.map ProbeHandler.defaulted
    timeoutSeconds := if p.timeoutSeconds = 0 then 1 else p.timeoutSeconds
    periodSeconds := if p.periodSeconds = 0 then 10 else p.periodSeconds
    successThreshold := if p.successThreshold = 0 then 1 else p.successThreshold
    failureThreshold := if p.failureThreshold = 0 then 3 else p.failureThreshold }

/-- The pull policy depends on the image. -/
def Container.defaulted (pullPolicy : String → String) (c : Container) : Container :=
  { c with
    imagePullPolicy := if c.imagePullPolicy = "" then pullPolicy c.image else c.imagePullPolicy
    ports := c.ports.map fun port =>
      { port with protocol := if port.protocol = "" then "TCP" else port.protocol }
    readinessProbe := c.readinessProbe.map Probe.defaulted
    livenessProbe := c.livenessProbe.map Probe.defaulted
    startupProbe := c.startupProbe.map Probe.defaulted
    terminationMessagePath :=
      if c.terminationMessagePath = "" then "/dev/termination-log" else c.terminationMessagePath
    terminationMessagePolicy :=
      if c.terminationMessagePolicy = "" then "File" else c.terminationMessagePolicy }

def Volume.defaulted (v : Volume) : Volume :=
  { v with source := match v.source with
      | .configMap name mode rest => .configMap name (mode.or (some 420)) rest
      | .secret name mode rest => .secret name (mode.or (some 420)) rest
      | .other rest => .other rest }

def PodTemplateSpec.defaulted (pullPolicy : String → String) (t : PodTemplateSpec) :
    PodTemplateSpec :=
  { t with spec := { t.spec with
      dnsPolicy := if t.spec.dnsPolicy = "" then "ClusterFirst" else t.spec.dnsPolicy
      schedulerName :=
        if t.spec.schedulerName = "" then "default-scheduler" else t.spec.schedulerName
      deprecatedServiceAccount :=
        if t.spec.deprecatedServiceAccount = "" then t.spec.serviceAccountName
        else t.spec.deprecatedServiceAccount
      terminationGracePeriodSeconds := t.spec.terminationGracePeriodSeconds.or (some 30)
      securityContext := t.spec.securityContext.or (some none)
      volumes := t.spec.volumes.map Volume.defaulted
      containers := t.spec.containers.map (Container.defaulted pullPolicy)
      initContainers := t.spec.initContainers.map (Container.defaulted pullPolicy) } }

namespace Controller

open Planner Render

/-! ## 2. What the detector takes away again -/

/-- Filling in a default and taking it away is taking it away. -/
theorem forget_fill {α : Type} [DecidableEq α] (x unset default : α) :
    (if (if x = unset then default else x) = default then unset
      else if x = unset then default else x) = if x = default then unset else x := by
  by_cases hunset : x = unset
  · rw [if_pos hunset, if_pos rfl, hunset]
    split <;> rfl
  · rw [if_neg hunset]

theorem forget_or {α : Type} [DecidableEq α] (x : Option α) (default : α) :
    (if x.or (some default) = some default then none else x.or (some default))
      = if x = some default then none else x := by
  cases x <;> simp

/-- The probe leaves nothing open that the detector does not know. -/
def SpelledOut (p : Probe) : Prop :=
  p.timeoutSeconds ≠ 0 ∧ p.periodSeconds ≠ 0 ∧ p.handler.map ProbeHandler.defaulted = p.handler

instance (p : Probe) : Decidable (SpelledOut p) := inferInstanceAs (Decidable (_ ∧ _ ∧ _))

theorem normalizeProbe_defaulted_iff (p : Probe) :
    normalizeProbeForDrift p.defaulted = normalizeProbeForDrift p ↔ SpelledOut p := by
  simp only [normalizeProbeForDrift, Probe.defaulted, Probe.mk.injEq, true_and, and_true, SpelledOut]
  constructor
  · rintro ⟨hhandler, htimeout, hperiod, -⟩
    refine ⟨fun h => ?_, fun h => ?_, hhandler⟩
    · simp [h] at htimeout
    · simp [h] at hperiod
  · rintro ⟨htimeout, hperiod, hhandler⟩
    exact ⟨hhandler, if_neg htimeout, if_neg hperiod, forget_fill .., forget_fill ..⟩

theorem normalizeProbes_defaulted_iff (p : Option Probe) :
    (p.map Probe.defaulted).map normalizeProbeForDrift = p.map normalizeProbeForDrift ↔
      ∀ probe ∈ p, SpelledOut probe := by
  cases p with
  | none => simp
  | some p => simp [normalizeProbe_defaulted_iff]

/-- The probes of a container. -/
def probesOf (c : Container) : List Probe :=
  c.readinessProbe.toList ++ c.livenessProbe.toList ++ c.startupProbe.toList

theorem forall_probesOf {c : Container} {P : Probe → Prop} :
    (∀ p ∈ probesOf c, P p) ↔ (∀ p ∈ c.readinessProbe, P p) ∧ (∀ p ∈ c.livenessProbe, P p) ∧
      ∀ p ∈ c.startupProbe, P p := by
  simp [probesOf, or_imp, forall_and]

section Container

variable {pullPolicy : String → String}

/-- A container that leaves neither the pull policy open nor anything in its probes. -/
def Explicit (c : Container) : Prop := c.imagePullPolicy ≠ "" ∧ ∀ p ∈ probesOf c, SpelledOut p

theorem normalizeContainer_defaulted_iff (hpull : ∀ image, pullPolicy image ≠ "") (c : Container) :
    normalizeContainerForDrift (c.defaulted pullPolicy) = normalizeContainerForDrift c ↔
      Explicit c := by
  have hpolicy : (if c.imagePullPolicy = "" then pullPolicy c.image else c.imagePullPolicy)
      = c.imagePullPolicy ↔ c.imagePullPolicy ≠ "" := by
    constructor
    · intro h hunset
      rw [if_pos hunset, hunset] at h
      exact hpull _ h
    · exact fun h => if_neg h
  rw [Explicit, forall_probesOf, ← normalizeProbes_defaulted_iff, ← normalizeProbes_defaulted_iff,
    ← normalizeProbes_defaulted_iff, ← hpolicy]
  simp only [normalizeContainerForDrift, Container.defaulted, List.map_map, Function.comp_def,
    forget_fill, Container.mk.injEq, true_and, and_true]
  constructor
  · rintro ⟨hpolicy, hreadiness, hliveness, hstartup, -⟩
    exact ⟨hpolicy, hreadiness, hliveness, hstartup⟩
  · rintro ⟨hpolicy, hreadiness, hliveness, hstartup⟩
    exact ⟨hpolicy, hreadiness, hliveness, hstartup, forget_fill .., forget_fill ..⟩

theorem normalizeVolume_defaulted (v : Volume) :
    normalizeVolumeForDrift v.defaulted = normalizeVolumeForDrift v := by
  obtain ⟨name, _ | _ | _⟩ := v <;> simp only [normalizeVolumeForDrift, Volume.defaulted, forget_or]

/-- **Any template.**  The defaults go unseen exactly when every container is explicit. -/
theorem template_defaulted_iff (hpull : ∀ image, pullPolicy image ≠ "") (t : PodTemplateSpec) :
    podTemplateSemanticallyEqual (t.defaulted pullPolicy) t = true ↔
      (∀ c ∈ t.spec.containers, Explicit c) ∧ ∀ c ∈ t.spec.initContainers, Explicit c := by
  have hcontainers : ∀ l : List Container,
      (l.map (Container.defaulted pullPolicy)).map normalizeContainerForDrift
        = l.map normalizeContainerForDrift ↔ ∀ c ∈ l, Explicit c := by
    intro l
    rw [List.map_map, List.map_inj_left]
    exact forall₂_congr fun c _ => normalizeContainer_defaulted_iff hpull c
  rw [← hcontainers, ← hcontainers]
  simp only [podTemplateSemanticallyEqual, decide_eq_true_eq, normalizePodTemplateForDrift,
    PodTemplateSpec.defaulted, normalizeSecurityContext, List.map_map, Function.comp_def,
    normalizeVolume_defaulted, PodTemplateSpec.mk.injEq, PodSpec.mk.injEq, true_and]
  constructor
  · rintro ⟨-, -, hinit, hothers, -⟩
    exact ⟨hothers, hinit⟩
  · rintro ⟨hothers, hinit⟩
    exact ⟨forget_fill .., forget_or .., hinit, hothers, forget_fill .., forget_fill ..,
      forget_or .., rfl⟩

/-! ## 3. The rendered template -/

/-- The last sidecar of the operator's own name is merged with its container. -/
theorem mergeContainers_eq (existing : List Container) (required : Container) :
    mergeContainers existing required =
      ((existing.filter (·.name = required.name)).getLast?.elim required
        (mergeContainer · required)) :: existing.filter (·.name ≠ required.name) := by
  unfold mergeContainers
  dsimp only
  congr 1
  induction existing using List.reverseRecOn with
  | nil => rfl
  | append_singleton existing container ih =>
    rw [List.foldl_append, List.filter_append]
    by_cases hname : container.name = required.name
    · simp [hname]
    · simpa [hname] using ih

/-- What users write into the pods leaves nothing open that the detector does not know: their
probes, where they are configured, their sidecars, and the startup probe of the sidecar that is
merged with the operator's container. -/
structure LeavesNothingOpen (pgbouncer : PgBouncerSpec) : Prop where
  readiness : probeConfigured pgbouncer.readinessProbe = true →
    ∀ p ∈ pgbouncer.readinessProbe, SpelledOut p
  liveness : probeConfigured pgbouncer.livenessProbe = true →
    ∀ p ∈ pgbouncer.livenessProbe, SpelledOut p
  sidecars : ∀ c ∈ pgbouncer.sidecars, c.name ≠ "pgbouncer" → Explicit c
  startup : ∀ c ∈ (pgbouncer.sidecars.filter (·.name = "pgbouncer")).getLast?,
    ∀ p ∈ c.startupProbe, SpelledOut p

theorem spelledOut_configured (probe : Option Probe) (port : Int32) :
    (∀ p ∈ (if probeConfigured probe then probe else some (tcpProbe port)), SpelledOut p) ↔
      (probeConfigured probe = true → ∀ p ∈ probe, SpelledOut p) := by
  split
  · next h => simp [h]
  · next h =>
    have htcp : SpelledOut (tcpProbe port) :=
      ⟨(by decide : (3 : Int32) ≠ 0), (by decide : (10 : Int32) ≠ 0), rfl⟩
    simp [h, htcp]

/-- The operator's container has a pull policy of its own. -/
theorem explicit_pgbouncer_iff (owner : PgBouncerAurora) (port : Int32) (instanceName : String)
    (base : Option Container) :
    Explicit (base.elim (pgbouncerContainer owner port instanceName)
        (mergeContainer · (pgbouncerContainer owner port instanceName))) ↔
      (probeConfigured owner.spec.pgbouncer.readinessProbe = true →
          ∀ p ∈ owner.spec.pgbouncer.readinessProbe, SpelledOut p) ∧
        (probeConfigured owner.spec.pgbouncer.livenessProbe = true →
          ∀ p ∈ owner.spec.pgbouncer.livenessProbe, SpelledOut p) ∧
        ∀ c ∈ base, ∀ p ∈ c.startupProbe, SpelledOut p := by
  rw [Explicit, forall_probesOf, ← spelledOut_configured _ port, ← spelledOut_configured _ port]
  cases base with
  | none => simp [pgbouncerContainer]
  | some base => simp [pgbouncerContainer, mergeContainer]

theorem rendered_explicit_iff (owner : PgBouncerAurora) (instanceName : String) (port : Int32) :
    (∀ c ∈ (podSpec owner instanceName port).containers, Explicit c) ↔
      LeavesNothingOpen owner.spec.pgbouncer := by
  have hcontainers : (podSpec owner instanceName port).containers =
      mergeContainers owner.spec.pgbouncer.sidecars (pgbouncerContainer owner port instanceName) :=
    rfl
  have hname : (pgbouncerContainer owner port instanceName).name = "pgbouncer" := rfl
  rw [hcontainers, mergeContainers_eq, List.forall_mem_cons, explicit_pgbouncer_iff, hname]
  simp only [List.mem_filter, decide_eq_true_eq]
  constructor
  · rintro ⟨⟨hreadiness, hliveness, hstartup⟩, hsidecars⟩
    exact ⟨hreadiness, hliveness, fun c hc hne => hsidecars c ⟨hc, hne⟩, hstartup⟩
  · rintro ⟨hreadiness, hliveness, hsidecars, hstartup⟩
    exact ⟨⟨hreadiness, hliveness, hstartup⟩, fun c hc => hsidecars c hc.1 hc.2⟩

/-- **When the API server's defaults go unseen.**  The template that the server stores passes for
the rendered one, and the Deployment for one that nobody has touched, if and only if users leave
nothing open that the detector does not know. -/
theorem defaults_unseen_iff (pullPolicy : String → String) (hpull : ∀ image, pullPolicy image ≠ "")
    (owner : PgBouncerAurora) (planned : InstancePlan)
    (authFileHash : Option (Digest AuthFileMetadata)) :
    let rendered := instanceDeployment owner planned authFileHash
    let stored := { rendered with template := rendered.template.defaulted pullPolicy }
    (podTemplateSemanticallyEqual stored.template rendered.template = true ↔
        LeavesNothingOpen owner.spec.pgbouncer) ∧
      (deploymentDrifted stored rendered = false ↔ LeavesNothingOpen owner.spec.pgbouncer) := by
  intro rendered stored
  have htemplate : podTemplateSemanticallyEqual stored.template rendered.template = true ↔
      LeavesNothingOpen owner.spec.pgbouncer := by
    rw [← rendered_explicit_iff owner planned.name (listenPort owner.spec)]
    refine (template_defaulted_iff hpull rendered.template).trans (and_iff_left_of_imp fun _ => ?_)
    exact fun _ hc => absurd hc List.not_mem_nil
  refine ⟨htemplate, ?_⟩
  rw [← htemplate]
  have hidentity : deploymentDbiMetadataDrifted stored rendered = false := by
    unfold deploymentDbiMetadataDrifted
    have hlabel : deploymentDbiLabel stored = deploymentDbiLabel rendered := rfl
    cases hknown : deploymentDbiLabel rendered with
    | none => rfl
    | some value => simp [hlabel, hknown]
  have hreplicas : stored.replicas = rendered.replicas := rfl
  have hstrategy : stored.strategyType = rendered.strategyType := rfl
  simp [deploymentDrifted, hidentity, hreplicas, hstrategy]

end Container

/-- A resource with nothing of the user's in its pods. -/
def plainOwner : PgBouncerAurora := { name := "db" }

theorem plain_unseen :
    deploymentDrifted
      { instanceDeployment plainOwner { name := "a", role := .writer } none with
        template := (instanceDeployment plainOwner { name := "a", role := .writer }
          none).template.defaulted fun _ => "IfNotPresent" }
      (instanceDeployment plainOwner { name := "a", role := .writer } none) = false := by
  refine (defaults_unseen_iff (fun _ => "IfNotPresent") (by simp) plainOwner
    { name := "a", role := .writer } none).2.mpr ?_
  exact ⟨by simp [plainOwner], by simp [plainOwner], by simp [plainOwner], by simp [plainOwner]⟩

/-- A resource with a sidecar, or with a readiness probe. -/
def withSidecar : PgBouncerAurora :=
  { name := "db", spec := { pgbouncer :=
    { sidecars := [{ name := "exporter", image := "exporter:1.0" }] } } }

def withProbe : PgBouncerAurora :=
  { name := "db", spec := { pgbouncer :=
    { readinessProbe := some { handler := some (.exec ⟨"pg_isready"⟩), timeoutSeconds := 3 } } } }

/-- **The detector sees a pull policy and a period that nobody has written.** -/
theorem defaults_seen :
    podTemplateSemanticallyEqual
      ((instanceDeployment withSidecar { name := "a", role := .writer } none).template.defaulted
        fun _ => "IfNotPresent")
      (instanceDeployment withSidecar { name := "a", role := .writer } none).template = false ∧
    podTemplateSemanticallyEqual
      ((instanceDeployment withProbe { name := "a", role := .writer } none).template.defaulted
        fun _ => "IfNotPresent")
      (instanceDeployment withProbe { name := "a", role := .writer } none).template = false := by
  decide +kernel

end Controller

end AuroraOperator

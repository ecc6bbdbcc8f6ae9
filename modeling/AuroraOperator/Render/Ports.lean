/-
# One port, one auth file

The port PgBouncer listens on is written by five functions: into `pgbouncer.ini`, the container
port, the default probes, the Service of the instance and the two role Services.  The path of the
auth file is written twice, into `pgbouncer.ini` and as the mount path.  They all go through
`ListenPort` and `AuthFilePath`, but between these and the objects stand three merges with what the
user supplied: sidecars, volumes and mounts, which may have any name.

`objects_agree`: the merges keep the operator's container, volume and mount, whatever the user's
are called.
-/
import AuroraOperator.Render.Ini

namespace AuroraOperator

namespace Render

/-! ## 1. The text -/

/-- The value of a key of `[pgbouncer]`, and the line it is written in. -/
structure WrittenAs (spec : PgBouncerAuroraSpec) (observed : InstanceObservation) (text : String)
    (key value : String) : Prop where
  setting : (effectiveSettings spec observed.name)[key]? = some value
  line : ("\n" ++ key ++ " = " ++ value ++ "\n").toList <:+: text.toList

theorem writtenAs {spec : PgBouncerAuroraSpec} {observed : InstanceObservation} {key value : String}
    (hsetting : (effectiveSettings spec observed.name)[key]? = some value) {c : Char}
    (hlast : value.toList.getLast? = some c) (hc : c ≠ '\n') :
    WrittenAs spec observed (pgBouncerINI spec observed) key value := by
  refine ⟨hsetting, ?_⟩
  obtain ⟨init, hvalue⟩ := List.getLast?_eq_some_iff.mp hlast
  have hmem : Ini.pair key.toList value.toList ∈
      (settingsSection "pgbouncer" (effectiveSettings spec observed.name)).lines := by
    have hstored := Std.ExtTreeMap.mem_toList_iff_getElem?_eq_some.mpr hsetting
    simp only [settingsSection, titled]
    exact List.mem_map.mpr ⟨(key, value), hstored, rfl⟩
  have hpair : Ini.pair key.toList value.toList =
      key.toList ++ [' ', '=', ' '] ++ init ++ [c] := by
    simp [Ini.pair, hvalue]
  rw [hpair] at hmem
  have hsection : settingsSection "pgbouncer" (effectiveSettings spec observed.name) ∈
      iniDocument spec observed := by simp [iniDocument]
  rw [pgBouncerINI_eq_render]
  simpa [hvalue] using Ini.line_infix_render hsection hmem hc

theorem listenPort_range (spec : PgBouncerAuroraSpec) :
    1 ≤ (listenPort spec).toInt ∧ (listenPort spec).toInt ≤ 65535 := by
  have hdefault : 1 ≤ defaultPgBouncerListenPort.toInt ∧
      defaultPgBouncerListenPort.toInt ≤ 65535 := by decide
  simp only [listenPort]
  split
  · exact hdefault
  · split
    · exact hdefault
    next port _ =>
      split
      · exact hdefault
      next hrange =>
        rw [not_or, not_le, not_lt] at hrange
        rw [Int32.toInt_ofInt_of_le (by omega) (by omega)]
        omega

theorem writtenAs_listenPort (spec : PgBouncerAuroraSpec) (observed : InstanceObservation) :
    WrittenAs spec observed (pgBouncerINI spec observed) "listen_port"
      (toString (listenPort spec)) := by
  have hplain := plain_toString (listenPort spec)
  have hlast := List.getLast?_eq_some_getLast hplain.nonempty
  refine writtenAs (by simp [effectiveSettings]) hlast fun heq => ?_
  exact hplain.newline (heq ▸ List.getLast_mem hplain.nonempty)

theorem writtenAs_authFile (spec : PgBouncerAuroraSpec) (observed : InstanceObservation) :
    WrittenAs spec observed (pgBouncerINI spec observed) "auth_file"
      (authFilePath spec observed.name) := by
  have hsetting : (effectiveSettings spec observed.name)["auth_file"]? =
      some (authFilePath spec observed.name) := by
    rw [effectiveSettings, Std.ExtTreeMap.getElem?_insert, if_neg (by simp)]
    simp [authFilePath]
  -- the path is trimmed, so it does not end with a newline
  obtain ⟨c, hlast, hc⟩ : ∃ c, (authFilePath spec observed.name).toList.getLast? = some c ∧
      c ≠ '\n' := by
    simp only [authFilePath, authFilePathFromConfig]
    split
    · exact ⟨'t', by simp [defaultAuthFilePath], by decide⟩
    next hne =>
      generalize (mergedConfig spec observed.name).pgbouncer["auth_file"]?.getD "" = value at hne ⊢
      have hnonempty : (value.toList.dropWhile isSpace).rdropWhile isSpace ≠ [] := fun hnil =>
        hne (by rw [trimSpace_eq_rdropWhile, hnil])
      have hblank := List.rdropWhile_last_not isSpace _ hnonempty
      refine ⟨List.getLast _ hnonempty, ?_, fun heq => hblank ?_⟩
      · rw [trimSpace_eq_rdropWhile, String.toList_ofList, List.getLast?_eq_some_getLast hnonempty]
      · rw [heq]
        decide
  exact writtenAs hsetting hlast hc

/-! ## 2. The merges -/

/-- `mergeVolumeMounts`, `mergeVolumes`: under a name of the required ones there is nothing else. -/
theorem filter_required {α : Type} (nameOf : α → String) (existing : List α) {required : List α}
    {name : String} (h : name ∈ required.map nameOf) :
    (required ++ existing.filter fun a => nameOf a ∉ required.map nameOf).filter
      (fun a => nameOf a = name) = required.filter fun a => nameOf a = name := by
  have hnone : (existing.filter fun a => nameOf a ∉ required.map nameOf).filter
      (fun a => nameOf a = name) = [] := by
    rw [List.filter_eq_nil_iff]
    intro a ha
    have hfree := (List.mem_filter.mp ha).2
    simp only [decide_eq_true_eq] at hfree ⊢
    exact fun heq => hfree (heq ▸ h)
  rw [List.filter_append, hnone, List.append_nil]

/-- The head of the merged containers is the required one, or a sidecar of its name that took
over what is required. -/
theorem mergeContainers_head (existing : List Container) (required : Container) :
    ∃ head, mergeContainers existing required =
        head :: existing.filter (fun container => container.name ≠ required.name) ∧
      (head = required ∨ ∃ base, head = mergeContainer base required) := by
  refine ⟨_, rfl, ?_⟩
  have hfold : ∀ head, (head = required ∨ ∃ base, head = mergeContainer base required) →
      (existing.foldl (fun head container => if container.name = required.name then
        mergeContainer container required else head) head = required ∨
        ∃ base, existing.foldl (fun head container => if container.name = required.name then
          mergeContainer container required else head) head = mergeContainer base required) := by
    induction existing with
    | nil => exact fun head h => h
    | cons container rest ih =>
      intro head h
      rw [List.foldl_cons]
      refine ih _ ?_
      split
      · exact .inr ⟨container, rfl⟩
      · exact h
  exact hfold required (.inl rfl)

/-- What the rendered objects say about the port and the auth file.  `container` is the first
container of the pod and `sidecars` are the others. -/
structure Agreed (owner : PgBouncerAurora) (planned : InstancePlan) (pod : PodSpec)
    (port : Int32) (path : String) (container : Container) (sidecars : List Container) : Prop where
  range : 1 ≤ port.toInt ∧ port.toInt ≤ 65535
  containers : pod.containers = container :: sidecars
  first : container.name = "pgbouncer"
  others : ∀ sidecar ∈ sidecars, sidecar.name ≠ "pgbouncer"
  /-- the text, as it is in the ConfigMap -/
  config : ∃ text, (configMap owner planned.toInstanceObservation).data["pgbouncer.ini"]? = some text ∧
    WrittenAs owner.spec planned.toInstanceObservation text "listen_port" (toString port) ∧
    WrittenAs owner.spec planned.toInstanceObservation text "auth_file" path
  containerPort : container.ports.map (·.containerPort) = [port]
  readiness : probeConfigured owner.spec.pgbouncer.readinessProbe = false →
    container.readinessProbe.bind (·.handler) = some (.tcpSocket port)
  liveness : probeConfigured owner.spec.pgbouncer.livenessProbe = false →
    container.livenessProbe.bind (·.handler) = some (.tcpSocket port)
  services : ∀ service ∈ [instanceService owner planned, roleService owner .writer,
    roleService owner .reader], service.spec.ports.map (fun p => (p.port, p.targetPort)) =
      [(port, port)]
  mount : (container.volumeMounts.filter (·.name = "auth-file")).map (·.mountPath) = [path]
  volume : (pod.volumes.filter (·.name = "auth-file")).map (·.source) =
    [.secret owner.spec.pgbouncer.authFileSecretRef none]

/-- **The rendered objects agree on port and auth file.** -/
theorem objects_agree (owner : PgBouncerAurora) (planned : InstancePlan)
    (authFileHash : Option (Digest AuthFileMetadata)) :
    ∃ port path container sidecars,
      Agreed owner planned (instanceDeployment owner planned authFileHash).template.spec port path
        container sidecars := by
  let required := pgbouncerContainer owner (listenPort owner.spec) planned.name
  obtain ⟨container, hcontainers, hhead⟩ :=
    mergeContainers_head owner.spec.pgbouncer.sidecars required
  have hname : container.name = "pgbouncer" := by
    rcases hhead with rfl | ⟨base, rfl⟩ <;> rfl
  have hports : container.ports = required.ports ∧
      container.readinessProbe = required.readinessProbe ∧
      container.livenessProbe = required.livenessProbe := by
    rcases hhead with rfl | ⟨base, rfl⟩ <;> exact ⟨rfl, rfl, rfl⟩
  have hrequired : required.volumeMounts.filter (·.name = "auth-file") =
      [{ name := "auth-file", mountPath := authFilePath owner.spec planned.name,
         subPath := "userlist.txt", readOnly := true }] := by
    refine (filter_required VolumeMount.name owner.spec.pgbouncer.volumeMounts (by simp)).trans ?_
    simp
  have hmounts : container.volumeMounts.filter (·.name = "auth-file") =
      required.volumeMounts.filter (·.name = "auth-file") := by
    rcases hhead with rfl | ⟨base, rfl⟩
    · rfl
    · refine filter_required VolumeMount.name base.volumeMounts ?_
      have hmem : _ ∈ required.volumeMounts.filter (·.name = "auth-file") :=
        hrequired ▸ List.mem_singleton_self _
      exact List.mem_map.mpr ⟨_, (List.mem_filter.mp hmem).1, rfl⟩
  refine ⟨listenPort owner.spec, authFilePath owner.spec planned.name, container, _,
    { range := listenPort_range owner.spec
      containers := hcontainers
      first := hname
      others := fun sidecar hsidecar => of_decide_eq_true (List.mem_filter.mp hsidecar).2
      config := ⟨pgBouncerINI owner.spec planned.toInstanceObservation, by simp [configMap],
        writtenAs_listenPort _ _, writtenAs_authFile _ _⟩
      containerPort := by simp [hports.1, required, pgbouncerContainer]
      readiness := fun h => by simp [hports.2.1, required, pgbouncerContainer, h, tcpProbe]
      liveness := fun h => by simp [hports.2.2, required, pgbouncerContainer, h, tcpProbe]
      services := by simp [instanceService, roleService, servicePort]
      mount := by simp [hmounts, hrequired]
      volume := ?_ }⟩
  have hvolumes := filter_required Volume.name owner.spec.pgbouncer.volumes
    (show "auth-file" ∈ (requiredVolumes owner planned.name).map (·.name) by simp [requiredVolumes])
  refine (congrArg (List.map Volume.source) hvolumes).trans ?_
  simp [requiredVolumes]

end Render

end AuroraOperator

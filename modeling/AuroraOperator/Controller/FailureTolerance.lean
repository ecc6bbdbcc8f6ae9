/-
# How many failures are tolerated

A discovery that fails, without the call itself failing, is papered over with the cached
topology until the failures in a row reach the threshold.  From there on the verdict is
"untrusted" until a discovery succeeds.

The count, the verdict and the topology are all in the status, and monitor jobs and Reconciles
rewrite the conditions in between.  `Tolerating` is what holds through all of it; the decision
at the next failure needs each part of it.

* `failure_tolerance`: after `k` committed failures the counter is `k`, the topology and its hash
  are those of the last success, and the verdict is "trusted" exactly when `k` is below the
  threshold.
-/
import AuroraOperator.Controller.Safety

namespace AuroraOperator

namespace Controller

open Discovery Planner Render Program

/-! ## 1. The cached topology -/

/-- A failure that is papered over leaves the topology as it is. -/
theorem discoveryCommit_cached {resource : PgBouncerAurora} {discovery : DiscoveryResult}
    {missing : List MissingInstanceStatus} {failed : Bool} {now : Int} {next : Status}
    (h : discoveryCommit discovery missing failed now resource = some next)
    (hcached : discovery.trusted = true →
      discovery.instances = topologyObservations resource.status.lastKnownTopology)
    (hhash : resource.status.topologyHash = some (hashObject resource.status.lastKnownTopology)) :
    next.lastKnownTopology = resource.status.lastKnownTopology ∧
      next.topologyHash = some (hashObject resource.status.lastKnownTopology) := by
  cases ht : discovery.trusted with
  | false =>
    obtain ⟨htopology, -, hsame⟩ := discoveryCommit_untrusted h ht
    exact ⟨htopology, hsame.trans hhash⟩
  | true =>
    obtain ⟨htopology, -, hnew⟩ := discoveryCommit_trusted h ht
    rw [hcached ht, topologyStatus_topologyObservations] at htopology hnew
    exact ⟨htopology, hnew⟩

/-! ## 2. One step -/

/-- The status after `k` failures in a row, with the topology of the last success. -/
structure Tolerating (limit : Int32) (known : List InstanceTopologyStatus)
    (resource : PgBouncerAurora) (k : Nat) : Prop where
  threshold : discoveryFailureThreshold resource = limit
  counter : resource.status.consecutiveDiscoveryFailures.toInt = k
  topology : resource.status.lastKnownTopology = known
  hash : resource.status.topologyHash = some (hashObject known)
  verdict : lastDiscoveryTrusted resource = true ↔ (k : Int) < limit.toInt

/-- A step in which a discovery, if there is one, comes back untrusted, and which leaves the
threshold alone. -/
def Failing (limit : Int32) (w : World) : Step → Prop
  | .discover discover _ _ _ =>
    ∃ discovery, discover w.stored.resource = .ok discovery ∧ discovery.trusted = false
  | .editSpec spec => defaultInt32 spec.discovery.failureThreshold 3 = limit
  | _ => True

/-- The time of a discovery job that was committed. -/
def World.committedAt (w : World) : Step → List Int
  | .discover discover checkedAt now faults =>
    if answer (runDiscoveryJob discover checkedAt now) (w.meet faults) then [now] else []
  | _ => []

/-- A step of the world, with the times of the committed discoveries. -/
abbrev counting : World × List Int → Step → World × List Int :=
  Machine.traced World.next World.committedAt

section OneStep

variable {limit : Int32} {known : List InstanceTopologyStatus} {w w' : World} {k : Nat}

/-- Storing a status with the same counter, topology and verdict changes nothing. -/
theorem Tolerating.stored (h : Tolerating limit known w.stored.resource k) {status : Status}
    (hcounter : status.consecutiveDiscoveryFailures
      = w.stored.resource.status.consecutiveDiscoveryFailures)
    (htopology : status.lastKnownTopology = w.stored.resource.status.lastKnownTopology)
    (hhash : status.topologyHash = w.stored.resource.status.topologyHash)
    (hverdict : discoveryVerdict status.conditions = lastDiscoveryTrusted w.stored.resource) :
    Tolerating limit known (w.stored.updateStatus status).resource k where
  threshold := h.threshold
  counter := (congrArg Int32.toInt hcounter).trans h.counter
  topology := htopology.trans h.topology
  hash := hhash.trans h.hash
  verdict := by
    rw [show lastDiscoveryTrusted (w.stored.updateStatus status).resource = _ from
      (discoveryVerdict_marshal _).trans hverdict]
    exact h.verdict

/-- What one more failure makes of the result: it is papered over exactly below the
threshold. -/
theorem Tolerating.effective {resource : PgBouncerAurora}
    (h : Tolerating limit known resource k) (hne : known ≠ []) (hk : k + 1 < 2 ^ 31)
    {discover : Discover} {failed : DiscoveryResult} (hok : discover resource = .ok failed)
    (ht : failed.trusted = false) :
    (effectiveDiscovery discover resource).2 = true ∧
      ((effectiveDiscovery discover resource).1.trusted = true ↔
        (k + 1 : Int) < limit.toInt) ∧
      ((effectiveDiscovery discover resource).1.trusted = true →
        (effectiveDiscovery discover resource).1.instances = topologyObservations known) := by
  have heff : effectiveDiscovery discover resource
      = (discoveryAfterFailureThreshold resource failed, true) := by
    simp [effectiveDiscovery, hok, ht]
  have hnext : (resource.status.consecutiveDiscoveryFailures + 1).toInt = k + 1 := by
    rw [int32_toInt_succ (by rw [h.counter]; omega), h.counter]
  rw [heff]
  refine ⟨rfl, ?_⟩
  unfold discoveryAfterFailureThreshold
  dsimp only
  rw [h.threshold, h.topology]
  have hge : resource.status.consecutiveDiscoveryFailures + 1 ≥ limit ↔
      ¬ (k + 1 : Int) < limit.toInt := by
    rw [ge_iff_le, Int32.le_iff_toInt_le, hnext, not_lt]
  have hlength : known.length ≠ 0 := by simpa using hne
  by_cases hlt : (k + 1 : Int) < limit.toInt
  · have htrusted : lastDiscoveryTrusted resource = true := h.verdict.mpr (by omega)
    rw [if_neg (by simp [hge, hlt, htrusted, hne])]
    exact ⟨iff_of_true rfl hlt, fun _ => rfl⟩
  · rw [if_pos (by simp [hge, hlt])]
    exact ⟨iff_of_false (by simp [ht]) hlt, fun hcontra => by rw [ht] at hcontra; cases hcontra⟩

/-- **One step.**  A committed failure counts as one more; everything else leaves the count, the
topology and the verdict alone. -/
theorem Move.tolerating {step : Step} {events : List Event} (hmove : Move w step w' events)
    (hstep : Failing limit w step) (hne : known ≠ [])
    (hk : k + (w.committedAt step).length < 2 ^ 31)
    (h : Tolerating limit known w.stored.resource k) :
    Tolerating limit known w'.stored.resource (k + (w.committedAt step).length) := by
  cases hmove with
  | discovered answered due commit stored =>
    rename_i discover checkedAt now faults status
    have hone : (w.committedAt (.discover discover checkedAt now faults)).length = 1 := by
      rw [World.committedAt, if_pos answered]
      rfl
    rw [hone] at hk ⊢
    obtain ⟨failed, hok, ht⟩ := hstep
    obtain ⟨hfailed, htrusted, hinstances⟩ := h.effective hne hk hok ht
    have hcount := discoveryCommit_failures commit
    obtain ⟨htopology, hhash⟩ := discoveryCommit_cached commit
      (fun ht' => (hinstances ht').trans (by rw [h.topology])) (by rw [h.hash, h.topology])
    have hverdict := (discoveryCommit_frame commit).2.2.2.2.2
    rw [if_pos (show (discoveryWork discover w.stored.resource now).failed = true from hfailed)]
      at hcount
    rw [stored]
    exact
      { threshold := h.threshold
        counter := by
          show status.consecutiveDiscoveryFailures.toInt = _
          rw [hcount, int32_toInt_succ (by rw [h.counter]; omega), h.counter]
          rfl
        topology := htopology.trans h.topology
        hash := hhash.trans (by rw [h.topology])
        verdict := by
          show discoveryVerdict (status.conditions.map Condition.marshal) = true ↔ _
          rw [discoveryVerdict_marshal, hverdict]
          exact htrusted }
  | undiscovered unanswered stored =>
    rename_i discover checkedAt now faults
    have hnone : (w.committedAt (.discover discover checkedAt now faults)).length = 0 := by
      rw [World.committedAt, if_neg (by simp [unanswered])]
      rfl
    rw [hnone, stored]
    exact h
  | monitored trusted commit stored =>
    rw [stored]
    obtain ⟨htopology, -, hhash, -, -, -, hverdict⟩ := monitorCommit_frame commit
    refine h.stored (monitorCommit_failures commit) htopology hhash (hverdict.trans ?_)
    rw [monitorWork_discovery]
    exact trusted.trans (cachedDiscovery_trusted_iff.mp trusted).1.symm
  | reconciled prepared cluster stored =>
    rename_i now faults w₁ p
    rw [stored, Prepared.status, prepared.resource, prepared.evaluation]
    obtain ⟨htopology, hhash, -⟩ := reconcileCommit_frame w.stored.resource p.plan p.missing p.now
      w.stored.resource
    refine h.stored ?_ htopology hhash ?_
    · simp [reconcileCommit, scheduledEvaluation]
    · -- the verdict is read from the cache, which is not empty
      rw [reconcileCommit_verdict, Bool.eq_iff_iff]
      exact cachedDiscovery_trusted_iff.trans (and_iff_left fun hempty =>
        hne (h.topology.symm.trans hempty))
  | edited stored =>
    rw [stored]
    exact ⟨hstep, h.counter, h.topology, h.hash, h.verdict⟩
  | unmonitored stored | attempted stored | moved stored => rw [stored]; exact h

end OneStep

/-! ## 3. Whole runs -/

/-- A committed success: the counter is zero, the verdict "trusted", and the topology is the one
that was discovered. -/
theorem Move.succeeded {w w' : World} {discover : Discover} {checkedAt now : Int}
    {faults : List (Option Fault)} {events : List Event}
    (hmove : Move w (.discover discover checkedAt now faults) w' events)
    (hanswer : answer (runDiscoveryJob discover checkedAt now) (w.meet faults) = true)
    {discovery : DiscoveryResult} (hok : discover w.stored.resource = .ok discovery)
    (ht : discovery.trusted = true) :
    Tolerating (discoveryFailureThreshold w.stored.resource) (topologyStatus discovery.instances)
      w'.stored.resource 0 := by
  have heff : effectiveDiscovery discover w.stored.resource = (discovery, false) := by
    simp [effectiveDiscovery, hok, ht]
  cases hmove with
  | undiscovered unanswered stored =>
    rw [unanswered] at hanswer
    cases hanswer
  | discovered answered due commit stored =>
    rename_i status
    rw [DiscoveryWork.commit, discoveryWork] at commit
    dsimp only at commit
    rw [heff] at commit
    obtain ⟨htopology, -, hhash⟩ := discoveryCommit_trusted commit ht
    have hcount := discoveryCommit_failures commit
    have hverdict := (discoveryCommit_frame commit).2.2.2.2.2
    rw [stored]
    exact
      { threshold := rfl
        counter := congrArg Int32.toInt hcount
        topology := htopology
        hash := hhash
        verdict := by
          refine iff_of_true ((discoveryVerdict_marshal _).trans (hverdict.trans ht)) ?_
          exact defaultInt32_pos (by decide) }

/-- **Failure tolerance is exact.**  From a committed success on, with whatever Reconciles,
monitor jobs and changes in between, `k` committed failures make the counter `k`, leave the
topology and its hash as they were, and leave the verdict at "trusted" exactly while `k` is
below the threshold.  The next committed success starts over. -/
theorem failure_tolerance (provider : Provider) (w : World) (discover : Discover)
    (checkedAt now : Int) (faults : List (Option Fault))
    (hok : discover w.stored.resource = .ok (provider.discover w.stored.resource))
    (htrusted : (provider.discover w.stored.resource).trusted = true)
    (hanswer : answer (runDiscoveryJob discover checkedAt now) (w.meet faults) = true)
    (steps : List Step)
    (hsteps : Machine.Along World.next (Failing (discoveryFailureThreshold w.stored.resource))
      (w.next (.discover discover checkedAt now faults)) steps) :
    let known := topologyStatus (provider.discover w.stored.resource).instances
    let t := Machine.run counting (w.next (.discover discover checkedAt now faults), []) steps
    let k := t.2.length
    let resource := t.1.stored.resource
    k < 2 ^ 31 →
      resource.status.consecutiveDiscoveryFailures.toInt = k ∧
      resource.status.lastKnownTopology = known ∧
      resource.status.topologyHash = some (hashObject known) ∧
      (lastDiscoveryTrusted resource = true ↔
        (k : Int) < (discoveryFailureThreshold w.stored.resource).toInt) ∧
      ∀ discover' checkedAt' now' faults' discovery, discover' resource = .ok discovery →
        discovery.trusted = true →
        answer (runDiscoveryJob discover' checkedAt' now') (t.1.meet faults') = true →
        let next := (t.1.next (.discover discover' checkedAt' now' faults')).stored.resource
        next.status.consecutiveDiscoveryFailures = 0 ∧ lastDiscoveryTrusted next = true := by
  intro known t k resource hk
  have hne : known ≠ [] := by
    have hwf := Provider.discover_wellFormed htrusted
    simpa [known, topologyStatus] using hwf.ne_nil
  have hstart : Tolerating (discoveryFailureThreshold w.stored.resource) known
      (w.next (.discover discover checkedAt now faults)).stored.resource 0 :=
    (next_move w _).succeeded hanswer hok htrusted
  -- the count grows along the run, so it is below the bound at every step
  have h : Tolerating (discoveryFailureThreshold w.stored.resource) known resource k :=
    Machine.Along.invariant
      (I := fun t : World × List Int => t.2.length < 2 ^ 31 →
        Tolerating (discoveryFailureThreshold w.stored.resource) known t.1.stored.resource
          t.2.length)
      (fun t step h hstep hlt => by
        have hlength : (counting t step).2.length
            = t.2.length + (t.1.committedAt step).length := by
          simp only [counting, Machine.traced, List.length_append]
          omega
        rw [hlength] at hlt ⊢
        exact (next_move t.1 step).tolerating hstep hne hlt (h (by omega)))
      (fun _ => hstart) (Machine.along_traced World.next |>.mpr hsteps) hk
  refine ⟨h.counter, h.topology, h.hash, h.verdict, ?_⟩
  intro discover' checkedAt' now' faults' discovery hok' ht' hanswer' next
  have hnext := (next_move t.1 _).succeeded hanswer' hok' ht'
  refine ⟨Int32.toInt_inj.mp hnext.counter, hnext.verdict.mpr ?_⟩
  exact defaultInt32_pos (by decide)

/-- A discovery that fails. -/
def discoverFailing (now : Int) : Step :=
  .discover (fun _ => .ok { trusted := false }) now now []

theorem discoverFailing_failing (limit : Int32) (now : Int) (w : World) :
    Failing limit w (discoverFailing now) := ⟨_, rfl, rfl⟩

def exampleFailures (k : Nat) : List Step :=
  (List.range k).map fun i => discoverFailing ((60 * (i + 1)) * second)

/-- A committed success and `k` failures. -/
def exampleOutage (k : Nat) : World × List Int :=
  Machine.run counting ((World.initial "db" exampleSpec {}).next (.discover (fun resource =>
    .ok (exampleProvider.discover resource)) (10 * second) (10 * second) []), []) (exampleFailures k)

/-- With the default threshold, two failures are tolerated and the third is not. -/
theorem failure_tolerance_example :
    lastDiscoveryTrusted (exampleOutage 2).1.stored.resource = true ∧
      lastDiscoveryTrusted (exampleOutage 3).1.stored.resource = false := by
  have hanswer : answer (runDiscoveryJob (fun resource => .ok (exampleProvider.discover resource))
      (10 * second) (10 * second)) ((World.initial "db" exampleSpec {}).meet []) = true := by
    decide +kernel
  have htrusted : (exampleProvider.discover
      (World.initial "db" exampleSpec {}).stored.resource).trusted = true := by decide +kernel
  have hcount : (exampleOutage 2).2.length = 2 ∧ (exampleOutage 3).2.length = 3 := by
    decide +kernel
  have hfailing : ∀ k, ∀ step ∈ exampleFailures k, ∀ w,
      Failing (discoveryFailureThreshold (World.initial "db" exampleSpec {}).stored.resource)
        w step := by
    intro k step hstep w
    obtain ⟨i, -, rfl⟩ := List.mem_map.mp hstep
    exact discoverFailing_failing _ _ _
  have hverdict : ∀ k, (exampleOutage k).2.length < 2 ^ 31 →
      (lastDiscoveryTrusted (exampleOutage k).1.stored.resource = true ↔
        ((exampleOutage k).2.length : Int) < 3) := fun k hk =>
    (failure_tolerance exampleProvider (World.initial "db" exampleSpec {}) _ _ _ [] rfl htrusted
      hanswer (exampleFailures k) (Machine.along_of_forall (hfailing k) _) hk).2.2.2.1
  have htwo := hverdict 2 (by omega)
  have hthree := hverdict 3 (by omega)
  rw [hcount.1] at htwo
  rw [hcount.2] at hthree
  exact ⟨htwo.mpr (by decide), Bool.eq_false_iff.mpr fun h => absurd (hthree.mp h) (by decide)⟩

end Controller

end AuroraOperator

import Scoopdope.Shared.Steps
import Scoopdope.Soroban.History

/-!
# Shared: upgrade, rollback, migrate

The upgrade by governance pushes the current code on `WasmHistory` and counts the
version up, a rollback pops it and counts up too. The upgrade by the admin does
neither, so the two get out of step with the code.

Results:
1. `upgrades_consistent`: in a run without upgrades by the admin each rollback
   restores the code from before the most recent upgrade not yet rolled back, the
   version goes up by one with each change of the code, the migrated version stays
   within it, and each version is migrated once.
2. `admin_upgrade_lost`: with one such upgrade the code changes under one version,
   and a rollback goes back one upgrade too far.
-/

namespace Scoopdope.Shared

open Soroban

variable {Address : Type} [DecidableEq Address]

/-! ## Upgrades not yet rolled back -/

/-- The code from before the upgrades not yet rolled back, most recent first. -/
def unrolledStep (unrolled : List Bytes32) (s : Storage Address) (i : Input Address) :
    List Bytes32 :=
  match i.call with
  | .upgrade _ => s.currentWasm :: unrolled
  | .upgradeAdmin _ _ => s.currentWasm :: unrolled
  | .rollback => unrolled.tail
  | _ => unrolled

def notRolledBack (s₀ : Storage Address) (past : List (Input Address)) : List Bytes32 :=
  traced exec s₀ unrolledStep [] past

/-- The call is an upgrade by the admin that passes its checks. -/
def UpgradesByAdmin (s : Storage Address) (i : Input Address) : Prop :=
  ∃ admin newWasmHash, i.call = .upgradeAdmin admin newWasmHash ∧ admin ∈ i.env.auths ∧
    s.admin = some admin ∧ i.host.updateCurrentContractWasm newWasmHash = .ok ()

def Call.Initializes (call : Call Address) : Prop :=
  ∃ admin governance, call = .initializeContract admin governance

/-! ## One call -/

section Steps

variable {s s' : Storage Address} {i : Input Address}

/-- What an accepted call does to the code and its versions. -/
inductive DeploymentEffect (s : Storage Address) (i : Input Address) (s' : Storage Address) : Prop
  | kept (hcall : ∀ unrolled, unrolledStep unrolled s i = unrolled) (h : SameDeployment s s')
  | initialised (hcall : i.call.Initializes) (hversion : getVersion s' = .lit 1)
      (hmigrated : getMigratedVersion s' = .lit 1) (hhistory : s'.wasmHistory = s.wasmHistory)
      (hwasm : s'.currentWasm = s.currentWasm)
  | upgraded (newWasmHash : Bytes32) (hcall : i.call = .upgrade newWasmHash)
      (h : Upgraded s s' newWasmHash)
  | rolledBack (hcall : i.call = .rollback) (h : RolledBack s s')
  | migrated (admin : Address) (hcall : i.call = .migrate admin) (h : Migrated s s')
  | upgradedByAdmin (hcall : UpgradesByAdmin s i)
      (hversion : s'.currentVersion = s.currentVersion)
      (hmigrated : s'.migratedVersion = s.migratedVersion)
      (hhistory : s'.wasmHistory = s.wasmHistory)

omit [DecidableEq Address] in
theorem unrolledStep_unrelated (h : i.call.Unrelated) (unrolled : List Bytes32) :
    unrolledStep unrolled s i = unrolled := by
  unfold unrolledStep
  cases hcall : i.call with
  | upgrade _ =>
    rw [hcall] at h
    cases h
  | upgradeAdmin _ _ =>
    rw [hcall] at h
    cases h
  | rollback =>
    rw [hcall] at h
    cases h
  | _ => rfl

theorem deployment_effect (he : exec s i = .ok s') : DeploymentEffect s i s' := by
  cases exec_effect he with
  | initialised admin governance hcall _ h =>
    rw [h]
    exact .initialised ⟨admin, governance, hcall⟩ rfl rfl rfl rfl
  | governanceSet caller governance hcall _ _ h =>
    refine .kept (fun _ => by rw [unrolledStep, hcall]) ?_
    rw [h]
    exact ⟨rfl, rfl, rfl, rfl⟩
  | roleAssigned caller target role hcall _ _ h =>
    refine .kept (fun _ => by rw [unrolledStep, hcall]) ?_
    rw [h]
    exact ⟨rfl, rfl, rfl, rfl⟩
  | upgraded newWasmHash hcall h => exact .upgraded newWasmHash hcall h
  | rolledBack hcall h => exact .rolledBack hcall h
  | migrated admin hcall h => exact .migrated admin hcall h
  | upgradedByAdmin admin newWasmHash hcall hauth hadmin hhost h =>
    rw [h]
    exact .upgradedByAdmin ⟨admin, newWasmHash, hcall, hauth, hadmin, hhost⟩ rfl rfl rfl
  | unrelated hcall h => exact .kept (unrolledStep_unrelated hcall) h.deployment

/-! ### The history of the code -/

/-- `WasmHistory` is what has not been rolled back, the oldest first. -/
theorem history_step {unrolled : List Bytes32} (he : exec s i = .ok s')
    (hnot : ¬ UpgradesByAdmin s i) (h : getWasmHistory s = unrolled.reverse) :
    getWasmHistory s' = (unrolledStep unrolled s i).reverse := by
  cases deployment_effect he with
  | kept hcall hsame => rw [hcall, getWasmHistory, hsame.wasmHistory, ← getWasmHistory, h]
  | initialised hcall _ _ hhistory _ =>
    obtain ⟨_, _, hcall⟩ := hcall
    rw [unrolledStep, hcall, getWasmHistory, hhistory, ← getWasmHistory, h]
  | upgraded newWasmHash hcall hu =>
    rw [unrolledStep, hcall, hu.history, h, List.reverse_cons]
  | rolledBack hcall hr =>
    have hcons : unrolled = s'.currentWasm :: (getWasmHistory s').reverse := by
      rw [← List.reverse_reverse unrolled, ← h, hr.history, List.reverse_append]
      rfl
    rw [unrolledStep, hcall, hcons, List.tail_cons, List.reverse_reverse]
  | migrated admin hcall hm =>
    rw [unrolledStep, hcall, getWasmHistory, hm.history, ← getWasmHistory, h]
  | upgradedByAdmin hcall _ _ _ => exact absurd hcall hnot

/-- A rollback restores the code from before the most recent upgrade. -/
theorem rollback_step {unrolled : List Bytes32} (he : exec s i = .ok s')
    (hcall : i.call = .rollback) (h : getWasmHistory s = unrolled.reverse) :
    unrolled.head? = some s'.currentWasm := by
  rw [exec, hcall] at he
  obtain ⟨_, hr⟩ := rollback_ok he
  rw [← List.reverse_reverse unrolled, ← h, hr.history, List.reverse_append]
  rfl

/-! ### The versions -/

omit [DecidableEq Address] in
theorem NextVersion.migrated (h : NextVersion s s') :
    getMigratedVersion s' = getMigratedVersion s := by
  rw [getMigratedVersion, h.migratedVersion]
  rfl

/-- The version goes up by one with an upgrade or a rollback, and only then. -/
theorem version_step (he : exec s i = .ok s') (hnot : ¬ UpgradesByAdmin s i)
    (hinit : ¬ i.call.Initializes) :
    (s'.currentWasm = s.currentWasm ∧ getVersion s' = getVersion s) ∨
    ((getVersion s').val = (getVersion s).val + 1 ∧
      ((∃ newWasmHash, i.call = .upgrade newWasmHash) ∨ i.call = .rollback)) := by
  cases deployment_effect he with
  | kept _ hsame =>
    refine .inl ⟨hsame.currentWasm, ?_⟩
    rw [getVersion, hsame.currentVersion]
    rfl
  | initialised hcall _ _ _ _ => exact absurd hcall hinit
  | upgraded newWasmHash hcall hu => exact .inr ⟨hu.version.next, .inl ⟨newWasmHash, hcall⟩⟩
  | rolledBack hcall hr => exact .inr ⟨hr.version.next, .inr hcall⟩
  | migrated admin _ hm =>
    refine .inl ⟨hm.wasm, ?_⟩
    rw [getVersion, hm.currentVersion]
    rfl
  | upgradedByAdmin hcall _ _ _ => exact absurd hcall hnot

/-- What has been migrated is no later than the version, and stays migrated. -/
theorem migrated_step (he : exec s i = .ok s') (hinit : ¬ i.call.Initializes)
    (h : (getMigratedVersion s).val ≤ (getVersion s).val) :
    (getMigratedVersion s').val ≤ (getVersion s').val ∧
      (getMigratedVersion s).val ≤ (getMigratedVersion s').val := by
  cases deployment_effect he with
  | kept _ hsame =>
    rw [getMigratedVersion, getVersion, hsame.migratedVersion, hsame.currentVersion]
    exact ⟨h, le_refl _⟩
  | initialised hcall _ _ _ _ => exact absurd hcall hinit
  | upgraded newWasmHash hcall hu =>
    rw [hu.version.migrated, hu.version.next]
    exact ⟨h.trans (Int.le_add_of_nonneg_right Int.one_nonneg), le_refl _⟩
  | rolledBack hcall hr =>
    rw [hr.version.migrated, hr.version.next]
    exact ⟨h.trans (Int.le_add_of_nonneg_right Int.one_nonneg), le_refl _⟩
  | migrated admin _ hm =>
    have hversion : getVersion s' = getVersion s := by
      rw [getVersion, hm.currentVersion]
      rfl
    rw [hm.migrated, hversion]
    exact ⟨le_refl _, h⟩
  | upgradedByAdmin _ hversion hmigrated _ =>
    rw [getMigratedVersion, getVersion, hmigrated, hversion]
    exact ⟨h, le_refl _⟩

end Steps

/-! ## Runs -/

section Runs

variable {admin governance : Address} {s₀ : Storage Address} {past : List (Input Address)}

theorem Initialised.deployment (h : Initialised admin governance s₀) :
    getWasmHistory s₀ = [] ∧ (getMigratedVersion s₀).val ≤ (getVersion s₀).val := by
  obtain ⟨env, wasm, hc⟩ := h
  obtain ⟨_, rfl⟩ := initializeContract_ok.mp hc
  exact ⟨rfl, le_refl _⟩

theorem history_after (h : Initialised admin governance s₀)
    (hguard : Guarded (fun earlier i => ¬ UpgradesByAdmin (after exec s₀ earlier) i) past) :
    getWasmHistory (after exec s₀ past) = (notRolledBack s₀ past).reverse := by
  refine after_traced
    (R := fun s (unrolled : List Bytes32) => getWasmHistory s = unrolled.reverse)
    h.deployment.1 past fun e i s' hs hr he => ?_
  exact history_step he (hguard.suffix hs).1 hr

theorem migrated_after (h : Initialised admin governance s₀)
    (hinit : ∀ i ∈ past, ¬ i.call.Initializes) :
    (getMigratedVersion (after exec s₀ past)).val ≤ (getVersion (after exec s₀ past)).val := by
  refine after_kept (P := fun s => (getMigratedVersion s).val ≤ (getVersion s).val)
    List.nil_suffix h.deployment.2 fun i e s' hs _ hle he => ?_
  exact (migrated_step he (hinit i (hs.subset List.mem_cons_self)) hle).1

/-- A version is migrated once. -/
theorem migrated_once (h : Initialised admin governance s₀)
    (hinit : ∀ i ∈ past, ¬ i.call.Initializes) {i j : Input Address} {e f : List (Input Address)}
    (hi : i :: e <:+ past) (hmi : ∃ admin, i.call = .migrate admin) (hai : Accepted exec s₀ e i)
    (hj : j :: f <:+ past) (hmj : ∃ admin, j.call = .migrate admin) (haj : Accepted exec s₀ f j)
    (hsame : getVersion (after exec s₀ e) = getVersion (after exec s₀ f)) : i :: e = j :: f := by
  refine accepted_once
    (fun s i => (∃ admin, i.call = .migrate admin) ∧ getVersion s = getVersion (after exec s₀ f))
    (fun s => (getVersion (after exec s₀ f)).val ≤ (getMigratedVersion s).val) ?_ ?_ ?_
    hi ⟨hmi, hsame⟩ hai hj ⟨hmj, rfl⟩ haj
  · rintro s i s' ⟨⟨admin, hcall⟩, hversion⟩ he
    rw [exec, hcall] at he
    obtain ⟨_, _, hm⟩ := migrate_ok he
    rw [hm.migrated, hversion]
  · intro e i s' hs hspent he
    have hle := migrated_after h fun j hj =>
      hinit j (hs.subset (List.mem_cons_of_mem i hj))
    have hmono := migrated_step he (hinit i (hs.subset List.mem_cons_self)) hle
    exact hspent.trans hmono.2
  · rintro s i s' ⟨⟨admin, hcall⟩, hversion⟩ hspent he
    rw [exec, hcall] at he
    obtain ⟨_, _, hm⟩ := migrate_ok he
    have hpending := hm.pending
    rw [hversion] at hpending
    exact absurd hspent (not_le.mpr hpending)

/-- In a run without a second `initialize` and without upgrades by the admin: a
rollback restores the code from before the most recent upgrade not yet rolled back;
with each change of the code the version goes up by one; what is migrated is within
the version; and a version is migrated once. -/
theorem upgrades_consistent (h : Initialised admin governance s₀) (past : List (Input Address))
    (hinit : ∀ i ∈ past, ¬ i.call.Initializes)
    (hguard : Guarded (fun earlier i => ¬ UpgradesByAdmin (after exec s₀ earlier) i) past) :
    (∀ i e, i :: e <:+ past → Accepted exec s₀ e i → i.call = .rollback →
      (notRolledBack s₀ e).head? = some (after exec s₀ (i :: e)).currentWasm) ∧
    (∀ i e, i :: e <:+ past →
      ((after exec s₀ (i :: e)).currentWasm = (after exec s₀ e).currentWasm ∧
        getVersion (after exec s₀ (i :: e)) = getVersion (after exec s₀ e)) ∨
      ((getVersion (after exec s₀ (i :: e))).val = (getVersion (after exec s₀ e)).val + 1 ∧
        ((∃ newWasmHash, i.call = .upgrade newWasmHash) ∨ i.call = .rollback))) ∧
    (getMigratedVersion (after exec s₀ past)).val ≤ (getVersion (after exec s₀ past)).val ∧
    (∀ i e j f, i :: e <:+ past → (∃ admin, i.call = .migrate admin) → Accepted exec s₀ e i →
      j :: f <:+ past → (∃ admin, j.call = .migrate admin) → Accepted exec s₀ f j →
      getVersion (after exec s₀ e) = getVersion (after exec s₀ f) → i :: e = j :: f) := by
  refine ⟨?_, ?_, migrated_after h hinit, ?_⟩
  · rintro i e hs ⟨s', he⟩ hcall
    have hhistory := history_after h (hguard.suffix hs).2
    rw [after, apply_ok he]
    exact rollback_step he hcall hhistory
  · intro i e hs
    cases he : exec (after exec s₀ e) i with
    | ok s' =>
      rw [after, apply_ok he]
      exact version_step he (hguard.suffix hs).1 (hinit i (hs.subset List.mem_cons_self))
    | error t =>
      rw [after, apply_error he]
      exact .inl ⟨rfl, rfl⟩
  · intro i e j f hi hmi hai hj hmj haj hsame
    exact migrated_once h hinit hi hmi hai hj hmj haj hsame

/-- Governance upgrades and the admin migrates. -/
def exampleUpgraded : List (Input Nat) :=
  [exampleInput [1] (.migrate 1), exampleInput [5] (.upgrade (exampleWasm 1))]

def exampleRollback : Input Nat := exampleInput [5] .rollback

theorem upgrades_consistent_rollback :
    (notRolledBack exampleShared exampleUpgraded).head? =
      some (after exec exampleShared (exampleRollback :: exampleUpgraded)).currentWasm := by
  have hinit : ∀ i ∈ exampleRollback :: exampleUpgraded, ¬ i.call.Initializes := by
    rintro i hi ⟨_, _, hc⟩
    simp only [exampleUpgraded, List.mem_cons, List.not_mem_nil, or_false] at hi
    rcases hi with rfl | rfl | rfl
    · cases hc
    · cases hc
    · cases hc
  have hguard : Guarded (fun earlier i => ¬ UpgradesByAdmin (after exec exampleShared earlier) i)
      (exampleRollback :: exampleUpgraded) := by
    refine ⟨?_, ?_, ?_, trivial⟩
    · rintro ⟨_, _, hc, _⟩
      cases hc
    · rintro ⟨_, _, hc, _⟩
      cases hc
    · rintro ⟨_, _, hc, _⟩
      cases hc
  obtain ⟨hrollback, _⟩ := upgrades_consistent exampleShared_initialised
    (exampleRollback :: exampleUpgraded) hinit hguard
  exact hrollback exampleRollback exampleUpgraded (List.suffix_refl _)
    (accepted_iff.mpr (by decide +kernel)) rfl

/-- Governance upgrades, then the admin does. -/
def exampleBothUpgrade : List (Input Nat) :=
  [exampleInput [1] (.upgradeAdmin 1 (exampleWasm 2)),
    exampleInput [5] (.upgrade (exampleWasm 1))]

/-- The admin changes the code and not the version, and the rollback restores the code
from before the upgrade by governance. -/
theorem admin_upgrade_lost :
    Initialised 1 5 exampleShared ∧
    (∀ i ∈ exampleRollback :: exampleBothUpgrade, ¬ i.call.Initializes) ∧
    (∃ i e, i :: e <:+ exampleRollback :: exampleBothUpgrade ∧
      (after exec exampleShared (i :: e)).currentWasm ≠ (after exec exampleShared e).currentWasm ∧
      getVersion (after exec exampleShared (i :: e)) = getVersion (after exec exampleShared e)) ∧
    Accepted exec exampleShared exampleBothUpgrade exampleRollback ∧
    exampleRollback.call = .rollback ∧
    (notRolledBack exampleShared exampleBothUpgrade).head? = some (exampleWasm 1) ∧
    (after exec exampleShared (exampleRollback :: exampleBothUpgrade)).currentWasm =
      exampleWasm 0 := by
  refine ⟨exampleShared_initialised, ?_, ⟨_, _, List.suffix_cons _ _, ?_, ?_⟩,
    accepted_iff.mpr (by decide +kernel), rfl, by decide +kernel, by decide +kernel⟩
  · rintro i hi ⟨_, _, hc⟩
    simp only [exampleBothUpgrade, List.mem_cons, List.not_mem_nil, or_false] at hi
    rcases hi with rfl | rfl | rfl
    · cases hc
    · cases hc
    · cases hc
  · decide +kernel
  · decide +kernel

end Runs

end Scoopdope.Shared

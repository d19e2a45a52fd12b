import Scoopdope.Shared.Contract

/-!
# Shared: what an accepted call does

From a call that returned, the checks that passed and the storage it wrote, for
the keys that say who may do what (`SameAuthority`) and for those that say which
code is in force (`SameDeployment`). `Effect` has one case for each entry point
that writes one of these keys.
-/

namespace Scoopdope.Shared

open Soroban

variable {Address : Type}

/-! ## Effects -/

/-- Who may do what. -/
structure SameAuthority (s s' : Storage Address) : Prop where
  admin : s'.admin = s.admin
  governance : s'.governance = s.governance
  role : s'.role = s.role

/-- Which code is in force, and its versions. -/
structure SameDeployment (s s' : Storage Address) : Prop where
  currentVersion : s'.currentVersion = s.currentVersion
  migratedVersion : s'.migratedVersion = s.migratedVersion
  wasmHistory : s'.wasmHistory = s.wasmHistory
  currentWasm : s'.currentWasm = s.currentWasm

/-- `MigratedVersion`, 0 where there is none. -/
def getMigratedVersion (s : Storage Address) : U32 := s.migratedVersion.getD 0

/-- `WasmHistory`, the oldest entry first. -/
def getWasmHistory (s : Storage Address) : List Bytes32 := s.wasmHistory.getD []

/-- The version went up by one. -/
structure NextVersion (s s' : Storage Address) : Prop where
  next : (getVersion s').val = (getVersion s).val + 1
  migratedVersion : s'.migratedVersion = s.migratedVersion

structure Upgraded (s s' : Storage Address) (newWasmHash : Bytes32) : Prop where
  wasm : s'.currentWasm = newWasmHash
  history : getWasmHistory s' = getWasmHistory s ++ [s.currentWasm]
  version : NextVersion s s'
  authority : SameAuthority s s'

structure RolledBack (s s' : Storage Address) : Prop where
  history : getWasmHistory s = getWasmHistory s' ++ [s'.currentWasm]
  version : NextVersion s s'
  authority : SameAuthority s s'

structure Migrated (s s' : Storage Address) : Prop where
  pending : (getMigratedVersion s).val < (getVersion s).val
  migrated : getMigratedVersion s' = getVersion s
  currentVersion : s'.currentVersion = s.currentVersion
  history : s'.wasmHistory = s.wasmHistory
  wasm : s'.currentWasm = s.currentWasm
  authority : SameAuthority s s'

variable [DecidableEq Address]

/-! ## Entry points -/

section EntryPoints

variable {env : Env Address} {host : Host} {s s' : Storage Address}

theorem initializeContract_ok {admin governance : Address} :
    initializeContract env s admin governance = .ok s' ↔ admin ∈ env.auths ∧
      s' = { s with
        admin := some admin
        governance := some governance
        role := s.role.set admin .admin
        currentVersion := some (.lit 1)
        migratedVersion := some (.lit 1) } := by
  simp only [initializeContract, bind_eq_ok, Env.requireAuth_eq_ok, exists_const, pure_eq_ok,
    @eq_comm _ s']

theorem setGovernance_ok {caller governance : Address}
    (h : setGovernance env s caller governance = .ok s') :
    caller ∈ env.auths ∧ s.admin = some caller ∧
      s' = { s with governance := some governance } := by
  simp only [setGovernance, bind_eq_ok, assert_eq_ok, unwrap_eq_ok, Env.requireAuth_eq_ok,
    exists_const, pure_eq_ok] at h
  obtain ⟨hauth, _, hadmin, rfl, rfl⟩ := h
  exact ⟨hauth, hadmin, rfl⟩

theorem upgrade_ok {newWasmHash : Bytes32} (h : upgrade env host s newWasmHash = .ok s') :
    (∃ governance, s.governance = some governance ∧ governance ∈ env.auths) ∧
      Upgraded s s' newWasmHash := by
  simp only [upgrade, Storage.updateCurrentContractWasm, bind_eq_ok, expect_eq_ok,
    Env.requireAuth_eq_ok, BoundedInt.add_eq_ok, BoundedInt.lit_val, exists_const, pure_eq_ok] at h
  obtain ⟨governance, hgovernance, hauth, version, hversion, _, _, rfl⟩ := h
  exact ⟨⟨governance, hgovernance, hauth⟩, rfl, rfl, ⟨hversion, rfl⟩, ⟨rfl, rfl, rfl⟩⟩

theorem rollback_ok (h : rollback env host s = .ok s') :
    (∃ governance, s.governance = some governance ∧ governance ∈ env.auths) ∧
      RolledBack s s' := by
  simp only [rollback, Storage.updateCurrentContractWasm, bind_eq_ok, expect_eq_ok, assert_eq_ok,
    unwrap_eq_ok, Env.requireAuth_eq_ok, BoundedInt.add_eq_ok, BoundedInt.lit_val, exists_const,
    pure_eq_ok] at h
  obtain ⟨governance, hgovernance, hauth, history, hhistory, _, prevWasm, hlast, version, hversion,
    _, _, rfl⟩ := h
  refine ⟨⟨governance, hgovernance, hauth⟩, ?_, ⟨hversion, rfl⟩, ⟨rfl, rfl, rfl⟩⟩
  rw [getWasmHistory, hhistory]
  exact (List.dropLast_append_getLast? prevWasm hlast).symm

theorem migrate_ok {admin : Address} (h : migrate env s admin = .ok s') :
    admin ∈ env.auths ∧ s.admin = some admin ∧ Migrated s s' := by
  simp only [migrate, bind_eq_ok, assert_eq_ok, unwrap_eq_ok, Env.requireAuth_eq_ok,
    exists_const, pure_eq_ok] at h
  obtain ⟨hauth, _, hadmin, rfl, hpending, rfl⟩ := h
  exact ⟨hauth, hadmin, hpending, rfl, rfl, rfl, rfl, ⟨rfl, rfl, rfl⟩⟩

theorem assignRole_ok {caller target : Address} {role : Role}
    (h : assignRole env s caller target role = .ok s') :
    caller ∈ env.auths ∧ s.admin = some caller ∧
      s' = { s with role := s.role.set target role }.publish
        [.symbol "rbac", .symbol "role_asgn"] [.address target, .variant role.name] := by
  simp only [assignRole, bind_eq_ok, assert_eq_ok, unwrap_eq_ok, Env.requireAuth_eq_ok,
    exists_const, pure_eq_ok] at h
  obtain ⟨hauth, _, hadmin, rfl, rfl⟩ := h
  exact ⟨hauth, hadmin, rfl⟩

theorem upgradeAdmin_ok {admin : Address} {newWasmHash : Bytes32}
    (h : upgradeAdmin env host s admin newWasmHash = .ok s') :
    admin ∈ env.auths ∧ s.admin = some admin ∧
      host.updateCurrentContractWasm newWasmHash = .ok () ∧
      s' = { s with currentWasm := newWasmHash }.publish
        [.symbol "shared", .symbol "upgraded"] [.bytes newWasmHash.toList] := by
  simp only [upgradeAdmin, Storage.updateCurrentContractWasm, bind_eq_ok, assert_eq_ok,
    unwrap_eq_ok, Env.requireAuth_eq_ok, exists_const, pure_eq_ok] at h
  obtain ⟨hauth, _, hadmin, rfl, _, hhost, rfl⟩ := h
  exact ⟨hauth, hadmin, hhost, rfl⟩

/-- Neither who may do what nor which code is in force has changed. -/
structure Unrelated (s s' : Storage Address) : Prop where
  authority : SameAuthority s s'
  deployment : SameDeployment s s'

theorem authorizeCaller_ok {admin targetContract caller : Address}
    (h : authorizeCaller env s admin targetContract caller = .ok s') :
    admin ∈ env.auths ∧ s.admin = some admin ∧ Unrelated s s' := by
  simp only [authorizeCaller, bind_eq_ok, assert_eq_ok, unwrap_eq_ok, Env.requireAuth_eq_ok,
    exists_const, pure_eq_ok] at h
  obtain ⟨hauth, _, hadmin, rfl, rfl⟩ := h
  refine ⟨hauth, hadmin, ?_⟩
  split
  · exact ⟨⟨rfl, rfl, rfl⟩, ⟨rfl, rfl, rfl, rfl⟩⟩
  · exact ⟨⟨rfl, rfl, rfl⟩, ⟨rfl, rfl, rfl, rfl⟩⟩

theorem callContract_ok {caller targetContract : Address} {method : String} {id : U64}
    (h : callContract env s caller targetContract method = .ok (id, s')) :
    caller ∈ env.auths ∧ isCallerAuthorized s targetContract caller = true ∧ Unrelated s s' := by
  simp only [callContract, bind_eq_ok, assert_eq_ok, Env.requireAuth_eq_ok, exists_const,
    pure_eq_ok, Prod.mk.injEq] at h
  obtain ⟨hauth, hcaller, _, _, _, rfl⟩ := h
  exact ⟨hauth, hcaller, ⟨rfl, rfl, rfl⟩, ⟨rfl, rfl, rfl, rfl⟩⟩

theorem relayEvent_ok {caller sourceContract : Address} {eventTopic : String}
    (h : relayEvent env s caller sourceContract eventTopic = .ok s') :
    caller ∈ env.auths ∧ isCallerAuthorized s sourceContract caller = true ∧ Unrelated s s' := by
  simp only [relayEvent, bind_eq_ok, assert_eq_ok, Env.requireAuth_eq_ok, exists_const,
    pure_eq_ok] at h
  obtain ⟨hauth, hcaller, rfl⟩ := h
  exact ⟨hauth, hcaller, ⟨rfl, rfl, rfl⟩, ⟨rfl, rfl, rfl, rfl⟩⟩

theorem pauseContract_ok {admin : Address} {autoUnpauseLedgers : U32}
    (h : pauseContract env s admin autoUnpauseLedgers = .ok s') :
    admin ∈ env.auths ∧ s.admin = some admin ∧ Unrelated s s' := by
  simp only [pauseContract, pause, bind_eq_ok, assert_eq_ok, unwrap_eq_ok, Env.requireAuth_eq_ok,
    exists_const, pure_eq_ok] at h
  obtain ⟨hauth, _, hadmin, rfl, _, _, _, _, _, _, rfl⟩ := h
  exact ⟨hauth, hadmin, ⟨rfl, rfl, rfl⟩, ⟨rfl, rfl, rfl, rfl⟩⟩

theorem unpauseContract_ok {admin : Address}
    (h : unpauseContract env s admin = .ok s') :
    admin ∈ env.auths ∧ s.admin = some admin ∧ Unrelated s s' := by
  simp only [unpauseContract, unpause, bind_eq_ok, assert_eq_ok, unwrap_eq_ok,
    Env.requireAuth_eq_ok, exists_const, pure_eq_ok] at h
  obtain ⟨hauth, _, hadmin, rfl, _, _, rfl⟩ := h
  exact ⟨hauth, hadmin, ⟨rfl, rfl, rfl⟩, ⟨rfl, rfl, rfl, rfl⟩⟩

end EntryPoints

/-! ## One call -/

/-- The calls that write neither who may do what nor which code is in force. -/
def Call.Unrelated : Call Address → Prop
  | .authorizeCaller _ _ _ => True
  | .callContract _ _ _ => True
  | .relayEvent _ _ _ => True
  | .pauseContract _ _ => True
  | .unpauseContract _ => True
  | _ => False

/-- What an accepted call does. -/
inductive Effect (s : Storage Address) (i : Input Address) (s' : Storage Address) : Prop
  | initialised (admin governance : Address)
      (hcall : i.call = .initializeContract admin governance) (hauth : admin ∈ i.env.auths)
      (h : s' = { s with
        admin := some admin
        governance := some governance
        role := s.role.set admin .admin
        currentVersion := some (.lit 1)
        migratedVersion := some (.lit 1) })
  | governanceSet (caller governance : Address) (hcall : i.call = .setGovernance caller governance)
      (hauth : caller ∈ i.env.auths) (hadmin : s.admin = some caller)
      (h : s' = { s with governance := some governance })
  | roleAssigned (caller target : Address) (role : Role)
      (hcall : i.call = .assignRole caller target role) (hauth : caller ∈ i.env.auths)
      (hadmin : s.admin = some caller)
      (h : s' = { s with role := s.role.set target role }.publish
        [.symbol "rbac", .symbol "role_asgn"] [.address target, .variant role.name])
  | upgraded (newWasmHash : Bytes32) (hcall : i.call = .upgrade newWasmHash)
      (h : Upgraded s s' newWasmHash)
  | rolledBack (hcall : i.call = .rollback) (h : RolledBack s s')
  | migrated (admin : Address) (hcall : i.call = .migrate admin) (h : Migrated s s')
  | upgradedByAdmin (admin : Address) (newWasmHash : Bytes32)
      (hcall : i.call = .upgradeAdmin admin newWasmHash) (hauth : admin ∈ i.env.auths)
      (hadmin : s.admin = some admin)
      (hhost : i.host.updateCurrentContractWasm newWasmHash = .ok ())
      (h : s' = { s with currentWasm := newWasmHash }.publish
        [.symbol "shared", .symbol "upgraded"] [.bytes newWasmHash.toList])
  | unrelated (hcall : i.call.Unrelated) (h : Unrelated s s')

theorem exec_effect {s s' : Storage Address} {i : Input Address} (h : exec s i = .ok s') :
    Effect s i s' := by
  obtain ⟨env, host, call⟩ := i
  cases call with
  | initializeContract admin governance =>
    obtain ⟨hauth, hs'⟩ := initializeContract_ok.mp h
    exact .initialised admin governance rfl hauth hs'
  | setGovernance caller governance =>
    obtain ⟨hauth, hadmin, hs'⟩ := setGovernance_ok h
    exact .governanceSet caller governance rfl hauth hadmin hs'
  | upgrade newWasmHash => exact .upgraded newWasmHash rfl (upgrade_ok h).2
  | rollback => exact .rolledBack rfl (rollback_ok h).2
  | migrate admin => exact .migrated admin rfl (migrate_ok h).2.2
  | assignRole caller target role =>
    obtain ⟨hauth, hadmin, hs'⟩ := assignRole_ok h
    exact .roleAssigned caller target role rfl hauth hadmin hs'
  | upgradeAdmin admin newWasmHash =>
    obtain ⟨hauth, hadmin, hhost, hs'⟩ := upgradeAdmin_ok h
    exact .upgradedByAdmin admin newWasmHash rfl hauth hadmin hhost hs'
  | authorizeCaller admin targetContract caller =>
    exact .unrelated trivial (authorizeCaller_ok h).2.2
  | callContract caller targetContract method =>
    obtain ⟨id, hc⟩ := map_snd_eq_ok.mp h
    exact .unrelated trivial (callContract_ok hc).2.2
  | relayEvent caller sourceContract eventTopic => exact .unrelated trivial (relayEvent_ok h).2.2
  | pauseContract admin autoUnpauseLedgers => exact .unrelated trivial (pauseContract_ok h).2.2
  | unpauseContract admin => exact .unrelated trivial (unpauseContract_ok h).2.2

/-! ## The initialised contract -/

/-- The storage after the first `initialize`. -/
def Initialised (admin governance : Address) (s₀ : Storage Address) : Prop :=
  ∃ env wasm, initializeContract env (Storage.fresh Address wasm) admin governance = .ok s₀

/-- The hash of some code. -/
def exampleWasm (n : UInt8) : Bytes32 := Vector.replicate 32 n

/-- The shared contract with contract 1 as admin and contract 5 as governance. -/
def exampleShared : Storage Nat :=
  { Storage.fresh Nat (exampleWasm 0) with
    admin := some 1
    governance := some 5
    role := (∅ : Table Nat Role).set 1 .admin
    currentVersion := some (.lit 1)
    migratedVersion := some (.lit 1) }

theorem exampleShared_initialised : Initialised 1 5 exampleShared :=
  ⟨exampleEnv 0 [1], exampleWasm 0, rfl⟩

/-- A host that has every code installed. -/
def exampleHost : Host where
  updateCurrentContractWasm _ := .ok ()

def exampleInput (auths : List Nat) (call : Call Nat) : Input Nat :=
  ⟨exampleEnv 0 auths, exampleHost, call⟩

end Scoopdope.Shared

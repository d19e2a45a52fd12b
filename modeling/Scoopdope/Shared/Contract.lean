import Scoopdope.Soroban.Env
import Scoopdope.Soroban.Table

/-!
# Shared: storage and entry points

The entry points of `SharedContract`, each in the order of its checks and writes.
The file has two functions `upgrade`; the one for the admin is `upgradeAdmin`
here. `multisig.rs` has no entry point in the contract and is not part of it.
-/

namespace Scoopdope.Shared

open Soroban

/-! ## Types and storage

The storage of `SharedContract` (`contracts/shared/src/lib.rs`), the keys of
`pausable.rs` included: both files write the same contract storage and their keys
are distinct. A field is one storage key, or a table for a family of keys; `none`
and absent entries are keys that were never set.

`Storage.currentWasm` is kept by the host: the hash of the code that serves the
contract. The code itself is taken to stay the one of this file. -/

inductive Role
  | admin
  | instructor
  | student
deriving DecidableEq

inductive Permission
  | createCourse
  | enrollStudent
  | issueCredential
  | mintToken
  | manageUsers
  | upgrade
deriving DecidableEq

/-- The variant name of a role, as host values have it. -/
def Role.name : Role → String
  | .admin => "Admin"
  | .instructor => "Instructor"
  | .student => "Student"

section Types

variable (Address : Type)

structure CrossContractCallRecord where
  id : U64
  caller : Address
  targetContract : Address
  method : String
  /-- "pending", "success", "failed". -/
  status : String
  createdAt : U64
  executedAt : U64

structure Storage where
  /- Instance storage. -/
  role : Table Address Role
  admin : Option Address
  governance : Option Address
  crossContractCall : Table U64 (CrossContractCallRecord Address)
  nextCallId : Option U64
  authorizedCallers : Table Address (List Address)
  currentVersion : Option U32
  migratedVersion : Option U32
  paused : Option Bool
  pauseTime : Option U64
  autoUnpauseTime : Option U64
  /- Persistent storage. -/
  wasmHistory : Option (List Bytes32)
  /- Kept by the host. -/
  currentWasm : Bytes32
  /-- The events published so far, newest first. -/
  events : List (Event Address)

/-- The storage of a contract just deployed with this code. -/
def Storage.fresh (wasm : Bytes32) : Storage Address where
  role := ∅
  admin := none
  governance := none
  crossContractCall := ∅
  nextCallId := none
  authorizedCallers := ∅
  currentVersion := none
  migratedVersion := none
  paused := none
  pauseTime := none
  autoUnpauseTime := none
  wasmHistory := none
  currentWasm := wasm
  events := []

end Types

variable {Address : Type}

/-- `env.events().publish(topics, data)`. -/
def Storage.publish (s : Storage Address) (topics data : List (Val Address)) : Storage Address :=
  { s with events := ⟨topics, data⟩ :: s.events }

/-- What the host does for the contract during one call. -/
structure Host where
  /-- `update_current_contract_wasm`: fails for code that is not installed. -/
  updateCurrentContractWasm : Bytes32 → Outcome Unit

/-- `env.deployer().update_current_contract_wasm(hash)`. -/
def Storage.updateCurrentContractWasm (host : Host) (s : Storage Address) (hash : Bytes32) :
    Outcome (Storage Address) := do
  host.updateCurrentContractWasm hash
  pure { s with currentWasm := hash }

variable [DecidableEq Address]

/-! ## `pausable.rs` -/

def isPaused (s : Storage Address) : Bool := s.paused.getD false

structure PauseState where
  isPaused : Bool
  pauseTime : U64
  autoUnpauseTime : U64

def getPauseState (s : Storage Address) : PauseState where
  isPaused := s.paused.getD false
  pauseTime := s.pauseTime.getD 0
  autoUnpauseTime := s.autoUnpauseTime.getD 0

def pause (env : Env Address) (s : Storage Address) (admin : Address)
    (autoUnpauseLedgers : U32) : Outcome (Storage Address) := do
  env.requireAuth admin
  assert (s.paused.getD false = false) "Already paused"
  let currentTime := env.timestamp
  -- ~5 sec per ledger
  let delay ← autoUnpauseLedgers.u32AsU64.mul (.lit 5)
  let autoUnpauseTime ← currentTime.add delay
  let s := { s with
    paused := some true
    pauseTime := some currentTime
    autoUnpauseTime := some autoUnpauseTime }
  pure (s.publish [.symbol "pause", .symbol "paused"] [.u64 currentTime, .u64 autoUnpauseTime])

def unpause (env : Env Address) (s : Storage Address) (admin : Address) :
    Outcome (Storage Address) := do
  env.requireAuth admin
  assert (s.paused.getD false = true) "Not paused"
  let s := { s with paused := some false }
  pure (s.publish [.symbol "pause", .symbol "unpaused"] [.u64 env.timestamp])

/-- No entry point of the contract calls it. -/
def checkNotPaused (env : Env Address) (s : Storage Address) : Outcome (Storage Address) :=
  if s.paused.getD false = true then
    let autoUnpauseTime := s.autoUnpauseTime.getD 0
    if autoUnpauseTime ≤ env.timestamp then
      -- Auto-unpause
      let s := { s with paused := some false }
      pure (s.publish [.symbol "pause", .symbol "auto_un"] [.u64 env.timestamp])
    else
      .error (.panic "Contract is paused")
  else
    pure s

/-! ## Admin and governance -/

/-- Does `role` grant `permission`? -/
def roleHasPermission (role : Role) (permission : Permission) : Bool :=
  match role with
  | .admin => true
  | .instructor => permission = .createCourse ∨ permission = .enrollStudent
  | .student => false

def initializeContract (env : Env Address) (s : Storage Address) (admin governance : Address) :
    Outcome (Storage Address) := do
  env.requireAuth admin
  pure { s with
    admin := some admin
    governance := some governance
    role := s.role.set admin .admin
    currentVersion := some (.lit 1)
    migratedVersion := some (.lit 1) }

def setGovernance (env : Env Address) (s : Storage Address) (caller governance : Address) :
    Outcome (Storage Address) := do
  env.requireAuth caller
  let admin ← unwrap s.admin
  assert (caller = admin) "Only admin can set governance"
  pure { s with governance := some governance }

/-! ## Upgrade, rollback, migrate -/

def getVersion (s : Storage Address) : U32 := s.currentVersion.getD (.lit 1)

/-- The upgrade by governance. -/
def upgrade (env : Env Address) (host : Host) (s : Storage Address) (newWasmHash : Bytes32) :
    Outcome (Storage Address) := do
  let governance ← expect s.governance "Governance not set"
  env.requireAuth governance
  -- Update WASM history for rollbacks
  let history := s.wasmHistory.getD []
  let s := { s with wasmHistory := some (history ++ [s.currentWasm]) }
  -- Update version
  let version ← (s.currentVersion.getD (.lit 1)).add (.lit 1)
  let s := { s with currentVersion := some version }
  s.updateCurrentContractWasm host newWasmHash

def rollback (env : Env Address) (host : Host) (s : Storage Address) :
    Outcome (Storage Address) := do
  let governance ← expect s.governance "Governance not set"
  env.requireAuth governance
  let history ← expect s.wasmHistory "No history"
  assert (0 < history.length) "Nothing to rollback to"
  let prevWasm ← unwrap history.getLast?
  let s := { s with wasmHistory := some history.dropLast }
  -- The version goes up on a rollback too.
  let version ← (s.currentVersion.getD (.lit 1)).add (.lit 1)
  let s := { s with currentVersion := some version }
  s.updateCurrentContractWasm host prevWasm

def migrate (env : Env Address) (s : Storage Address) (admin : Address) :
    Outcome (Storage Address) := do
  env.requireAuth admin
  let storedAdmin ← unwrap s.admin
  assert (admin = storedAdmin) "Only admin can migrate"
  let currentVersion := s.currentVersion.getD (.lit 1)
  let migratedVersion := s.migratedVersion.getD 0
  assert (migratedVersion < currentVersion) "Already migrated to this version"
  pure { s with migratedVersion := some currentVersion }

/-! ## Roles -/

def assignRole (env : Env Address) (s : Storage Address) (caller target : Address) (role : Role) :
    Outcome (Storage Address) := do
  env.requireAuth caller
  let admin ← unwrap s.admin
  assert (caller = admin) "Only admin can assign roles"
  let s := { s with role := s.role.set target role }
  pure (s.publish [.symbol "rbac", .symbol "role_asgn"] [.address target, .variant role.name])

def hasRole (s : Storage Address) (addr : Address) (role : Role) : Bool :=
  match s.role.get addr, role with
  | some .admin, .admin => true
  | some .instructor, .instructor => true
  | some .student, .student => true
  | _, _ => false

def hasPermission (s : Storage Address) (addr : Address) (permission : Permission) : Bool :=
  match s.role.get addr with
  | some role => roleHasPermission role permission
  | none => false

/-- The upgrade by the admin. -/
def upgradeAdmin (env : Env Address) (host : Host) (s : Storage Address) (admin : Address)
    (newWasmHash : Bytes32) : Outcome (Storage Address) := do
  env.requireAuth admin
  let storedAdmin ← unwrap s.admin
  assert (admin = storedAdmin) "Only admin can upgrade"
  let s := s.publish [.symbol "shared", .symbol "upgraded"] [.bytes newWasmHash.toList]
  s.updateCurrentContractWasm host newWasmHash

/-! ## Cross-contract communication -/

def authorizeCaller (env : Env Address) (s : Storage Address)
    (admin targetContract caller : Address) : Outcome (Storage Address) := do
  env.requireAuth admin
  let storedAdmin ← unwrap s.admin
  assert (admin = storedAdmin) "Only admin can authorize"
  let callers := (s.authorizedCallers.get targetContract).getD []
  let s := if caller ∈ callers then s else
    { s with authorizedCallers := s.authorizedCallers.set targetContract (callers ++ [caller]) }
  pure (s.publish [.symbol "shared", .symbol "auth_call"]
    [.address targetContract, .address caller])

def isCallerAuthorized (s : Storage Address) (targetContract caller : Address) : Bool :=
  match s.authorizedCallers.get targetContract with
  | some callers => caller ∈ callers
  | none => false

/-- The call id and the storage afterwards. -/
def callContract (env : Env Address) (s : Storage Address) (caller targetContract : Address)
    (method : String) : Outcome (U64 × Storage Address) := do
  env.requireAuth caller
  assert (isCallerAuthorized s targetContract caller = true) "Caller not authorized"
  let id := s.nextCallId.getD (.lit 1)
  let callRecord : CrossContractCallRecord Address :=
    { id, caller, targetContract, method, status := "pending", createdAt := env.timestamp,
      executedAt := 0 }
  let s := { s with crossContractCall := s.crossContractCall.set id callRecord }
  let nextId ← id.add (.lit 1)
  let s := { s with nextCallId := some nextId }
  pure (id, s.publish [.symbol "shared", .symbol "call_init"]
    [.u64 id, .address targetContract, .symbol method])

def getCallRecord (s : Storage Address) (callId : U64) :
    Option (CrossContractCallRecord Address) :=
  s.crossContractCall.get callId

def relayEvent (env : Env Address) (s : Storage Address) (caller sourceContract : Address)
    (eventTopic : String) : Outcome (Storage Address) := do
  env.requireAuth caller
  assert (isCallerAuthorized s sourceContract caller = true) "Caller not authorized"
  pure (s.publish [.symbol "shared", .symbol "relay"]
    [.address sourceContract, .symbol eventTopic])

/-! ## Emergency pause -/

def pauseContract (env : Env Address) (s : Storage Address) (admin : Address)
    (autoUnpauseLedgers : U32) : Outcome (Storage Address) := do
  env.requireAuth admin
  let storedAdmin ← unwrap s.admin
  assert (admin = storedAdmin) "Only admin can pause"
  pause env s admin autoUnpauseLedgers

def unpauseContract (env : Env Address) (s : Storage Address) (admin : Address) :
    Outcome (Storage Address) := do
  env.requireAuth admin
  let storedAdmin ← unwrap s.admin
  assert (admin = storedAdmin) "Only admin can unpause"
  unpause env s admin

def isContractPaused (s : Storage Address) : Bool := isPaused s

/-! ## Calls -/

/-- A call of an entry point that can write, with its arguments. -/
inductive Call (Address : Type)
  | initializeContract (admin governance : Address)
  | setGovernance (caller governance : Address)
  | upgrade (newWasmHash : Bytes32)
  | rollback
  | migrate (admin : Address)
  | assignRole (caller target : Address) (role : Role)
  | upgradeAdmin (admin : Address) (newWasmHash : Bytes32)
  | authorizeCaller (admin targetContract caller : Address)
  | callContract (caller targetContract : Address) (method : String)
  | relayEvent (caller sourceContract : Address) (eventTopic : String)
  | pauseContract (admin : Address) (autoUnpauseLedgers : U32)
  | unpauseContract (admin : Address)

/-- A call, the environment it is made in and what the host does for it. -/
structure Input (Address : Type) where
  env : Env Address
  host : Host
  call : Call Address

/-- One call in its environment. The returned value is dropped; the entry
points above have it. -/
def exec (s : Storage Address) (i : Input Address) : Outcome (Storage Address) :=
  match i.call with
  | .initializeContract admin governance => initializeContract i.env s admin governance
  | .setGovernance caller governance => setGovernance i.env s caller governance
  | .upgrade newWasmHash => upgrade i.env i.host s newWasmHash
  | .rollback => rollback i.env i.host s
  | .migrate admin => migrate i.env s admin
  | .assignRole caller target role => assignRole i.env s caller target role
  | .upgradeAdmin admin newWasmHash => upgradeAdmin i.env i.host s admin newWasmHash
  | .authorizeCaller admin targetContract caller =>
    authorizeCaller i.env s admin targetContract caller
  | .callContract caller targetContract method =>
    (callContract i.env s caller targetContract method).map Prod.snd
  | .relayEvent caller sourceContract eventTopic =>
    relayEvent i.env s caller sourceContract eventTopic
  | .pauseContract admin autoUnpauseLedgers => pauseContract i.env s admin autoUnpauseLedgers
  | .unpauseContract admin => unpauseContract i.env s admin

end Scoopdope.Shared

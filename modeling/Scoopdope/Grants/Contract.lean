import Scoopdope.Soroban.Env
import Scoopdope.Soroban.Table

/-!
# Grants: types, storage and entry points

`GrantsContract` of `contracts/grants/src/lib.rs`. Each entry point takes the
environment, the storage and its arguments, in the order of its checks and
writes. How long entries are kept alive (`extend_ttl`) is not modelled.

The contract calls one other contract, the token. What the token answers is
`Peers`, and may be different in every call; the `transfer_from` calls that
returned are kept in `Storage.transfers`.
-/

namespace Scoopdope.Grants

open Soroban

/-! ## Types and storage -/

/-- The values of the symbol `status`. -/
inductive GrantStatus
  | pending
  | approved
  | active
  | completed
  | rejected
deriving DecidableEq

section Types

variable (Address : Type)

structure GrantRecord where
  id : U64
  applicant : Address
  title : String
  description : String
  totalAmount : I128
  status : GrantStatus
  createdAt : U64
  approvedAt : U64
  milestoneCount : U32

structure MilestoneRecord where
  grantId : U64
  milestoneIdx : U32
  description : String
  amount : I128
  released : Bool
  releasedAt : U64

structure ReportRecord where
  grantId : U64
  milestoneIdx : U32
  reportIdx : U32
  content : String
  submittedAt : U64

/-- One call of `transfer_from`: the contract called and its arguments. -/
structure Transfer where
  tokenContract : Address
  spender : Address
  from_ : Address
  to_ : Address
  amount : I128

structure Storage where
  /- Instance storage. -/
  admin : Option Address
  tokenContract : Option Address
  nextGrantId : Option U64
  /- Persistent storage. -/
  grant : Table U64 (GrantRecord Address)
  /-- `GrantMilestone(grant_id, milestone_idx)`. -/
  grantMilestone : Table (U64 × U32) MilestoneRecord
  grantReporting : Table U64 (List ReportRecord)
  applicantGrants : Table Address (List U64)
  /-- The events published so far, newest first. -/
  events : List (Event Address)
  /-- The `transfer_from` calls made so far, newest first. -/
  transfers : List (Transfer Address)

/-- The storage of a contract nobody has called yet. -/
def Storage.fresh : Storage Address where
  admin := none
  tokenContract := none
  nextGrantId := none
  grant := ∅
  grantMilestone := ∅
  grantReporting := ∅
  applicantGrants := ∅
  events := []
  transfers := []

/-- How the token contract answers during one call. -/
structure Peers where
  /-- `approve(owner, spender, amount)` of the contract at the first address. -/
  approve : Address → Address → Address → I128 → Outcome Unit
  /-- `transfer_from`: moves exactly the amount, or fails. -/
  transferFrom : Transfer Address → Outcome Unit

end Types

variable {Address : Type}

/-- `env.events().publish(topics, data)`. -/
def Storage.publish (s : Storage Address) (topics data : List (Val Address)) : Storage Address :=
  { s with events := ⟨topics, data⟩ :: s.events }

variable [DecidableEq Address]

/-! ## Admin -/

/-- `i128::MAX`. -/
def maxAllowance : I128 := .lit 170141183460469231731687303715884105727

def initializeContract (env : Env Address) (peers : Peers Address) (s : Storage Address)
    (admin tokenContract : Address) : Outcome (Storage Address) := do
  assert (s.admin.isSome = false) "Already initialized"
  env.requireAuth admin
  let s := { s with
    admin := some admin
    tokenContract := some tokenContract
    nextGrantId := some (.lit 1) }
  peers.approve tokenContract admin env.currentContractAddress maxAllowance
  pure s

/-! ## Grant application -/

/-- The grant id and the storage afterwards. -/
def applyForGrant (env : Env Address) (s : Storage Address) (applicant : Address)
    (title description : String) (totalAmount : I128) (milestoneCount : U32) :
    Outcome (U64 × Storage Address) := do
  env.requireAuth applicant
  assert (0 < totalAmount) "Amount must be positive"
  assert (0 < milestoneCount) "Must have at least one milestone"
  let id ← unwrap s.nextGrantId
  let grant : GrantRecord Address :=
    { id, applicant, title, description, totalAmount, status := .pending,
      createdAt := env.timestamp, approvedAt := 0, milestoneCount }
  let s := { s with grant := s.grant.set id grant }
  -- Add to applicant's grant list
  let grants := (s.applicantGrants.get applicant).getD []
  let s := { s with applicantGrants := s.applicantGrants.set applicant (grants ++ [id]) }
  let nextId ← id.add (.lit 1)
  let s := { s with nextGrantId := some nextId }
  pure (id, s.publish [.symbol "grants", .symbol "applied"]
    [.u64 id, .address applicant, .i128 totalAmount])

/-! ## Grant approval workflow -/

def approveGrant (env : Env Address) (s : Storage Address) (admin : Address) (grantId : U64) :
    Outcome (Storage Address) := do
  env.requireAuth admin
  let storedAdmin ← unwrap s.admin
  assert (admin = storedAdmin) "Only admin can approve grants"
  let grant ← expect (s.grant.get grantId) "Grant not found"
  assert (grant.status = .pending) "Grant not pending"
  let grant := { grant with status := .approved, approvedAt := env.timestamp }
  let s := { s with grant := s.grant.set grantId grant }
  pure (s.publish [.symbol "grants", .symbol "approved"]
    [.u64 grantId, .address grant.applicant])

def rejectGrant (env : Env Address) (s : Storage Address) (admin : Address) (grantId : U64) :
    Outcome (Storage Address) := do
  env.requireAuth admin
  let storedAdmin ← unwrap s.admin
  assert (admin = storedAdmin) "Only admin can reject grants"
  let grant ← expect (s.grant.get grantId) "Grant not found"
  assert (grant.status = .pending) "Grant not pending"
  let grant := { grant with status := .rejected }
  let s := { s with grant := s.grant.set grantId grant }
  pure (s.publish [.symbol "grants", .symbol "rejected"]
    [.u64 grantId, .address grant.applicant])

/-! ## Milestone-based fund release -/

def setMilestone (env : Env Address) (s : Storage Address) (admin : Address) (grantId : U64)
    (milestoneIdx : U32) (description : String) (amount : I128) : Outcome (Storage Address) := do
  env.requireAuth admin
  let storedAdmin ← unwrap s.admin
  assert (admin = storedAdmin) "Only admin can set milestones"
  let grant ← expect (s.grant.get grantId) "Grant not found"
  assert (milestoneIdx < grant.milestoneCount) "Invalid milestone index"
  assert (0 < amount) "Amount must be positive"
  let milestone : MilestoneRecord :=
    { grantId, milestoneIdx, description, amount, released := false, releasedAt := 0 }
  let s := { s with grantMilestone := s.grantMilestone.set (grantId, milestoneIdx) milestone }
  pure (s.publish [.symbol "grants", .symbol "milestone"]
    [.u64 grantId, .u32 milestoneIdx, .i128 amount])

/-- The loop over the milestones, up to the first one that is not released. -/
def allReleased (s : Storage Address) (grantId : U64) : List U32 → Outcome Bool
  | [] => pure true
  | idx :: rest => do
    let milestone ← expect (s.grantMilestone.get (grantId, idx)) "Milestone not found"
    if milestone.released = false then
      pure false
    else
      allReleased s grantId rest

/-- Marks the milestone released and moves the status of the grant on, the same
statements in `release_milestone_funds` and `submit_report`. -/
def releaseMilestone (env : Env Address) (s : Storage Address) (grant : GrantRecord Address)
    (milestone : MilestoneRecord) (grantId : U64) (milestoneIdx : U32) :
    Outcome (Storage Address) := do
  let milestone := { milestone with released := true, releasedAt := env.timestamp }
  let s := { s with grantMilestone := s.grantMilestone.set (grantId, milestoneIdx) milestone }
  let grant := if grant.status = .approved then { grant with status := .active } else grant
  let all ← allReleased s grantId grant.milestoneCount.upTo
  let grant := if all = true then { grant with status := .completed } else grant
  pure { s with grant := s.grant.set grantId grant }

/-- "Transfer tokens to applicant via approved allowance", likewise shared. -/
def transferToApplicant (env : Env Address) (peers : Peers Address) (s : Storage Address)
    (admin applicant : Address) (amount : I128) : Outcome (Storage Address) := do
  let tokenContract ← unwrap s.tokenContract
  let transfer : Transfer Address :=
    { tokenContract, spender := env.currentContractAddress, from_ := admin, to_ := applicant,
      amount }
  peers.transferFrom transfer
  pure { s with transfers := transfer :: s.transfers }

def releaseMilestoneFunds (env : Env Address) (peers : Peers Address) (s : Storage Address)
    (admin : Address) (grantId : U64) (milestoneIdx : U32) : Outcome (Storage Address) := do
  env.requireAuth admin
  let storedAdmin ← unwrap s.admin
  assert (admin = storedAdmin) "Only admin can release funds"
  let grant ← expect (s.grant.get grantId) "Grant not found"
  assert (grant.status = .approved) "Grant not approved"
  let milestone ← expect (s.grantMilestone.get (grantId, milestoneIdx)) "Milestone not found"
  assert (milestone.released = false) "Milestone already released"
  let s ← releaseMilestone env s grant milestone grantId milestoneIdx
  let s ← transferToApplicant env peers s admin grant.applicant milestone.amount
  pure (s.publish [.symbol "grants", .symbol "released"]
    [.u64 grantId, .u32 milestoneIdx, .i128 milestone.amount])

/-! ## Grant reporting -/

def submitReport (env : Env Address) (peers : Peers Address) (s : Storage Address)
    (applicant : Address) (grantId : U64) (milestoneIdx : U32) (content : String) :
    Outcome (Storage Address) := do
  env.requireAuth applicant
  let grant ← expect (s.grant.get grantId) "Grant not found"
  assert (grant.applicant = applicant) "Only grant applicant can report"
  assert (grant.status = .approved ∨ grant.status = .active) "Grant not approved"
  let milestone ← expect (s.grantMilestone.get (grantId, milestoneIdx)) "Milestone not found"
  assert (milestone.released = false) "Milestone already released"
  let reports := (s.grantReporting.get grantId).getD []
  let report : ReportRecord :=
    { grantId, milestoneIdx, reportIdx := vecLen reports, content,
      submittedAt := env.timestamp }
  let reports := reports ++ [report]
  let s := { s with grantReporting := s.grantReporting.set grantId reports }
  let s ← releaseMilestone env s grant milestone grantId milestoneIdx
  let admin ← unwrap s.admin
  let s ← transferToApplicant env peers s admin grant.applicant milestone.amount
  let s := s.publish [.symbol "grants", .symbol "report"]
    [.u64 grantId, .u32 milestoneIdx, .u32 (vecLen reports)]
  pure (s.publish [.symbol "grants", .symbol "released"]
    [.u64 grantId, .u32 milestoneIdx, .i128 milestone.amount])

/-! ## Reading -/

def getGrant (s : Storage Address) (grantId : U64) : Option (GrantRecord Address) :=
  s.grant.get grantId

def getMilestone (s : Storage Address) (grantId : U64) (milestoneIdx : U32) :
    Option MilestoneRecord :=
  s.grantMilestone.get (grantId, milestoneIdx)

def getApplicantGrants (s : Storage Address) (applicant : Address) : List U64 :=
  (s.applicantGrants.get applicant).getD []

/-! ## Calls -/

/-- A call of an entry point that can write, with its arguments. -/
inductive Call (Address : Type)
  | initializeContract (admin tokenContract : Address)
  | applyForGrant (applicant : Address) (title description : String) (totalAmount : I128)
      (milestoneCount : U32)
  | approveGrant (admin : Address) (grantId : U64)
  | rejectGrant (admin : Address) (grantId : U64)
  | setMilestone (admin : Address) (grantId : U64) (milestoneIdx : U32) (description : String)
      (amount : I128)
  | releaseMilestoneFunds (admin : Address) (grantId : U64) (milestoneIdx : U32)
  | submitReport (applicant : Address) (grantId : U64) (milestoneIdx : U32) (content : String)

/-- A call, the environment it is made in and the answers it gets. -/
structure Input (Address : Type) where
  env : Env Address
  peers : Peers Address
  call : Call Address

/-- One call in its environment. The returned value is dropped; the entry
points above have it. -/
def exec (s : Storage Address) (i : Input Address) : Outcome (Storage Address) :=
  match i.call with
  | .initializeContract admin tokenContract =>
    initializeContract i.env i.peers s admin tokenContract
  | .applyForGrant applicant title description totalAmount milestoneCount =>
    (applyForGrant i.env s applicant title description totalAmount milestoneCount).map Prod.snd
  | .approveGrant admin grantId => approveGrant i.env s admin grantId
  | .rejectGrant admin grantId => rejectGrant i.env s admin grantId
  | .setMilestone admin grantId milestoneIdx description amount =>
    setMilestone i.env s admin grantId milestoneIdx description amount
  | .releaseMilestoneFunds admin grantId milestoneIdx =>
    releaseMilestoneFunds i.env i.peers s admin grantId milestoneIdx
  | .submitReport applicant grantId milestoneIdx content =>
    submitReport i.env i.peers s applicant grantId milestoneIdx content

end Scoopdope.Grants

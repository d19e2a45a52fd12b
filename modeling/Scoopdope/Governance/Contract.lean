import Scoopdope.Soroban.Env
import Scoopdope.Soroban.Table

/-!
# Governance: types, storage and entry points

`GovernanceContract` of `contracts/governance/src/lib.rs`. Each entry point
takes the environment, the storage and its arguments, in the order of its checks
and writes. The free functions of `voting.rs` are no entry points and nothing
calls them.

Two entry points call other contracts. What those contracts answer is `Peers`,
and may be different in every call; the host lets no contract be called again
while it is waiting for an answer, so a peer cannot change this storage.
-/

namespace Scoopdope.Governance

open Soroban

/-! ## Types and storage -/

section Types

variable (Address : Type)

structure ProposalRecord where
  id : U64
  proposer : Address
  title : String
  description : String
  votingEndLedger : U32
  votesFor : I128
  votesAgainst : I128
  executed : Bool
  createdAt : U64

structure UpgradeProposalRecord where
  id : U64
  proposer : Address
  contractAddress : Address
  newWasmHash : Bytes32
  votingEndLedger : U32
  votesFor : I128
  votesAgainst : I128
  approved : Bool
  executed : Bool
  timelockLedger : U32
  createdAt : U64

structure Storage where
  /- Instance storage. -/
  admin : Option Address
  tokenContract : Option Address
  nextProposalId : Option U64
  timelockLedgers : Option U32
  /- Persistent storage. -/
  proposal : Table U64 (ProposalRecord Address)
  /-- `Vote(proposal_id, voter)`: the support. -/
  vote : Table (U64 × Address) Bool
  upgradeProposal : Table U64 (UpgradeProposalRecord Address)
  timelockExpiry : Table U64 U32
  /-- The events published so far, newest first. -/
  events : List (Event Address)
  /-- The `upgrade` calls made so far, newest first: the target and the hash. -/
  upgradeCalls : List (Address × Bytes32)

/-- The storage of a contract nobody has called yet. -/
def Storage.fresh : Storage Address where
  admin := none
  tokenContract := none
  nextProposalId := none
  timelockLedgers := none
  proposal := ∅
  vote := ∅
  upgradeProposal := ∅
  timelockExpiry := ∅
  events := []
  upgradeCalls := []

/-- How other contracts answer during one call. -/
structure Peers where
  /-- `balance(addr)` of the contract at the first address. -/
  balance : Address → Address → Outcome I128
  /-- `upgrade(new_wasm_hash)` of the contract at the address. -/
  upgrade : Address → Bytes32 → Outcome Unit

end Types

variable {Address : Type}

/-- `env.events().publish(topics, data)`. -/
def Storage.publish (s : Storage Address) (topics data : List (Val Address)) : Storage Address :=
  { s with events := ⟨topics, data⟩ :: s.events }

/-! ## Admin -/

variable [DecidableEq Address]

def initializeContract (env : Env Address) (s : Storage Address) (admin tokenContract : Address)
    (timelockLedgers : U32) : Outcome (Storage Address) := do
  assert (s.admin.isSome = false) "Already initialized"
  assert (0 < timelockLedgers) "Timelock must be greater than 0"
  env.requireAuth admin
  pure { s with
    admin := some admin
    tokenContract := some tokenContract
    timelockLedgers := some timelockLedgers
    nextProposalId := some (.lit 1) }

def getTimelockLedgers (s : Storage Address) : U32 := s.timelockLedgers.getD 0

/-! ## Proposals -/

/-- The proposal id and the storage afterwards. -/
def createProposal (env : Env Address) (s : Storage Address) (proposer : Address)
    (title description : String) (votingEndLedger : U32) : Outcome (U64 × Storage Address) := do
  env.requireAuth proposer
  assert (env.sequence < votingEndLedger) "Voting end must be in future"
  let id ← unwrap s.nextProposalId
  let proposal : ProposalRecord Address :=
    { id, proposer, title, description, votingEndLedger, votesFor := 0, votesAgainst := 0,
      executed := false, createdAt := env.timestamp }
  let nextId ← id.add (.lit 1)
  let s := { s with proposal := s.proposal.set id proposal, nextProposalId := some nextId }
  pure (id, s.publish [.symbol "prop_new", .symbol "id"] [.u64 id])

/-! ## Voting -/

/-- The part that `vote` and `vote_upgrade` share: the voter has not voted on this
id, has voting power, and the support is recorded. The voting power is the
balance the token contract answers. -/
def recordVote (peers : Peers Address) (s : Storage Address) (id : U64) (voter : Address)
    (support : Bool) : Outcome (I128 × Storage Address) := do
  assert (s.vote.has (id, voter) = false) "Already voted"
  let tokenContract ← unwrap s.tokenContract
  let balance ← peers.balance tokenContract voter
  assert (0 < balance) "No voting power"
  pure (balance, { s with vote := s.vote.set (id, voter) support })

/-- "Update proposal vote counts". -/
def addVote (support : Bool) (votesFor votesAgainst balance : I128) : Outcome (I128 × I128) :=
  if support = true then do
    let votesFor ← votesFor.add balance
    pure (votesFor, votesAgainst)
  else do
    let votesAgainst ← votesAgainst.add balance
    pure (votesFor, votesAgainst)

def vote (env : Env Address) (peers : Peers Address) (s : Storage Address) (voter : Address)
    (proposalId : U64) (support : Bool) : Outcome (Storage Address) := do
  env.requireAuth voter
  let proposal ← expect (s.proposal.get proposalId) "Proposal not found"
  assert (env.sequence < proposal.votingEndLedger) "Voting period ended"
  assert (proposal.executed = false) "Proposal already executed"
  let (balance, s) ← recordVote peers s proposalId voter support
  let (votesFor, votesAgainst) ←
    addVote support proposal.votesFor proposal.votesAgainst balance
  let s := { s with
    proposal := s.proposal.set proposalId { proposal with votesFor, votesAgainst } }
  pure (s.publish [.symbol "vote", .symbol "voter"] [.u64 proposalId, .bool support])

/-! ## Execution -/

def executeProposal (env : Env Address) (s : Storage Address) (proposalId : U64) :
    Outcome (Storage Address) := do
  let proposal ← expect (s.proposal.get proposalId) "Proposal not found"
  assert (proposal.votingEndLedger ≤ env.sequence) "Voting still ongoing"
  assert (proposal.executed = false) "Already executed"
  assert (proposal.votesAgainst < proposal.votesFor) "Proposal did not pass"
  let s := { s with proposal := s.proposal.set proposalId { proposal with executed := true } }
  pure (s.publish [.symbol "exec", .symbol "id"] [.u64 proposalId])

/-! ## Upgrades -/

/-- The upgrade id and the storage afterwards. -/
def proposeUpgrade (env : Env Address) (s : Storage Address) (proposer contractAddress : Address)
    (newWasmHash : Bytes32) (votingEndLedger timelockLedger : U32) :
    Outcome (U64 × Storage Address) := do
  env.requireAuth proposer
  assert (env.sequence < votingEndLedger) "Voting end must be in future"
  assert (votingEndLedger < timelockLedger) "Timelock must be after voting"
  let id ← unwrap s.nextProposalId
  let upgrade : UpgradeProposalRecord Address :=
    { id, proposer, contractAddress, newWasmHash, votingEndLedger, votesFor := 0,
      votesAgainst := 0, approved := false, executed := false, timelockLedger,
      createdAt := env.timestamp }
  let nextId ← id.add (.lit 1)
  let s := { s with
    upgradeProposal := s.upgradeProposal.set id upgrade
    nextProposalId := some nextId }
  pure (id, s.publish [.symbol "upg_prop", .symbol "id"]
    [.u64 id, .address contractAddress, .bytes newWasmHash.toList])

def voteUpgrade (env : Env Address) (peers : Peers Address) (s : Storage Address)
    (voter : Address) (upgradeId : U64) (support : Bool) : Outcome (Storage Address) := do
  env.requireAuth voter
  let upgrade ← expect (s.upgradeProposal.get upgradeId) "Upgrade proposal not found"
  assert (env.sequence < upgrade.votingEndLedger) "Voting period ended"
  assert (upgrade.executed = false) "Upgrade already executed"
  let (balance, s) ← recordVote peers s upgradeId voter support
  let (votesFor, votesAgainst) ← addVote support upgrade.votesFor upgrade.votesAgainst balance
  let s := { s with
    upgradeProposal := s.upgradeProposal.set upgradeId { upgrade with votesFor, votesAgainst } }
  pure (s.publish [.symbol "vote", .symbol "upg"] [.u64 upgradeId, .bool support])

def approveUpgrade (env : Env Address) (s : Storage Address) (upgradeId : U64) :
    Outcome (Storage Address) := do
  let upgrade ← expect (s.upgradeProposal.get upgradeId) "Upgrade proposal not found"
  assert (upgrade.votingEndLedger ≤ env.sequence) "Voting still ongoing"
  assert (upgrade.executed = false) "Already executed"
  assert (upgrade.votesAgainst < upgrade.votesFor) "Upgrade did not pass"
  let s := { s with
    upgradeProposal := s.upgradeProposal.set upgradeId { upgrade with approved := true }
    timelockExpiry := s.timelockExpiry.set upgradeId upgrade.timelockLedger }
  pure (s.publish [.symbol "upg_appr", .symbol "id"]
    [.u64 upgradeId, .address upgrade.contractAddress])

def executeUpgrade (env : Env Address) (peers : Peers Address) (s : Storage Address)
    (upgradeId : U64) : Outcome (Storage Address) := do
  let upgrade ← expect (s.upgradeProposal.get upgradeId) "Upgrade proposal not found"
  assert (upgrade.approved = true) "Upgrade not approved"
  assert (upgrade.executed = false) "Already executed"
  let timelockExpiry ← expect (s.timelockExpiry.get upgradeId) "Timelock not found"
  assert (timelockExpiry ≤ env.sequence) "Timelock not expired"
  let s := { s with
    upgradeProposal := s.upgradeProposal.set upgradeId { upgrade with executed := true } }
  -- Execute the upgrade on the target contract
  peers.upgrade upgrade.contractAddress upgrade.newWasmHash
  let s := { s with
    upgradeCalls := (upgrade.contractAddress, upgrade.newWasmHash) :: s.upgradeCalls }
  pure (s.publish [.symbol "upg_exec", .symbol "id"]
    [.u64 upgradeId, .address upgrade.contractAddress])

/-! ## Reading -/

def getUpgradeProposal (s : Storage Address) (upgradeId : U64) :
    Option (UpgradeProposalRecord Address) :=
  s.upgradeProposal.get upgradeId

def getProposal (s : Storage Address) (proposalId : U64) : Option (ProposalRecord Address) :=
  s.proposal.get proposalId

def hasVoted (s : Storage Address) (proposalId : U64) (voter : Address) : Bool :=
  s.vote.has (proposalId, voter)

/-! ## Calls -/

/-- A call of an entry point that can write, with its arguments. -/
inductive Call (Address : Type)
  | initializeContract (admin tokenContract : Address) (timelockLedgers : U32)
  | createProposal (proposer : Address) (title description : String) (votingEndLedger : U32)
  | vote (voter : Address) (proposalId : U64) (support : Bool)
  | executeProposal (proposalId : U64)
  | proposeUpgrade (proposer contractAddress : Address) (newWasmHash : Bytes32)
      (votingEndLedger timelockLedger : U32)
  | voteUpgrade (voter : Address) (upgradeId : U64) (support : Bool)
  | approveUpgrade (upgradeId : U64)
  | executeUpgrade (upgradeId : U64)

/-- A call, the environment it is made in and the answers it gets. -/
structure Input (Address : Type) where
  env : Env Address
  peers : Peers Address
  call : Call Address

/-- One call in its environment. The returned value is dropped; the entry
points above have it. -/
def exec (s : Storage Address) (i : Input Address) : Outcome (Storage Address) :=
  match i.call with
  | .initializeContract admin tokenContract timelockLedgers =>
    initializeContract i.env s admin tokenContract timelockLedgers
  | .createProposal proposer title description votingEndLedger =>
    (createProposal i.env s proposer title description votingEndLedger).map Prod.snd
  | .vote voter proposalId support => vote i.env i.peers s voter proposalId support
  | .executeProposal proposalId => executeProposal i.env s proposalId
  | .proposeUpgrade proposer contractAddress newWasmHash votingEndLedger timelockLedger =>
    (proposeUpgrade i.env s proposer contractAddress newWasmHash votingEndLedger
      timelockLedger).map Prod.snd
  | .voteUpgrade voter upgradeId support => voteUpgrade i.env i.peers s voter upgradeId support
  | .approveUpgrade upgradeId => approveUpgrade i.env s upgradeId
  | .executeUpgrade upgradeId => executeUpgrade i.env i.peers s upgradeId

end Scoopdope.Governance

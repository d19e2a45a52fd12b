import Scoopdope.Governance.Contract

/-!
# Governance: what an accepted call does

One specification for every entry point: from a returned value, the checks that
passed and the storage written.
-/

namespace Scoopdope.Governance

open Soroban

variable {Address : Type} [DecidableEq Address]

/-! ## Internal helpers -/

/-- The voter has not voted on this id, and the token contract answers a positive
balance. -/
structure MayVote (peers : Peers Address) (s : Storage Address) (id : U64) (voter : Address)
    (balance : I128) : Prop where
  fresh : s.vote.get (id, voter) = none
  power : ∃ tokenContract, s.tokenContract = some tokenContract ∧
    peers.balance tokenContract voter = .ok balance
  positive : 0 < balance.val

theorem recordVote_ok {peers : Peers Address} {s s' : Storage Address} {id : U64}
    {voter : Address} {support : Bool} {balance : I128}
    (h : recordVote peers s id voter support = .ok (balance, s')) :
    MayVote peers s id voter balance ∧ s' = { s with vote := s.vote.set (id, voter) support } := by
  simp only [recordVote, bind_eq_ok, assert_eq_ok, unwrap_eq_ok, exists_const, pure_eq_ok,
    Prod.mk.injEq, Table.has_eq_false] at h
  obtain ⟨hfresh, token, htoken, b, hb, hpos, rfl, rfl⟩ := h
  exact ⟨⟨hfresh, ⟨token, htoken, hb⟩, hpos⟩, rfl⟩

theorem addVote_ok {support : Bool} {votesFor votesAgainst balance f a : I128}
    (h : addVote support votesFor votesAgainst balance = .ok (f, a)) :
    f.val = votesFor.val + (if support = true then balance.val else 0) ∧
      a.val = votesAgainst.val + (if support = false then balance.val else 0) := by
  cases support with
  | true =>
    obtain ⟨v, hv, h⟩ := bind_eq_ok.mp h
    cases pure_eq_ok.mp h
    exact ⟨BoundedInt.add_eq_ok.mp hv, (Int.add_zero _).symm⟩
  | false =>
    obtain ⟨v, hv, h⟩ := bind_eq_ok.mp h
    cases pure_eq_ok.mp h
    exact ⟨(Int.add_zero _).symm, BoundedInt.add_eq_ok.mp hv⟩

/-! ## Entry points -/

section EntryPoints

variable {env : Env Address} {peers : Peers Address} {s s' : Storage Address}

theorem initializeContract_ok {admin tokenContract : Address} {timelockLedgers : U32} :
    initializeContract env s admin tokenContract timelockLedgers = .ok s' ↔
      s.admin = none ∧ 0 < timelockLedgers.val ∧ admin ∈ env.auths ∧
        s' = { s with
          admin := some admin
          tokenContract := some tokenContract
          timelockLedgers := some timelockLedgers
          nextProposalId := some (.lit 1) } := by
  simp only [initializeContract, bind_eq_ok, assert_eq_ok, Option.isSome_eq_false_iff,
    Option.isNone_iff_eq_none, Env.requireAuth_eq_ok, exists_const, pure_eq_ok, @eq_comm _ s']
  rfl

theorem createProposal_ok {proposer : Address} {title description : String}
    {votingEndLedger : U32} {id : U64}
    (h : createProposal env s proposer title description votingEndLedger = .ok (id, s')) :
    proposer ∈ env.auths ∧ env.sequence.val < votingEndLedger.val ∧
      s.nextProposalId = some id ∧ ∃ nextId : U64, nextId.val = id.val + 1 ∧
        s' = { s with
          proposal := s.proposal.set id
            { id, proposer, title, description, votingEndLedger, votesFor := 0,
              votesAgainst := 0, executed := false, createdAt := env.timestamp }
          nextProposalId := some nextId }.publish [.symbol "prop_new", .symbol "id"]
          [.u64 id] := by
  simp only [createProposal, bind_eq_ok, assert_eq_ok, unwrap_eq_ok, Env.requireAuth_eq_ok,
    exists_const, BoundedInt.add_eq_ok, BoundedInt.lit_val, pure_eq_ok, Prod.mk.injEq] at h
  obtain ⟨hauth, hend, id', hid, nextId, hnext, rfl, rfl⟩ := h
  exact ⟨hauth, hend, hid, nextId, hnext, rfl⟩

theorem vote_ok {voter : Address} {proposalId : U64} {support : Bool}
    (h : vote env peers s voter proposalId support = .ok s') :
    voter ∈ env.auths ∧ ∃ proposal balance votesFor votesAgainst,
      s.proposal.get proposalId = some proposal ∧
      env.sequence.val < proposal.votingEndLedger.val ∧ proposal.executed = false ∧
      MayVote peers s proposalId voter balance ∧
      addVote support proposal.votesFor proposal.votesAgainst balance =
        .ok (votesFor, votesAgainst) ∧
      s' = { s with
        vote := s.vote.set (proposalId, voter) support
        proposal := s.proposal.set proposalId { proposal with votesFor, votesAgainst } }.publish
        [.symbol "vote", .symbol "voter"] [.u64 proposalId, .bool support] := by
  simp only [vote, bind_eq_ok, assert_eq_ok, expect_eq_ok, Env.requireAuth_eq_ok, exists_const,
    pure_eq_ok, Prod.exists] at h
  obtain ⟨hauth, proposal, hget, hend, hexec, balance, s₁, hrecord, f, a, hadd, rfl⟩ := h
  obtain ⟨hmay, rfl⟩ := recordVote_ok hrecord
  exact ⟨hauth, proposal, balance, f, a, hget, hend, hexec, hmay, hadd, rfl⟩

omit [DecidableEq Address] in
theorem executeProposal_ok {proposalId : U64} (h : executeProposal env s proposalId = .ok s') :
    ∃ proposal, s.proposal.get proposalId = some proposal ∧
      proposal.votingEndLedger.val ≤ env.sequence.val ∧ proposal.executed = false ∧
      proposal.votesAgainst.val < proposal.votesFor.val ∧
      s' = { s with
        proposal := s.proposal.set proposalId { proposal with executed := true } }.publish
        [.symbol "exec", .symbol "id"] [.u64 proposalId] := by
  simp only [executeProposal, bind_eq_ok, assert_eq_ok, expect_eq_ok, exists_const,
    pure_eq_ok] at h
  obtain ⟨proposal, hget, hend, hexec, hpassed, rfl⟩ := h
  exact ⟨proposal, hget, hend, hexec, hpassed, rfl⟩

theorem proposeUpgrade_ok {proposer contractAddress : Address} {newWasmHash : Bytes32}
    {votingEndLedger timelockLedger : U32} {id : U64}
    (h : proposeUpgrade env s proposer contractAddress newWasmHash votingEndLedger timelockLedger =
      .ok (id, s')) :
    proposer ∈ env.auths ∧ env.sequence.val < votingEndLedger.val ∧
      votingEndLedger.val < timelockLedger.val ∧
      s.nextProposalId = some id ∧ ∃ nextId : U64, nextId.val = id.val + 1 ∧
        s' = { s with
          upgradeProposal := s.upgradeProposal.set id
            { id, proposer, contractAddress, newWasmHash, votingEndLedger, votesFor := 0,
              votesAgainst := 0, approved := false, executed := false, timelockLedger,
              createdAt := env.timestamp }
          nextProposalId := some nextId }.publish [.symbol "upg_prop", .symbol "id"]
          [.u64 id, .address contractAddress, .bytes newWasmHash.toList] := by
  simp only [proposeUpgrade, bind_eq_ok, assert_eq_ok, unwrap_eq_ok, Env.requireAuth_eq_ok,
    exists_const, BoundedInt.add_eq_ok, BoundedInt.lit_val, pure_eq_ok, Prod.mk.injEq] at h
  obtain ⟨hauth, hend, hlock, id', hid, nextId, hnext, rfl, rfl⟩ := h
  exact ⟨hauth, hend, hlock, hid, nextId, hnext, rfl⟩

theorem voteUpgrade_ok {voter : Address} {upgradeId : U64} {support : Bool}
    (h : voteUpgrade env peers s voter upgradeId support = .ok s') :
    voter ∈ env.auths ∧ ∃ upgrade balance votesFor votesAgainst,
      s.upgradeProposal.get upgradeId = some upgrade ∧
      env.sequence.val < upgrade.votingEndLedger.val ∧ upgrade.executed = false ∧
      MayVote peers s upgradeId voter balance ∧
      addVote support upgrade.votesFor upgrade.votesAgainst balance =
        .ok (votesFor, votesAgainst) ∧
      s' = { s with
        vote := s.vote.set (upgradeId, voter) support
        upgradeProposal := s.upgradeProposal.set upgradeId
          { upgrade with votesFor, votesAgainst } }.publish
        [.symbol "vote", .symbol "upg"] [.u64 upgradeId, .bool support] := by
  simp only [voteUpgrade, bind_eq_ok, assert_eq_ok, expect_eq_ok, Env.requireAuth_eq_ok,
    exists_const, pure_eq_ok, Prod.exists] at h
  obtain ⟨hauth, upgrade, hget, hend, hexec, balance, s₁, hrecord, f, a, hadd, rfl⟩ := h
  obtain ⟨hmay, rfl⟩ := recordVote_ok hrecord
  exact ⟨hauth, upgrade, balance, f, a, hget, hend, hexec, hmay, hadd, rfl⟩

omit [DecidableEq Address] in
theorem approveUpgrade_ok {upgradeId : U64} (h : approveUpgrade env s upgradeId = .ok s') :
    ∃ upgrade, s.upgradeProposal.get upgradeId = some upgrade ∧
      upgrade.votingEndLedger.val ≤ env.sequence.val ∧ upgrade.executed = false ∧
      upgrade.votesAgainst.val < upgrade.votesFor.val ∧
      s' = { s with
        upgradeProposal := s.upgradeProposal.set upgradeId { upgrade with approved := true }
        timelockExpiry := s.timelockExpiry.set upgradeId upgrade.timelockLedger }.publish
        [.symbol "upg_appr", .symbol "id"] [.u64 upgradeId, .address upgrade.contractAddress] := by
  simp only [approveUpgrade, bind_eq_ok, assert_eq_ok, expect_eq_ok, exists_const,
    pure_eq_ok] at h
  obtain ⟨upgrade, hget, hend, hexec, hpassed, rfl⟩ := h
  exact ⟨upgrade, hget, hend, hexec, hpassed, rfl⟩

omit [DecidableEq Address] in
theorem executeUpgrade_ok {upgradeId : U64} (h : executeUpgrade env peers s upgradeId = .ok s') :
    ∃ upgrade expiry, s.upgradeProposal.get upgradeId = some upgrade ∧
      upgrade.approved = true ∧ upgrade.executed = false ∧
      s.timelockExpiry.get upgradeId = some expiry ∧ expiry.val ≤ env.sequence.val ∧
      s' = { s with
        upgradeProposal := s.upgradeProposal.set upgradeId { upgrade with executed := true }
        upgradeCalls := (upgrade.contractAddress, upgrade.newWasmHash) :: s.upgradeCalls }.publish
        [.symbol "upg_exec", .symbol "id"] [.u64 upgradeId, .address upgrade.contractAddress] := by
  simp only [executeUpgrade, bind_eq_ok, assert_eq_ok, expect_eq_ok, exists_const,
    pure_eq_ok] at h
  obtain ⟨upgrade, hget, happroved, hexec, expiry, hexpiry, hle, _, _, rfl⟩ := h
  exact ⟨upgrade, expiry, hget, happroved, hexec, hexpiry, hle, rfl⟩

end EntryPoints

/-! ## The start of a run -/

/-- The storage after `initialize`, and its configured time-lock. -/
def Initialised (timelockLedgers : U32) (s₀ : Storage Address) : Prop :=
  ∃ env admin tokenContract,
    initializeContract env (Storage.fresh Address) admin tokenContract timelockLedgers = .ok s₀

/-- A governance contract of token contract 9, with a time-lock of 50 ledgers. -/
def exampleGovernance : Storage Nat :=
  { Storage.fresh Nat with
    admin := some 1
    tokenContract := some 9
    timelockLedgers := some (.lit 50)
    nextProposalId := some (.lit 1) }

theorem exampleGovernance_initialised : Initialised (.lit 50) exampleGovernance :=
  ⟨exampleEnv 0 [1], 1, 9, rfl⟩

/-- Holder 2 has 100 tokens, every other holder 40; upgrades succeed. -/
def examplePeers : Peers Nat where
  balance _ holder := if holder = 2 then .ok (.lit 100) else .ok (.lit 40)
  upgrade _ _ := .ok ()

def exampleInput (sequence : U32) (auths : List Nat) (call : Call Nat) : Input Nat :=
  ⟨exampleEnv sequence auths, examplePeers, call⟩

end Scoopdope.Governance

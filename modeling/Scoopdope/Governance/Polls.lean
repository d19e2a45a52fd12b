import Scoopdope.Governance.Steps
import Scoopdope.Voting.Ballots

/-!
# Governance: polls

What the two kinds of proposals have in common: a poll with an end and two
tallies. Both kinds draw their ids from one counter and record their votes under
the same keys.

`Effect` is the whole of what an accepted call can do to the polls, the recorded
votes and the counter: open a poll under the next id, cast one ballot on an open
poll, or nothing (`exec_effect`).
-/

namespace Scoopdope.Governance

open Soroban Voting

variable {Address : Type}

inductive Kind
  | proposal
  | upgrade
deriving DecidableEq

structure Poll where
  votingEnd : U32
  votesFor : I128
  votesAgainst : I128

def ProposalRecord.poll (r : ProposalRecord Address) : Poll :=
  ⟨r.votingEndLedger, r.votesFor, r.votesAgainst⟩

def UpgradeProposalRecord.poll (r : UpgradeProposalRecord Address) : Poll :=
  ⟨r.votingEndLedger, r.votesFor, r.votesAgainst⟩

/-- The poll of a kind under an id. -/
def Storage.poll (s : Storage Address) (kind : Kind) (id : U64) : Option Poll :=
  match kind with
  | .proposal => (s.proposal.get id).map ProposalRecord.poll
  | .upgrade => (s.upgradeProposal.get id).map UpgradeProposalRecord.poll

theorem poll_proposal {s : Storage Address} {id : U64} {r : ProposalRecord Address}
    (h : s.proposal.get id = some r) : s.poll .proposal id = some r.poll := by
  rw [Storage.poll, h, Option.map_some]

theorem poll_upgrade {s : Storage Address} {id : U64} {r : UpgradeProposalRecord Address}
    (h : s.upgradeProposal.get id = some r) : s.poll .upgrade id = some r.poll := by
  rw [Storage.poll, h, Option.map_some]

/-- The polls after a poll `p` of a kind is written under an id. -/
def pollSet (polls : Kind → U64 → Option Poll) (kind : Kind) (id : U64) (p : Poll) :
    Kind → U64 → Option Poll :=
  fun k x => if k = kind ∧ x = id then some p else polls k x

theorem pollSet_self {polls : Kind → U64 → Option Poll} {kind : Kind} {id : U64} {p : Poll} :
    pollSet polls kind id p kind id = some p := by
  rw [pollSet, if_pos ⟨rfl, rfl⟩]

/-- A poll found after a write is the one written, or was there before. -/
theorem pollSet_eq_some {polls : Kind → U64 → Option Poll} {kind k : Kind} {id x : U64}
    {p q : Poll} (h : pollSet polls kind id p k x = some q) :
    (k = kind ∧ x = id ∧ q = p) ∨ (¬ (k = kind ∧ x = id) ∧ polls k x = some q) := by
  unfold pollSet at h
  split at h
  · next hk => exact .inl ⟨hk.1, hk.2, (Option.some.inj h).symm⟩
  · next hk => exact .inr ⟨hk, h⟩

theorem poll_set_proposal {s s' : Storage Address} {id : U64} {r : ProposalRecord Address}
    (hp : s'.proposal = s.proposal.set id r) (hu : s'.upgradeProposal = s.upgradeProposal) :
    s'.poll = pollSet s.poll .proposal id r.poll := by
  funext k x
  cases k with
  | proposal =>
    rw [Storage.poll, hp, Table.get_set]
    by_cases hx : x = id
    · rw [if_pos hx, pollSet, if_pos ⟨rfl, hx⟩, Option.map_some]
    · rw [if_neg hx, pollSet, if_neg fun h => hx h.2, Storage.poll]
  | upgrade =>
    rw [pollSet, if_neg (fun h => nomatch h.1), Storage.poll, Storage.poll, hu]

theorem poll_set_upgrade {s s' : Storage Address} {id : U64} {r : UpgradeProposalRecord Address}
    (hp : s'.proposal = s.proposal) (hu : s'.upgradeProposal = s.upgradeProposal.set id r) :
    s'.poll = pollSet s.poll .upgrade id r.poll := by
  funext k x
  cases k with
  | proposal =>
    rw [pollSet, if_neg (fun h => nomatch h.1), Storage.poll, Storage.poll, hp]
  | upgrade =>
    rw [Storage.poll, hu, Table.get_set]
    by_cases hx : x = id
    · rw [if_pos hx, pollSet, if_pos ⟨rfl, hx⟩, Option.map_some]
    · rw [if_neg hx, pollSet, if_neg fun h => hx h.2, Storage.poll]

/-- Writing a poll that is there changes nothing. -/
theorem pollSet_same {polls : Kind → U64 → Option Poll} {kind : Kind} {id : U64} {p : Poll}
    (h : polls kind id = some p) : pollSet polls kind id p = polls := by
  funext k x
  unfold pollSet
  split
  · next hk => rw [hk.1, hk.2, h]
  · rfl

/-- Nor does writing a record with the same poll. -/
theorem poll_keep_proposal {s s' : Storage Address} {id : U64} {r r' : ProposalRecord Address}
    (hget : s.proposal.get id = some r) (hp : s'.proposal = s.proposal.set id r')
    (hu : s'.upgradeProposal = s.upgradeProposal) (hr : r'.poll = r.poll) :
    s'.poll = s.poll := by
  rw [poll_set_proposal hp hu, hr, pollSet_same (poll_proposal hget)]

theorem poll_keep_upgrade {s s' : Storage Address} {id : U64}
    {r r' : UpgradeProposalRecord Address} (hget : s.upgradeProposal.get id = some r)
    (hp : s'.proposal = s.proposal) (hu : s'.upgradeProposal = s.upgradeProposal.set id r')
    (hr : r'.poll = r.poll) : s'.poll = s.poll := by
  rw [poll_set_upgrade hp hu, hr, pollSet_same (poll_upgrade hget)]

variable [DecidableEq Address]

/-- The ballot that a call casts, if it is accepted. -/
def ballotOf (s : Storage Address) (i : Input Address) : Option (Ballot U64 Address) :=
  match i.call with
  | .vote voter id support | .voteUpgrade voter id support =>
    match s.tokenContract with
    | none => none
    | some tokenContract =>
      match i.peers.balance tokenContract voter with
      | .error _ => none
      | .ok balance => some ⟨id, voter, support, balance.val⟩
  | _ => none

/-- What an accepted call does to the polls, the recorded votes and the counter. -/
inductive Effect (s : Storage Address) (i : Input Address) (s' : Storage Address) : Prop
  | opens (kind : Kind) (id nextId : U64) (p : Poll) (next : s.nextProposalId = some id)
      (succ : nextId.val = id.val + 1) (next' : s'.nextProposalId = some nextId)
      (votesFor : p.votesFor.val = 0) (votesAgainst : p.votesAgainst.val = 0)
      (poll : s'.poll = pollSet s.poll kind id p) (vote : s'.vote = s.vote)
      (ballot : ballotOf s i = none)
  | casts (kind : Kind) (id : U64) (voter : Address) (support : Bool) (balance : I128)
      (p q : Poll) (may : MayVote i.peers s id voter balance)
      (ballot : ballotOf s i = some ⟨id, voter, support, balance.val⟩)
      (found : s.poll kind id = some p) (open_ : i.env.sequence.val < p.votingEnd.val)
      (votingEnd : q.votingEnd = p.votingEnd)
      (votesFor : q.votesFor.val = p.votesFor.val + if support = true then balance.val else 0)
      (votesAgainst : q.votesAgainst.val =
        p.votesAgainst.val + if support = false then balance.val else 0)
      (poll : s'.poll = pollSet s.poll kind id q)
      (vote : s'.vote = s.vote.set (id, voter) support)
      (next : s'.nextProposalId = s.nextProposalId)
  | idle (poll : s'.poll = s.poll) (vote : s'.vote = s.vote)
      (next : s'.nextProposalId = s.nextProposalId) (ballot : ballotOf s i = none)

theorem ballotOf_eq {s : Storage Address} {i : Input Address} {id : U64} {voter : Address}
    {support : Bool} {balance : I128} (hmay : MayVote i.peers s id voter balance)
    (hcall : i.call = .vote voter id support ∨ i.call = .voteUpgrade voter id support) :
    ballotOf s i = some ⟨id, voter, support, balance.val⟩ := by
  obtain ⟨tokenContract, htoken, hbalance⟩ := hmay.power
  rcases hcall with h | h
  · simp only [ballotOf, h, htoken, hbalance]
  · simp only [ballotOf, h, htoken, hbalance]

/-- Every accepted call of an initialised contract has one of these effects. -/
theorem exec_effect {s s' : Storage Address} {i : Input Address} {admin : Address}
    (ha : s.admin = some admin) (h : exec s i = .ok s') : Effect s i s' := by
  obtain ⟨env, peers, call⟩ := i
  cases call with
  | initializeContract admin' tokenContract timelockLedgers =>
    obtain ⟨hnone, _⟩ := initializeContract_ok.mp h
    rw [ha] at hnone
    cases hnone
  | createProposal proposer title description votingEndLedger =>
    obtain ⟨id, h⟩ := map_snd_eq_ok.mp h
    obtain ⟨_, _, hid, nextId, hnext, rfl⟩ := createProposal_ok h
    exact .opens .proposal id nextId _ hid hnext rfl rfl rfl (poll_set_proposal rfl rfl) rfl rfl
  | proposeUpgrade proposer contractAddress newWasmHash votingEndLedger timelockLedger =>
    obtain ⟨id, h⟩ := map_snd_eq_ok.mp h
    obtain ⟨_, _, _, hid, nextId, hnext, rfl⟩ := proposeUpgrade_ok h
    exact .opens .upgrade id nextId _ hid hnext rfl rfl rfl (poll_set_upgrade rfl rfl) rfl rfl
  | vote voter id support =>
    obtain ⟨_, r, balance, f, a, hget, hend, _, hmay, hadd, rfl⟩ := vote_ok h
    obtain ⟨hf, hag⟩ := addVote_ok hadd
    let r' : ProposalRecord Address := { r with votesFor := f, votesAgainst := a }
    exact .casts .proposal id voter support balance r.poll r'.poll hmay
      (ballotOf_eq hmay (.inl rfl)) (poll_proposal hget) hend rfl hf hag
      (poll_set_proposal rfl rfl) rfl rfl
  | voteUpgrade voter id support =>
    obtain ⟨_, r, balance, f, a, hget, hend, _, hmay, hadd, rfl⟩ := voteUpgrade_ok h
    obtain ⟨hf, hag⟩ := addVote_ok hadd
    let r' : UpgradeProposalRecord Address := { r with votesFor := f, votesAgainst := a }
    exact .casts .upgrade id voter support balance r.poll r'.poll hmay
      (ballotOf_eq hmay (.inr rfl)) (poll_upgrade hget) hend rfl hf hag
      (poll_set_upgrade rfl rfl) rfl rfl
  | executeProposal id =>
    obtain ⟨r, hget, _, _, _, rfl⟩ := executeProposal_ok h
    exact .idle (poll_keep_proposal hget rfl rfl rfl) rfl rfl rfl
  | approveUpgrade id =>
    obtain ⟨r, hget, _, _, _, rfl⟩ := approveUpgrade_ok h
    exact .idle (poll_keep_upgrade hget rfl rfl rfl) rfl rfl rfl
  | executeUpgrade id =>
    obtain ⟨r, expiry, hget, _, _, _, _, rfl⟩ := executeUpgrade_ok h
    exact .idle (poll_keep_upgrade hget rfl rfl rfl) rfl rfl rfl

theorem exec_admin {s s' : Storage Address} {i : Input Address} {admin : Address}
    (ha : s.admin = some admin) (h : exec s i = .ok s') :
    s'.admin = some admin ∧ s'.tokenContract = s.tokenContract ∧
      s'.timelockLedgers = s.timelockLedgers := by
  obtain ⟨env, peers, call⟩ := i
  cases call with
  | initializeContract admin' tokenContract timelockLedgers =>
    obtain ⟨hnone, _⟩ := initializeContract_ok.mp h
    rw [ha] at hnone
    cases hnone
  | createProposal proposer title description votingEndLedger =>
    obtain ⟨id, h⟩ := map_snd_eq_ok.mp h
    obtain ⟨_, _, _, nextId, _, rfl⟩ := createProposal_ok h
    exact ⟨ha, rfl, rfl⟩
  | proposeUpgrade proposer contractAddress newWasmHash votingEndLedger timelockLedger =>
    obtain ⟨id, h⟩ := map_snd_eq_ok.mp h
    obtain ⟨_, _, _, _, nextId, _, rfl⟩ := proposeUpgrade_ok h
    exact ⟨ha, rfl, rfl⟩
  | vote voter id support =>
    obtain ⟨_, r, balance, f, a, _, _, _, _, _, rfl⟩ := vote_ok h
    exact ⟨ha, rfl, rfl⟩
  | voteUpgrade voter id support =>
    obtain ⟨_, r, balance, f, a, _, _, _, _, _, rfl⟩ := voteUpgrade_ok h
    exact ⟨ha, rfl, rfl⟩
  | executeProposal id =>
    obtain ⟨r, _, _, _, _, rfl⟩ := executeProposal_ok h
    exact ⟨ha, rfl, rfl⟩
  | approveUpgrade id =>
    obtain ⟨r, _, _, _, _, rfl⟩ := approveUpgrade_ok h
    exact ⟨ha, rfl, rfl⟩
  | executeUpgrade id =>
    obtain ⟨r, expiry, _, _, _, _, _, rfl⟩ := executeUpgrade_ok h
    exact ⟨ha, rfl, rfl⟩

end Scoopdope.Governance

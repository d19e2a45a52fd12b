import Scoopdope.Soroban.Env
import Scoopdope.Soroban.History
import Scoopdope.Soroban.Table
import Scoopdope.Voting.Ballots

/-!
# Weighted voting

The functions of `contracts/governance/src/voting.rs`: proposals with a quorum, votes whose weight
the caller names, delegations, and an execution that reports whether the proposal passed. No entry
point of `lib.rs` calls them. The keys `Proposal`, `Vote` and `NextProposalId` are named as in the
contract's own `DataKey`, with records of another shape under the first; the storage here is that
of these functions alone.

`Polled` ties the proposals and the recorded votes to the ballots of a run. Over nondecreasing
ledgers a proposal is closed once its end has come, so an execution is final
(`execution_final`). Delegations are stored and never read: a run and the run without its
delegations agree on everything else (`delegations_ignored`).
-/

namespace Scoopdope.Governance.WeightedVoting

open Soroban Voting

structure VotingProposal where
  id : U64
  title : String
  description : String
  votingStartLedger : U32
  votingEndLedger : U32
  votesFor : I128
  votesAgainst : I128
  totalVotes : I128
  quorumRequired : I128
  executed : Bool

/-- The instance storage under `GovernanceKey`. No function of the module writes
`totalSupply` or `quorumPercentage`. -/
structure Storage (Address : Type) where
  proposal : Table U64 VotingProposal
  vote : Table (U64 × Address) Bool
  delegate : Table Address Address
  nextProposalId : Option U64
  totalSupply : Option I128
  quorumPercentage : Option I128
  /-- The events published so far, newest first. -/
  events : List (Event Address)

def Storage.fresh (Address : Type) : Storage Address where
  proposal := ∅
  vote := ∅
  delegate := ∅
  nextProposalId := none
  totalSupply := none
  quorumPercentage := none
  events := []

variable {Address : Type}

/-- `env.events().publish(topics, data)`. -/
def Storage.publish (s : Storage Address) (topics data : List (Val Address)) : Storage Address :=
  { s with events := ⟨topics, data⟩ :: s.events }

def getProposal (s : Storage Address) (proposalId : U64) : Option VotingProposal :=
  s.proposal.get proposalId

/-- The id that `create_proposal` gives out. -/
def freeId (s : Storage Address) : U64 := s.nextProposalId.getD (.lit 1)

/-- The quorum of a new proposal. -/
def quorum (s : Storage Address) : Outcome I128 := do
  let totalSupply := s.totalSupply.getD (.lit 1000000000000000)
  let quorumPercentage := s.quorumPercentage.getD (.lit 20)
  totalSupply.mulDiv quorumPercentage (.lit 100)

variable [DecidableEq Address]

def getDelegate (s : Storage Address) (delegator : Address) : Option Address :=
  s.delegate.get delegator

/-- The id of the new proposal and the storage afterwards. -/
def createProposal (env : Env Address) (s : Storage Address) (proposer : Address)
    (title description : String) (votingEndLedger : U32) : Outcome (U64 × Storage Address) := do
  env.requireAuth proposer
  let quorumRequired ← quorum s
  let id := freeId s
  let proposal : VotingProposal :=
    { id, title, description, votingStartLedger := env.sequence, votingEndLedger,
      votesFor := 0, votesAgainst := 0, totalVotes := 0, quorumRequired, executed := false }
  let s := { s with proposal := s.proposal.set id proposal }
  let next ← id.add (.lit 1)
  let s := { s with nextProposalId := some next }
  pure (id, s.publish [.symbol "gov_prop"] [.u64 id, .address proposer, .i128 quorumRequired])

/-- The proposal with the weight on one side and in the total. -/
def VotingProposal.addWeight (proposal : VotingProposal) (support : Bool) (weight : I128) :
    Outcome VotingProposal := do
  let proposal ← (if support then do
      let votesFor ← proposal.votesFor.add weight
      pure { proposal with votesFor }
    else do
      let votesAgainst ← proposal.votesAgainst.add weight
      pure { proposal with votesAgainst })
  let totalVotes ← proposal.totalVotes.add weight
  pure { proposal with totalVotes }

def castVote (env : Env Address) (s : Storage Address) (proposalId : U64) (voter : Address)
    (support : Bool) (weight : I128) : Outcome (Storage Address) := do
  env.requireAuth voter
  let proposal ← expect (s.proposal.get proposalId) "Proposal not found"
  assert (env.sequence < proposal.votingEndLedger) "Voting period ended"
  assert ((s.vote.get (proposalId, voter)).isNone = true) "Already voted"
  let proposal ← proposal.addWeight support weight
  let s := { s with vote := s.vote.set (proposalId, voter) support }
  let s := { s with proposal := s.proposal.set proposalId proposal }
  pure (s.publish [.symbol "gov_vote"]
    [.u64 proposalId, .address voter, .bool support, .i128 weight])

def delegateVote (env : Env Address) (s : Storage Address) (delegator delegate : Address) :
    Outcome (Storage Address) := do
  env.requireAuth delegator
  let s := { s with delegate := s.delegate.set delegator delegate }
  pure (s.publish [.symbol "gov_del"] [.address delegator, .address delegate])

/-- Whether the proposal passed, and the storage afterwards. -/
def executeProposal (env : Env Address) (s : Storage Address) (proposalId : U64) :
    Outcome (Bool × Storage Address) := do
  let proposal ← expect (s.proposal.get proposalId) "Proposal not found"
  assert (proposal.executed = false) "Already executed"
  assert (proposal.votingEndLedger ≤ env.sequence) "Voting still ongoing"
  if proposal.quorumRequired ≤ proposal.totalVotes ∧ proposal.votesAgainst < proposal.votesFor then
    let s := { s with proposal := s.proposal.set proposalId { proposal with executed := true } }
    pure (true, s.publish [.symbol "gov_exec"] [.u64 proposalId, .bool true])
  else
    pure (false, s.publish [.symbol "gov_exec"] [.u64 proposalId, .bool false])

/-- A call of a function that can write, with its arguments. -/
inductive Call (Address : Type)
  | createProposal (proposer : Address) (title description : String) (votingEndLedger : U32)
  | castVote (proposalId : U64) (voter : Address) (support : Bool) (weight : I128)
  | delegateVote (delegator delegate : Address)
  | executeProposal (proposalId : U64)

/-- One call in its environment. The returned value is dropped; the functions above have it. -/
def exec (s : Storage Address) (i : Env Address × Call Address) : Outcome (Storage Address) :=
  match i.2 with
  | .createProposal proposer title description votingEndLedger =>
    (createProposal i.1 s proposer title description votingEndLedger).map Prod.snd
  | .castVote proposalId voter support weight => castVote i.1 s proposalId voter support weight
  | .delegateVote delegator delegate => delegateVote i.1 s delegator delegate
  | .executeProposal proposalId => (executeProposal i.1 s proposalId).map Prod.snd

/-! ## What an accepted call does -/

/-- The quorum has voted, and more for than against. -/
def VotingProposal.Passed (p : VotingProposal) : Prop :=
  p.quorumRequired ≤ p.totalVotes ∧ p.votesAgainst < p.votesFor

section Steps

variable {env : Env Address} {s s' : Storage Address}

theorem createProposal_ok {proposer : Address} {title description : String}
    {votingEndLedger : U32} {id : U64} :
    createProposal env s proposer title description votingEndLedger = .ok (id, s') ↔
      ∃ (quorumRequired : I128) (next : U64), proposer ∈ env.auths ∧
        quorum s = .ok quorumRequired ∧ next.val = id.val + 1 ∧ id = freeId s ∧
        s' = Storage.publish { s with
            proposal := s.proposal.set id ⟨id, title, description, env.sequence, votingEndLedger,
              0, 0, 0, quorumRequired, false⟩
            nextProposalId := some next }
          [.symbol "gov_prop"] [.u64 id, .address proposer, .i128 quorumRequired] := by
  simp only [createProposal, bind_eq_ok, Env.requireAuth_eq_ok, BoundedInt.add_eq_ok,
    exists_const, pure_eq_ok]
  constructor
  · rintro ⟨hauth, q, hq, next, hnext, heq⟩
    cases heq
    exact ⟨q, next, hauth, hq, hnext, rfl, rfl⟩
  · rintro ⟨q, next, hauth, hq, hnext, rfl, rfl⟩
    exact ⟨hauth, q, hq, next, hnext, rfl⟩

omit [DecidableEq Address] in
theorem VotingProposal.addWeight_ok {p q : VotingProposal} {support : Bool} {weight : I128}
    (h : p.addWeight support weight = .ok q) :
    q = { p with
      votesFor := q.votesFor, votesAgainst := q.votesAgainst, totalVotes := q.totalVotes } ∧
    q.votesFor.val = p.votesFor.val + (if support = true then weight.val else 0) ∧
    q.votesAgainst.val = p.votesAgainst.val + (if support = false then weight.val else 0) ∧
    q.totalVotes.val = p.totalVotes.val + weight.val := by
  cases support with
  | true =>
    simp only [addWeight, if_true, bind_eq_ok, BoundedInt.add_eq_ok, pure_eq_ok] at h
    obtain ⟨r, ⟨f, hf, rfl⟩, t, ht, rfl⟩ := h
    exact ⟨rfl, hf, (Int.add_zero _).symm, ht⟩
  | false =>
    simp only [addWeight, Bool.false_eq_true, if_false, bind_eq_ok, BoundedInt.add_eq_ok,
      pure_eq_ok] at h
    obtain ⟨r, ⟨a, ha, rfl⟩, t, ht, rfl⟩ := h
    exact ⟨rfl, (Int.add_zero _).symm, ha, ht⟩

theorem castVote_ok {proposalId : U64} {voter : Address} {support : Bool} {weight : I128} :
    castVote env s proposalId voter support weight = .ok s' ↔
      ∃ p q : VotingProposal, voter ∈ env.auths ∧ getProposal s proposalId = some p ∧
        env.sequence < p.votingEndLedger ∧ s.vote.get (proposalId, voter) = none ∧
        p.addWeight support weight = .ok q ∧
        s' = Storage.publish { s with
            vote := s.vote.set (proposalId, voter) support
            proposal := s.proposal.set proposalId q }
          [.symbol "gov_vote"]
          [.u64 proposalId, .address voter, .bool support, .i128 weight] := by
  simp only [castVote, bind_eq_ok, Env.requireAuth_eq_ok, expect_eq_ok, assert_eq_ok,
    Option.isNone_iff_eq_none, exists_const, pure_eq_ok]
  constructor
  · rintro ⟨hauth, p, hp, hopen, hnew, q, hq, rfl⟩
    exact ⟨p, q, hauth, hp, hopen, hnew, hq, rfl⟩
  · rintro ⟨p, q, hauth, hp, hopen, hnew, hq, rfl⟩
    exact ⟨hauth, p, hp, hopen, hnew, q, hq, rfl⟩

theorem delegateVote_ok {delegator delegate : Address} :
    delegateVote env s delegator delegate = .ok s' ↔ delegator ∈ env.auths ∧
      s' = Storage.publish { s with delegate := s.delegate.set delegator delegate }
        [.symbol "gov_del"] [.address delegator, .address delegate] := by
  simp only [delegateVote, bind_eq_ok, Env.requireAuth_eq_ok, exists_const, pure_eq_ok,
    @eq_comm _ s']

omit [DecidableEq Address] in
theorem executeProposal_ok {proposalId : U64} {passed : Bool} :
    executeProposal env s proposalId = .ok (passed, s') ↔
      ∃ p, getProposal s proposalId = some p ∧ p.executed = false ∧
        p.votingEndLedger ≤ env.sequence ∧ (passed = true ↔ p.Passed) ∧
        s' = Storage.publish
          (if passed then
            { s with proposal := s.proposal.set proposalId { p with executed := true } } else s)
          [.symbol "gov_exec"] [.u64 proposalId, .bool passed] := by
  simp only [executeProposal, bind_eq_ok, expect_eq_ok, assert_eq_ok, exists_const]
  refine exists_congr fun p => and_congr_right fun _ => and_congr_right fun _ =>
    and_congr_right fun _ => ?_
  split
  · next hpassed =>
    rw [pure_eq_ok]
    constructor
    · intro h
      cases h
      exact ⟨⟨fun _ => hpassed, fun _ => rfl⟩, rfl⟩
    · rintro ⟨hiff, rfl⟩
      rw [hiff.mpr hpassed]
      rfl
  · next hfailed =>
    rw [pure_eq_ok]
    constructor
    · intro h
      cases h
      exact ⟨⟨fun h => absurd h Bool.false_ne_true, fun h => absurd h hfailed⟩, rfl⟩
    · rintro ⟨hiff, rfl⟩
      rw [Bool.eq_false_iff.mpr fun h => hfailed (hiff.mp h)]
      rfl

end Steps

/-! ## Proposals and ballots -/

/-- The ballot that a call casts, if it is accepted. -/
def ballotOf : Call Address → Option (Ballot U64 Address)
  | .castVote id voter support weight => some ⟨id, voter, support, weight.val⟩
  | _ => none

/-- The ballots of a run, newest first. -/
def ballots (past : List (Env Address × Call Address)) : List (Ballot U64 Address) :=
  traced exec (Storage.fresh Address) (fun cast _ i => (ballotOf i.2).toList ++ cast) [] past

/-- What a stored proposal says, given the ballots. -/
structure Counted (p : VotingProposal) (id : U64) (cast : List (Ballot U64 Address)) : Prop where
  id_eq : p.id = id
  votesFor : p.votesFor.val = tally cast id true
  votesAgainst : p.votesAgainst.val = tally cast id false
  totalVotes : p.totalVotes.val = tally cast id true + tally cast id false
  quorum : p.quorumRequired.val = 200000000000000

/-- The storage holds what the ballots say. -/
structure Polled (s : Storage Address) (cast : List (Ballot U64 Address)) : Prop where
  supply : s.totalSupply = none
  percentage : s.quorumPercentage = none
  below : ∀ id p, getProposal s id = some p → id.val < (freeId s).val
  asked : ∀ b ∈ cast, ∃ p, getProposal s b.id = some p
  counted : ∀ id p, getProposal s id = some p → Counted p id cast
  recorded : Recorded s.vote.get cast

theorem Polled.fresh : Polled (Storage.fresh Address) [] := by
  have hnone : ∀ id p, getProposal (Storage.fresh Address) id ≠ some p := fun _ _ =>
    Table.get_empty_ne_some
  refine ⟨rfl, rfl, fun id p hp => absurd hp (hnone id p), nofun,
    fun id p hp => absurd hp (hnone id p), ?_⟩
  have hempty : (Storage.fresh Address).vote.get = fun _ => none := by
    funext k
    exact Table.get_empty k
  rw [hempty]
  exact Recorded.empty

namespace Polled

variable {s s' : Storage Address} {cast : List (Ballot U64 Address)} {env : Env Address}

theorem next_fresh (h : Polled s cast) : getProposal s (freeId s) = none := by
  cases hp : getProposal s (freeId s) with
  | none => rfl
  | some p => exact absurd (h.below _ p hp) (lt_irrefl _)

/-- A call that writes one proposal and no vote, under an id that is in use or the next one. -/
theorem write (h : Polled s cast) {id : U64} {p : VotingProposal}
    (hsupply : s'.totalSupply = s.totalSupply)
    (hpercentage : s'.quorumPercentage = s.quorumPercentage) (hvote : s'.vote = s.vote)
    (hset : s'.proposal = s.proposal.set id p) (hlt : id.val < (freeId s').val)
    (hle : (freeId s).val ≤ (freeId s').val) (hp : Counted p id cast) : Polled s' cast := by
  have hget : ∀ k, getProposal s' k = if k = id then some p else getProposal s k := fun k => by
    rw [getProposal, hset, Table.get_set]
    rfl
  refine ⟨hsupply.trans h.supply, hpercentage.trans h.percentage, fun k q hq => ?_, fun b hb => ?_,
    fun k q hq => ?_, ?_⟩
  · rw [hget] at hq
    split at hq
    · next heq => rw [heq]; exact hlt
    · exact (h.below k q hq).trans_le hle
  · obtain ⟨q, hq⟩ := h.asked b hb
    rw [hget]
    split
    · exact ⟨p, rfl⟩
    · exact ⟨q, hq⟩
  · rw [hget] at hq
    split at hq
    · next heq =>
      cases hq
      rw [heq]
      exact hp
    · exact h.counted k q hq
  · rw [hvote]
    exact h.recorded

theorem createProposal (h : Polled s cast) {proposer : Address} {title description : String}
    {votingEndLedger : U32} {id : U64}
    (he : createProposal env s proposer title description votingEndLedger = .ok (id, s')) :
    Polled s' cast := by
  have hfresh := h.next_fresh
  obtain ⟨q, next, -, hq, hnext, rfl, rfl⟩ := createProposal_ok.mp he
  have hnew : ∀ b ∈ cast, b.id ≠ freeId s := by
    intro b hb heq
    obtain ⟨p, hp⟩ := h.asked b hb
    rw [heq, hfresh] at hp
    cases hp
  have hquorum : q.val = 200000000000000 := by
    rw [quorum, h.supply, h.percentage] at hq
    exact (BoundedInt.mulDiv_ok hq).2
  have hsum := hnext.symm
  refine h.write rfl rfl rfl rfl (show (freeId s).val < next.val by omega)
    (show (freeId s).val ≤ next.val by omega)
    ⟨rfl, ?_, ?_, ?_, hquorum⟩
  · exact (tally_eq_zero hnew true).symm
  · exact (tally_eq_zero hnew false).symm
  · rw [tally_eq_zero hnew, tally_eq_zero hnew]
    rfl

theorem castVote (h : Polled s cast) {id : U64} {voter : Address} {support : Bool}
    {weight : I128} (he : castVote env s id voter support weight = .ok s') :
    Polled s' (⟨id, voter, support, weight.val⟩ :: cast) := by
  obtain ⟨p, q, -, hp, -, hnew, hadd, rfl⟩ := castVote_ok.mp he
  obtain ⟨hq, hfor, hagainst, htotal⟩ := VotingProposal.addWeight_ok hadd
  have hget : ∀ k, (s.proposal.set id q).get k = if k = id then some q else getProposal s k :=
    fun k => Table.get_set s.proposal id k q
  have hold := h.counted id p hp
  refine ⟨h.supply, h.percentage, fun k r hr => ?_, fun b hb => ?_, fun k r hr => ?_,
    h.recorded.cons hnew fun k => Table.get_set s.vote (id, voter) k support⟩
  · replace hr : (s.proposal.set id q).get k = some r := hr
    rw [hget] at hr
    split at hr
    · next heq => rw [heq]; exact h.below id p hp
    · exact h.below k r hr
  · show ∃ r, (s.proposal.set id q).get b.id = some r
    rw [hget]
    rcases List.mem_cons.mp hb with rfl | hb
    · exact ⟨q, if_pos rfl⟩
    · obtain ⟨r, hr⟩ := h.asked b hb
      split
      · exact ⟨q, rfl⟩
      · exact ⟨r, hr⟩
  · replace hr : (s.proposal.set id q).get k = some r := hr
    rw [hget] at hr
    split at hr
    · next heq =>
      cases hr
      subst heq
      refine ⟨?_, ?_, ?_, ?_, ?_⟩
      · rw [hq]
        exact hold.id_eq
      · rw [hfor, hold.votesFor, tally_cons]
        simp
      · rw [hagainst, hold.votesAgainst, tally_cons]
        simp
      · rw [htotal, hold.totalVotes, tally_cons, tally_cons]
        cases support <;> simp <;> omega
      · rw [hq]
        exact hold.quorum
    · next hne =>
      have hother := h.counted k r hr
      have htally : ∀ side, tally (⟨id, voter, support, weight.val⟩ :: cast) k side =
          tally cast k side := fun side => by
        rw [tally_cons, if_neg fun hk => hne hk.1.symm, Int.add_zero]
      exact ⟨hother.id_eq, by rw [htally, hother.votesFor], by rw [htally, hother.votesAgainst],
        by rw [htally, htally, hother.totalVotes], hother.quorum⟩

theorem executeProposal (h : Polled s cast) {id : U64} {passed : Bool}
    (he : executeProposal env s id = .ok (passed, s')) : Polled s' cast := by
  obtain ⟨p, hp, -, -, -, rfl⟩ := executeProposal_ok.mp he
  have hold := h.counted id p hp
  cases passed with
  | true =>
    exact h.write rfl rfl rfl rfl (h.below id p hp) (le_refl _)
      ⟨hold.id_eq, hold.votesFor, hold.votesAgainst, hold.totalVotes, hold.quorum⟩
  | false => exact ⟨h.supply, h.percentage, h.below, h.asked, h.counted, h.recorded⟩

theorem step (h : Polled s cast) {i : Env Address × Call Address} (he : exec s i = .ok s') :
    Polled s' ((ballotOf i.2).toList ++ cast) := by
  obtain ⟨env, call⟩ := i
  cases call with
  | createProposal proposer title description votingEndLedger =>
    obtain ⟨id, hc⟩ := map_snd_eq_ok.mp he
    exact h.createProposal hc
  | castVote id voter support weight => exact h.castVote he
  | delegateVote delegator delegate =>
    obtain ⟨-, rfl⟩ := delegateVote_ok.mp he
    exact ⟨h.supply, h.percentage, h.below, h.asked, h.counted, h.recorded⟩
  | executeProposal id =>
    obtain ⟨passed, hc⟩ := map_snd_eq_ok.mp he
    exact h.executeProposal hc

/-- A call after the end of a proposal leaves it as it is, unless it executes it. -/
theorem closed (h : Polled s cast) {i : Env Address × Call Address} (he : exec s i = .ok s')
    {id : U64} {p : VotingProposal} (hp : getProposal s id = some p)
    (hend : p.votingEndLedger ≤ i.1.sequence) :
    getProposal s' id = some p ∨ (p.executed = false ∧ p.Passed) := by
  obtain ⟨env, call⟩ := i
  cases call with
  | createProposal proposer title description votingEndLedger =>
    obtain ⟨new, hc⟩ := map_snd_eq_ok.mp he
    obtain ⟨q, next, -, -, -, rfl, rfl⟩ := createProposal_ok.mp hc
    left
    show (s.proposal.set (freeId s) _).get id = some p
    rw [Table.get_set, if_neg]
    · exact hp
    · rintro rfl
      rw [h.next_fresh] at hp
      cases hp
  | castVote new voter support weight =>
    obtain ⟨q, r, -, hq, hopen, -, -, rfl⟩ := castVote_ok.mp he
    left
    show (s.proposal.set new r).get id = some p
    rw [Table.get_set, if_neg]
    · exact hp
    · rintro rfl
      cases hp.symm.trans hq
      exact absurd hopen (Int.not_lt.mpr hend)
  | delegateVote delegator delegate =>
    obtain ⟨-, rfl⟩ := delegateVote_ok.mp he
    exact .inl hp
  | executeProposal new =>
    obtain ⟨passed, hc⟩ := map_snd_eq_ok.mp he
    obtain ⟨q, hq, hopen, -, hpassed, rfl⟩ := executeProposal_ok.mp hc
    cases passed with
    | false => exact .inl hp
    | true =>
      by_cases hid : id = new
      · subst hid
        cases hp.symm.trans hq
        exact .inr ⟨hopen, hpassed.mp rfl⟩
      · left
        show (s.proposal.set new { q with executed := true }).get id = some p
        rw [Table.get_set, if_neg hid]
        exact hp

end Polled

theorem polled_after (past : List (Env Address × Call Address)) :
    Polled (after exec (Storage.fresh Address) past) (ballots past) :=
  after_traced Polled.fresh past fun _ _ _ _ hs he => hs.step he

/-! ## Executions -/

/-- The call executes the proposal after the calls `earlier` and reports `passed`. -/
def Reports (id : U64) (passed : Bool) (earlier : List (Env Address × Call Address))
    (i : Env Address × Call Address) : Prop :=
  i.2 = .executeProposal id ∧
    ∃ s', executeProposal i.1 (after exec (Storage.fresh Address) earlier) id = .ok (passed, s')

/-- The ledgers of the calls do not decrease. -/
def Ordered (past : List (Env Address × Call Address)) : Prop :=
  Nondecreasing (fun i => i.1.sequence.val) past

/-- What an execution reports is what the proposal says when it is made and at every later
moment. -/
theorem Reports.proposal {id : U64} {passed : Bool} {past e : List (Env Address × Call Address)}
    {i : Env Address × Call Address} (h : Reports id passed e i) (hordered : Ordered past)
    (hi : i :: e <:+ past) :
    ∃ p, getProposal (after exec (Storage.fresh Address) past) id = some p ∧
      p.votingEndLedger ≤ i.1.sequence ∧ (passed = true ↔ p.Passed) ∧ p.executed = passed ∧
      Counted p id (ballots e) := by
  obtain ⟨hcall, s', he⟩ := h
  have hexec : exec (after exec (Storage.fresh Address) e) i = .ok s' := by
    rw [exec, hcall]
    exact map_snd_eq_ok.mpr ⟨passed, he⟩
  obtain ⟨p, hp, hopen, hend, hpassed, heq⟩ := executeProposal_ok.mp he
  have hold := (polled_after e).counted id p hp
  have hnow : getProposal (after exec (Storage.fresh Address) (i :: e)) id =
      some { p with executed := passed } := by
    rw [after, apply_ok hexec, heq]
    cases passed with
    | true => exact Table.get_set_self _ _ _
    | false =>
      have hsame : { p with executed := false } = p := by rw [← hopen]
      rw [hsame]
      exact hp
  refine ⟨{ p with executed := passed }, ?_, hend, hpassed, rfl,
    ⟨hold.id_eq, hold.votesFor, hold.votesAgainst, hold.totalVotes, hold.quorum⟩⟩
  refine after_kept (P := fun s : Storage Address =>
    getProposal s id = some { p with executed := passed }) hi hnow ?_
  intro j f t hj hf hs ht
  have hclock := hordered.le hj (hf : i :: e <:+ f)
  rcases (polled_after f).closed ht hs (le_trans hend hclock) with hsame | ⟨hnot, hpass⟩
  · exact hsame
  · have htrue : passed = true := hpassed.mpr hpass
    cases hnot.symm.trans htrue

theorem executed_iff (past : List (Env Address × Call Address)) (id : U64) (p : VotingProposal)
    (hp : getProposal (after exec (Storage.fresh Address) past) id = some p)
    (hexecuted : p.executed = true) : Occurs (Reports id true) past := by
  induction past generalizing p with
  | nil => exact absurd hp Table.get_empty_ne_some
  | cons i past ih =>
    cases he : exec (after exec (Storage.fresh Address) past) i with
    | error t =>
      rw [after, apply_error he] at hp
      exact (ih p hp hexecuted).cons i
    | ok s' =>
      rw [after, apply_ok he] at hp
      obtain ⟨env, call⟩ := i
      cases call with
      | createProposal proposer title description votingEndLedger =>
        obtain ⟨new, hc⟩ := map_snd_eq_ok.mp he
        obtain ⟨q, next, -, -, -, rfl, rfl⟩ := createProposal_ok.mp hc
        replace hp : (Table.set _ (freeId _) _).get id = some p := hp
        rw [Table.get_set] at hp
        split at hp
        · cases hp
          cases hexecuted
        · exact (ih p hp hexecuted).cons _
      | castVote new voter support weight =>
        obtain ⟨q, r, -, hq, -, -, hadd, rfl⟩ := castVote_ok.mp he
        replace hp : (Table.set _ new r).get id = some p := hp
        rw [Table.get_set] at hp
        split at hp
        · next heq =>
          cases hp
          have hsame := (VotingProposal.addWeight_ok hadd).1
          rw [hsame] at hexecuted
          exact (ih q (heq ▸ hq) hexecuted).cons _
        · exact (ih p hp hexecuted).cons _
      | delegateVote delegator delegate =>
        obtain ⟨-, rfl⟩ := delegateVote_ok.mp he
        exact (ih p hp hexecuted).cons _
      | executeProposal new =>
        obtain ⟨passed, hc⟩ := map_snd_eq_ok.mp he
        obtain ⟨q, hq, -, -, -, rfl⟩ := executeProposal_ok.mp hc
        cases passed with
        | false => exact (ih p hp hexecuted).cons _
        | true =>
          replace hp : (Table.set _ new { q with executed := true }).get id = some p := hp
          rw [Table.get_set] at hp
          split at hp
          · next heq =>
            rw [← heq] at hc
            exact .head ⟨by rw [heq], _, hc⟩
          · exact (ih p hp hexecuted).cons _

/-- The votes of a run over nondecreasing ledgers count once each, under the weight that the
voter named. Every proposal has the same quorum, 20% of a constant. An execution comes after the
end of the proposal, and reports whether the ballots cast until then reached the quorum with a
majority for it. The report is final: the proposal keeps it, later executions that return report
the same, and one that reported success is the only one. -/
theorem execution_final {past : List (Env Address × Call Address)} (hordered : Ordered past) :
    (∀ id p, getProposal (after exec (Storage.fresh Address) past) id = some p →
      Counted p id (ballots past) ∧ (p.executed = true ↔ Occurs (Reports id true) past)) ∧
    Recorded (after exec (Storage.fresh Address) past).vote.get (ballots past) ∧
    (∀ i e id passed, i :: e <:+ past → Reports id passed e i →
      (passed = true ↔
        200000000000000 ≤ tally (ballots e) id true + tally (ballots e) id false ∧
          tally (ballots e) id false < tally (ballots e) id true) ∧
      ∃ p, getProposal (after exec (Storage.fresh Address) past) id = some p ∧
        p.votingEndLedger ≤ i.1.sequence ∧ p.executed = passed ∧ Counted p id (ballots e)) ∧
    (∀ i e j f id passed passed', i :: e <:+ past → Reports id passed e i → j :: f <:+ past →
      Reports id passed' f j → passed = passed') ∧
    ∀ i e j f id, i :: e <:+ past → Reports id true e i → j :: f <:+ past →
      Reports id true f j → i :: e = j :: f := by
  refine ⟨fun id p hp => ⟨(polled_after past).counted id p hp, executed_iff past id p hp, ?_⟩,
    (polled_after past).recorded, fun i e id passed hi hr => ?_,
    fun i e j f id passed passed' hi hri hj hrj => ?_, fun i e j f id hi hri hj hrj => ?_⟩
  · rintro ⟨i, e, hi, hr⟩
    obtain ⟨q, hq, -, -, hexecuted, -⟩ := hr.proposal hordered hi
    cases hp.symm.trans hq
    exact hexecuted
  · obtain ⟨p, hp, hend, hpassed, hexecuted, hcounted⟩ := hr.proposal hordered hi
    refine ⟨?_, p, hp, hend, hexecuted, hcounted⟩
    rw [hpassed, VotingProposal.Passed, BoundedInt.le_def, BoundedInt.lt_def, hcounted.quorum,
      hcounted.totalVotes, hcounted.votesFor, hcounted.votesAgainst]
  · obtain ⟨p, hp, -, -, hexecuted, -⟩ := hri.proposal hordered hi
    obtain ⟨q, hq, -, -, hexecuted', -⟩ := hrj.proposal hordered hj
    cases hp.symm.trans hq
    exact hexecuted.symm.trans hexecuted'
  · -- The later of two would have found the proposal executed.
    have hlater : ∀ {i j : Env Address × Call Address}
        {e f : List (Env Address × Call Address)}, Reports id true e i → Reports id true f j →
        j :: f <:+ past → i :: e <:+ j :: f → i :: e = j :: f := by
      intro i j e f hri hrj hj hsuf
      rcases List.suffix_cons_iff.mp hsuf with heq | hbefore
      · exact heq
      · have hordered' := hordered.of_suffix ((List.suffix_cons j f).trans hj)
        obtain ⟨p, hp, -, -, hexecuted, -⟩ := hri.proposal hordered' hbefore
        obtain ⟨-, s', he⟩ := hrj
        obtain ⟨q, hq, hopen, -⟩ := executeProposal_ok.mp he
        cases hp.symm.trans hq
        cases hopen.symm.trans hexecuted
    rcases List.suffix_or_suffix_of_suffix hi hj with hs | hs
    · exact hlater hri hrj hj hs
    · exact (hlater hrj hri hi hs).symm

/-- One voter names a weight that is the whole quorum, and executes the proposal at its end. -/
def exampleVotingRun : List (Env Nat × Call Nat) :=
  [(exampleEnv (.lit 10) [], .executeProposal (.lit 1)),
    (exampleEnv (.lit 5) [7], .castVote (.lit 1) 7 true (.lit 200000000000000)),
    (exampleEnv 0 [6], .createProposal 6 "" "" (.lit 10))]

theorem execution_final_one_voter :
    ∃ p, getProposal (after exec (Storage.fresh Nat) exampleVotingRun) (.lit 1) = some p ∧
      p.votingEndLedger ≤ (.lit 10 : U32) ∧ p.executed = true ∧
      Counted p (.lit 1) [⟨.lit 1, 7, true, 200000000000000⟩] := by
  have hordered : Ordered exampleVotingRun := by unfold Ordered; decide
  have hreport : Reports (.lit 1) true exampleVotingRun.tail
      (exampleEnv (.lit 10) [], .executeProposal (.lit 1)) := ⟨rfl, _, rfl⟩
  obtain ⟨-, -, hreports, -⟩ := execution_final hordered
  exact (hreports _ _ _ _ (List.suffix_refl _) hreport).2

/-! ## Delegations -/

/-- What is left of a storage without its delegations and events. -/
def Storage.core (s : Storage Address) : Storage Address := { s with delegate := ∅, events := [] }

def Call.Delegates : Call Address → Bool
  | .delegateVote _ _ => true
  | _ => false

/-- A call other than a delegation does the same to two storages that differ in their
delegations and events only. -/
theorem exec_core {s t s' : Storage Address} (hcore : s.core = t.core)
    {i : Env Address × Call Address} (hcall : i.2.Delegates = false) (he : exec s i = .ok s') :
    ∃ t', exec t i = .ok t' ∧ s'.core = t'.core := by
  obtain ⟨proposal, vote, delegate, next, supply, percentage, events⟩ := s
  obtain ⟨proposal', vote', delegate', next', supply', percentage', events'⟩ := t
  cases hcore
  obtain ⟨env, call⟩ := i
  cases call with
  | createProposal proposer title description votingEndLedger =>
    obtain ⟨id, hc⟩ := map_snd_eq_ok.mp he
    obtain ⟨q, n, hauth, hq, hn, hid, rfl⟩ := createProposal_ok.mp hc
    exact ⟨_, map_snd_eq_ok.mpr ⟨id, createProposal_ok.mpr ⟨q, n, hauth, hq, hn, hid, rfl⟩⟩, rfl⟩
  | castVote id voter support weight =>
    obtain ⟨p, q, hauth, hp, hopen, hnew, hadd, rfl⟩ := castVote_ok.mp he
    exact ⟨_, castVote_ok.mpr ⟨p, q, hauth, hp, hopen, hnew, hadd, rfl⟩, rfl⟩
  | delegateVote delegator delegate => cases hcall
  | executeProposal id =>
    obtain ⟨passed, hc⟩ := map_snd_eq_ok.mp he
    obtain ⟨p, hp, hopen, hend, hpassed, rfl⟩ := executeProposal_ok.mp hc
    refine ⟨_, map_snd_eq_ok.mpr
      ⟨passed, executeProposal_ok.mpr ⟨p, hp, hopen, hend, hpassed, rfl⟩⟩, ?_⟩
    cases passed <;> rfl

/-- The run without its delegations. -/
def undelegated (past : List (Env Address × Call Address)) : List (Env Address × Call Address) :=
  past.filter fun i => !i.2.Delegates

/-- A run and the run without its delegations leave the same proposals, votes and next id: a
delegation gives nobody a vote and takes none away. -/
theorem delegations_ignored (past : List (Env Address × Call Address)) :
    (after exec (Storage.fresh Address) past).core =
      (after exec (Storage.fresh Address) (undelegated past)).core := by
  induction past with
  | nil => rfl
  | cons i past ih =>
    cases hcall : i.2.Delegates with
    | true =>
      have hrun : undelegated (i :: past) = undelegated past :=
        List.filter_cons_of_neg (by simp [hcall])
      rw [hrun, after]
      refine Eq.trans ?_ ih
      obtain ⟨env, call⟩ := i
      cases call with
      | delegateVote delegator delegate =>
        cases he : exec (after exec (Storage.fresh Address) past)
            (env, .delegateVote delegator delegate) with
        | ok s' =>
          rw [apply_ok he]
          obtain ⟨-, rfl⟩ := delegateVote_ok.mp he
          rfl
        | error t => rw [apply_error he]
      | _ => cases hcall
    | false =>
      have hrun : undelegated (i :: past) = i :: undelegated past :=
        List.filter_cons_of_pos (by simp [hcall])
      rw [hrun, after, after]
      cases he : exec (after exec (Storage.fresh Address) past) i with
      | ok s' =>
        obtain ⟨t', ht, hcore⟩ := exec_core ih hcall he
        rw [apply_ok he, apply_ok ht, hcore]
      | error t =>
        rw [apply_error he]
        cases ht : exec (after exec (Storage.fresh Address) (undelegated past)) i with
        | ok t' =>
          obtain ⟨s', hs, -⟩ := exec_core ih.symm hcall ht
          cases he.symm.trans hs
        | error t' =>
          rw [apply_error ht]
          exact ih

end Scoopdope.Governance.WeightedVoting

import Scoopdope.Governance.Tally
import Scoopdope.Token.Supply

/-!
# Governance over the token: voting power

The governance contract with the token contract of this repository as its token:
a vote weighs the live balance. Past balances are not tracked, so a token that
moves from a voter to an address that has not voted yet can vote again.

What holds is that only such tokens do: the voting power on a proposal is at
most the supply and what has left its voters (`voting_power_bounded`). The
invariant is that the votes are covered by what the voters hold now and what has
left them.
-/

namespace Scoopdope.Governance

open Soroban

variable {Address : Type} [DecidableEq Address]

/-! ## Two contracts -/

/-- The storages of the two contracts. -/
structure World (Address : Type) where
  token : Token.Storage Address
  governance : Storage Address

/-- A call of either contract. In a governance call, `upgrade` is how the other
contracts answer. -/
inductive Action (Address : Type)
  | token (env : Env Address) (call : Token.Call Address)
  | governance (env : Env Address) (call : Call Address)
      (upgrade : Address → Bytes32 → Outcome Unit)

/-- The token contract answers `balance` from its storage. -/
def World.peers (w : World Address) (tokenContract : Address)
    (upgrade : Address → Bytes32 → Outcome Unit) : Peers Address where
  balance addr holder :=
    if addr = tokenContract then .ok (Token.balance w.token holder) else .error .callee
  upgrade := upgrade

/-- The governance call of an action, with the answers it gets. -/
def World.input (w : World Address) (tokenContract : Address) (env : Env Address)
    (call : Call Address) (upgrade : Address → Bytes32 → Outcome Unit) : Input Address :=
  ⟨env, w.peers tokenContract upgrade, call⟩

/-- One call of either contract. -/
def step [Token.Airdrop.XdrBytes Address] (tokenContract : Address) (w : World Address)
    (a : Action Address) : Outcome (World Address) :=
  match a with
  | .token env call => do
    let token ← Token.exec w.token (env, call)
    pure { w with token }
  | .governance env call upgrade => do
    let governance ← exec w.governance (w.input tokenContract env call upgrade)
    pure { w with governance }

/-- Both contracts are initialised, governance with this token. -/
def WorldInitialised (tokenContract : Address) (w : World Address) : Prop :=
  (∃ admin, Token.Initialised admin w.token) ∧
  ∃ env admin timelockLedgers, initializeContract env (Storage.fresh Address) admin tokenContract
    timelockLedgers = .ok w.governance

/-! ## Voters -/

/-- The addresses with a recorded vote on an id. -/
def voters (s : Storage Address) (id : U64) : Finset Address :=
  ((s.vote.keys.filter fun key => key.1 = id).map Prod.snd).toFinset

theorem mem_voters {s : Storage Address} {id : U64} {a : Address} :
    a ∈ voters s id ↔ ∃ support, s.vote.get (id, a) = some support := by
  rw [voters, List.mem_toFinset, List.mem_map]
  constructor
  · rintro ⟨⟨x, b⟩, hkey, rfl⟩
    obtain ⟨hmem, hid⟩ := List.mem_filter.mp hkey
    rw [decide_eq_true_iff] at hid
    cases hid
    exact Option.isSome_iff_exists.mp (AList.lookup_isSome.mpr hmem)
  · intro h
    have hmem : (id, a) ∈ s.vote := AList.lookup_isSome.mp (Option.isSome_iff_exists.mpr h)
    exact ⟨(id, a), List.mem_filter.mpr ⟨hmem, decide_eq_true rfl⟩, rfl⟩

/-- A vote adds its voter, on its id only. -/
theorem voters_set {s s' : Storage Address} {id x : U64} {voter : Address} {support : Bool}
    (h : s'.vote = s.vote.set (id, voter) support) :
    voters s' x = if x = id then insert voter (voters s x) else voters s x := by
  ext a
  rw [mem_voters, h]
  by_cases hx : x = id
  · subst hx
    rw [if_pos rfl, Finset.mem_insert, mem_voters]
    by_cases ha : a = voter
    · rw [ha, Table.get_set_self]
      exact ⟨fun _ => .inl rfl, fun _ => ⟨support, rfl⟩⟩
    · rw [Table.get_set_ne fun he => ha (Prod.ext_iff.mp he).2]
      exact ⟨.inr, fun h => h.resolve_left ha⟩
  · rw [if_neg hx, mem_voters, Table.get_set_ne fun he => hx (Prod.ext_iff.mp he).1]

theorem voters_congr {s s' : Storage Address} (h : s'.vote = s.vote) (id : U64) :
    voters s' id = voters s id := by
  rw [voters, voters, h]

/-! ## What leaves the voters -/

/-- The amount that an accepted action takes from addresses that have voted on
the id: a burn, or a transfer to an address that has not. -/
def leaving (w : World Address) (id : U64) (a : Action Address) : Int :=
  match a with
  | .token env call => (Token.effect w.token (env, call)).leaving (voters w.governance id)
  | .governance _ _ _ => 0

variable [Token.Airdrop.XdrBytes Address]

/-- What the accepted actions of a run have taken from voters. -/
def departed (tokenContract : Address) (w₀ : World Address) (id : U64) :
    List (Action Address) → Int
  | [] => 0
  | a :: past =>
    match step tokenContract (after (step tokenContract) w₀ past) a with
    | .ok _ => departed tokenContract w₀ id past + leaving (after (step tokenContract) w₀ past) id a
    | .error _ => departed tokenContract w₀ id past

theorem leaving_nonneg {s s' : Token.Storage Address} {env : Env Address}
    {call : Token.Call Address} (h : Token.exec s (env, call) = .ok s')
    (accounts : Finset Address) : 0 ≤ (Token.effect s (env, call)).leaving accounts := by
  cases call with
  | burn from_ amount =>
    have hpos := (Token.burn_ok h).1
    show 0 ≤ if from_ ∈ accounts then amount.val else 0
    split <;> omega
  | burnFrom spender from_ amount =>
    have hpos := (Token.burnFrom_ok h).1
    show 0 ≤ if from_ ∈ accounts then amount.val else 0
    split <;> omega
  | transfer from_ to_ amount =>
    have hpos := (Token.transfer_ok h).1
    show 0 ≤ if from_ ∈ accounts ∧ to_ ∉ accounts then amount.val else 0
    split <;> omega
  | transferFrom spender from_ to_ amount =>
    have hpos := (Token.transferFrom_ok h).1
    show 0 ≤ if from_ ∈ accounts ∧ to_ ∉ accounts then amount.val else 0
    split <;> omega
  | _ => exact le_refl 0

/-! ## The invariant -/

/-- The votes on every poll are covered by what its voters hold now and what has
left them. -/
structure Covered (tokenContract : Address) (gone : U64 → Int) (w : World Address) : Prop where
  token : ∃ admin minted, Token.Conserved admin minted w.token
  admin : ∃ admin, w.governance.admin = some admin
  tokenContract : w.governance.tokenContract = some tokenContract
  gone_nonneg : ∀ id, 0 ≤ gone id
  covered : ∀ kind id p, w.governance.poll kind id = some p →
    p.votesFor.val + p.votesAgainst.val ≤
      w.token.ledger.held (voters w.governance id) + gone id

section Steps

variable {tokenContract : Address} {gone : U64 → Int} {w w' : World Address}

omit [Token.Airdrop.XdrBytes Address] in
theorem Covered.sound (hw : Covered tokenContract gone w) : w.token.ledger.Sound := by
  obtain ⟨admin, minted, hc⟩ := hw.token
  exact hc.sound

/-- A token call takes from the voters at most what it takes out of them. -/
theorem Covered.tokenCall (hw : Covered tokenContract gone w) {env : Env Address}
    {call : Token.Call Address} {token : Token.Storage Address}
    (h : Token.exec w.token (env, call) = .ok token) :
    Covered tokenContract (fun id => gone id + leaving w id (.token env call))
      { w with token } := by
  obtain ⟨admin, minted, hc⟩ := hw.token
  have hr := Token.exec_refines hc.admin h
  refine ⟨⟨admin, _, hc.step h⟩, hw.admin, hw.tokenContract, ?_, ?_⟩
  · intro id
    exact add_nonneg (hw.gone_nonneg id) (leaving_nonneg h _)
  · intro kind id p hp
    have hcovered := hw.covered kind id p hp
    have hheld := Ledger.held_run hr.allowed (voters w.governance id)
    show _ ≤ token.ledger.held (voters w.governance id) +
      (gone id + (Token.effect w.token (env, call)).leaving (voters w.governance id))
    rw [hr.ledger]
    omega

omit [Token.Airdrop.XdrBytes Address] in
/-- A vote is covered by the balance it weighs. -/
theorem Covered.governanceCall (hw : Covered tokenContract gone w) {env : Env Address}
    {call : Call Address} {upgrade : Address → Bytes32 → Outcome Unit}
    {governance : Storage Address}
    (h : exec w.governance (w.input tokenContract env call upgrade) = .ok governance) :
    Covered tokenContract gone { w with governance } := by
  obtain ⟨admin, ha⟩ := hw.admin
  obtain ⟨hadmin, htoken, _⟩ := exec_admin ha h
  have hnonneg : ∀ (accounts : Finset Address) (id : U64),
      0 ≤ w.token.ledger.held accounts + gone id := fun accounts id =>
    add_nonneg (hw.sound.held_nonneg accounts) (hw.gone_nonneg id)
  refine ⟨hw.token, ⟨admin, hadmin⟩, htoken.trans hw.tokenContract, hw.gone_nonneg, ?_⟩
  intro k x r hr
  show _ ≤ w.token.ledger.held (voters governance x) + gone x
  change governance.poll k x = some r at hr
  cases exec_effect ha h with
  | opens kind id nextId p next succ next' votesFor votesAgainst poll vote ballot =>
    rw [poll] at hr
    rw [voters_congr vote]
    rcases pollSet_eq_some hr with ⟨_, _, rfl⟩ | ⟨_, hr⟩
    · rw [votesFor, votesAgainst]
      exact hnonneg _ _
    · exact hw.covered k x r hr
  | casts kind id voter support balance p q may ballot found open_ votingEnd votesFor votesAgainst
      poll vote next =>
    rw [poll] at hr
    have hweight : w.token.ledger.balance voter = balance.val := by
      obtain ⟨addr, haddr, hbalance⟩ := may.power
      rw [hw.tokenContract] at haddr
      cases haddr
      have hanswer : Token.balance w.token voter = balance := by
        change (if tokenContract = tokenContract then _ else _) = Except.ok balance at hbalance
        rw [if_pos rfl] at hbalance
        exact Except.ok.inj hbalance
      rw [Token.ledger_balance, hanswer]
    have hfresh : voter ∉ voters w.governance id := by
      rw [mem_voters, may.fresh]
      rintro ⟨_, h⟩
      cases h
    have hpos := may.positive
    rw [voters_set vote]
    rcases pollSet_eq_some hr with ⟨rfl, rfl, rfl⟩ | ⟨_, hr⟩
    · have hcovered := hw.covered k x p found
      rw [if_pos rfl, Ledger.held_insert _ hfresh, hweight, votesFor, votesAgainst]
      cases support <;> simp <;> omega
    · have hcovered := hw.covered k x r hr
      split
      · next hx =>
        subst hx
        rw [Ledger.held_insert _ hfresh, hweight]
        omega
      · exact hcovered
  | idle poll vote next ballot =>
    rw [poll] at hr
    rw [voters_congr vote]
    exact hw.covered k x r hr

end Steps

omit [Token.Airdrop.XdrBytes Address] in
theorem WorldInitialised.covered {tokenContract : Address} {w₀ : World Address}
    (h : WorldInitialised tokenContract w₀) : Covered tokenContract (fun _ => 0) w₀ := by
  obtain ⟨⟨admin, htoken⟩, env, admin', timelockLedgers, hgovernance⟩ := h
  have hpolled := (Initialised.polled ⟨env, admin', tokenContract, hgovernance⟩)
  obtain ⟨_, _, _, hs⟩ := initializeContract_ok.mp hgovernance
  have hc := htoken.conserved
  refine ⟨⟨admin, 0, hc⟩, hpolled.admin, by rw [hs], fun _ => le_refl 0, ?_⟩
  intro kind id p hp
  -- no ballot has been cast
  obtain ⟨hfor, hagainst⟩ := hpolled.tallied kind id p hp
  have hzero : ∀ support, Voting.tally ([] : List (Voting.Ballot U64 Address)) id support = 0 :=
    Voting.tally_eq_zero nofun
  rw [hfor, hagainst, hzero, hzero]
  exact add_nonneg (hc.sound.held_nonneg _) (le_refl 0)

theorem covered_after {tokenContract : Address} {w₀ : World Address}
    (h : WorldInitialised tokenContract w₀) (past : List (Action Address)) :
    Covered tokenContract (fun id => departed tokenContract w₀ id past)
      (after (step tokenContract) w₀ past) := by
  refine after_history (P := fun past w => Covered tokenContract
    (fun id => departed tokenContract w₀ id past) w) h.covered ?_ ?_ past
  · rintro past a w w' rfl hw he
    simp only [departed, he]
    cases a with
    | token env call =>
      obtain ⟨token, htoken, hw'⟩ := bind_eq_ok.mp he
      cases pure_eq_ok.mp hw'
      exact hw.tokenCall htoken
    | governance env call upgrade =>
      obtain ⟨governance, hgovernance, hw'⟩ := bind_eq_ok.mp he
      cases pure_eq_ok.mp hw'
      simp only [leaving, Int.add_zero]
      exact hw.governanceCall hgovernance
  · rintro past a w t rfl hw he
    simp only [departed, he]
    exact hw

/-- In every interleaving of token and governance calls, the voting power on a
proposal is at most the supply and what left its voters for addresses that had
not voted, or was burned by them. -/
theorem voting_power_bounded {tokenContract : Address} {w₀ : World Address}
    (h : WorldInitialised tokenContract w₀) (past : List (Action Address)) :
    (∀ id r, getProposal (after (step tokenContract) w₀ past).governance id = some r →
      r.votesFor.val + r.votesAgainst.val ≤
        (Token.totalSupply (after (step tokenContract) w₀ past).token).val +
          departed tokenContract w₀ id past) ∧
    (∀ id r, getUpgradeProposal (after (step tokenContract) w₀ past).governance id = some r →
      r.votesFor.val + r.votesAgainst.val ≤
        (Token.totalSupply (after (step tokenContract) w₀ past).token).val +
          departed tokenContract w₀ id past) := by
  have hw := covered_after h past
  have hheld : ∀ accounts, (after (step tokenContract) w₀ past).token.ledger.held accounts ≤
      (Token.totalSupply (after (step tokenContract) w₀ past).token).val := hw.sound.held_le
  constructor
  · intro id r hr
    have hcovered := hw.covered .proposal id r.poll (poll_proposal hr)
    exact hcovered.trans (Int.add_le_add_right (hheld _) _)
  · intro id r hr
    have hcovered := hw.covered .upgrade id r.poll (poll_upgrade hr)
    exact hcovered.trans (Int.add_le_add_right (hheld _) _)

/-! ## The same tokens, twice -/

/-- The example contracts, governance with the token at address 9. -/
def exampleWorld : World Nat := ⟨Token.exampleToken, exampleGovernance⟩

theorem exampleWorld_initialised : WorldInitialised 9 exampleWorld :=
  ⟨⟨1, Token.exampleToken_initialised⟩, exampleEnv 0 [1], 1, .lit 50, rfl⟩

def tokenCall (sequence : U32) (auths : List Nat) (call : Token.Call Nat) : Action Nat :=
  .token (exampleEnv sequence auths) call

def governanceCall (sequence : U32) (auths : List Nat) (call : Call Nat) : Action Nat :=
  .governance (exampleEnv sequence auths) call fun _ _ => .ok ()

/-- Holder 2 has all 100 tokens and proposes. It votes, sends its tokens to
holder 3, and holder 3 votes. -/
def doubleVote : List (Action Nat) :=
  [governanceCall (.lit 6) [3] (.vote 3 (.lit 1) true),
    tokenCall (.lit 6) [2] (.transfer 2 3 (.lit 100)),
    governanceCall (.lit 5) [2] (.vote 2 (.lit 1) true),
    governanceCall (.lit 4) [2] (.createProposal 2 "New Course Category" "" (.lit 10)),
    tokenCall (.lit 4) [1] (.mint 2 (.lit 100))]

theorem voting_power_bounded_double_vote : ∃ r,
    getProposal (after (step 9) exampleWorld doubleVote).governance (.lit 1) = some r ∧
      r.votesFor.val + r.votesAgainst.val ≤ 100 + 100 := by
  have hstored : (getProposal (after (step 9) exampleWorld doubleVote).governance
      (.lit 1)).isSome = true := by decide +kernel
  have hsupply : (Token.totalSupply (after (step 9) exampleWorld doubleVote).token).val = 100 := by
    decide +kernel
  have hdeparted : departed 9 exampleWorld (.lit 1) doubleVote = 100 := by decide +kernel
  obtain ⟨r, hr⟩ := Option.isSome_iff_exists.mp hstored
  have hbound := (voting_power_bounded exampleWorld_initialised doubleVote).1 _ r hr
  rw [hsupply, hdeparted] at hbound
  exact ⟨r, hr, hbound⟩

/-- The supply is 100 from the proposal on, and the votes are 200. -/
theorem double_vote_exceeds_supply : WorldInitialised 9 exampleWorld ∧
    (∀ past ∈ doubleVote.tails.take 4,
      (Token.totalSupply (after (step 9) exampleWorld past).token).val = 100) ∧
    (getProposal (after (step 9) exampleWorld doubleVote).governance (.lit 1)).map
      (fun r => r.votesFor.val + r.votesAgainst.val) = some 200 :=
  ⟨exampleWorld_initialised, by decide +kernel, by decide +kernel⟩

end Scoopdope.Governance

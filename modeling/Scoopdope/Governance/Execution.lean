import Scoopdope.Governance.Tally

/-!
# Governance: execution

A record never goes away, its target, hash and ledgers never change, and its
flags only rise (`proposal_step`, `upgrade_step`). So an execution spends its
proposal, and what an upgrade record says at its execution was said when it was
proposed and when it was approved. The tallies of an approved upgrade are those
of its approval because ledgers do not fall and the poll had ended.
-/

namespace Scoopdope.Governance

open Soroban

variable {Address : Type} [DecidableEq Address]

/-- The ledger of a call is not below the ledgers of the calls before it. -/
def NondecreasingLedgers (past : List (Input Address)) : Prop :=
  past.Pairwise fun i j => j.env.sequence.val ≤ i.env.sequence.val

/-- The upgrade record `r` was proposed under its id. -/
def Proposes (s₀ : Storage Address) (id : U64) (r : UpgradeProposalRecord Address)
    (earlier : List (Input Address)) (i : Input Address) : Prop :=
  Accepted exec s₀ earlier i ∧ (after exec s₀ earlier).nextProposalId = some id ∧
    ∃ proposer, i.call = .proposeUpgrade proposer r.contractAddress r.newWasmHash
      r.votingEndLedger r.timelockLedger

/-- An accepted approval of the upgrade. -/
def Approves (s₀ : Storage Address) (id : U64) (earlier : List (Input Address))
    (i : Input Address) : Prop :=
  Accepted exec s₀ earlier i ∧ i.call = .approveUpgrade id

/-- An accepted execution of the upgrade. -/
def ExecutesUpgrade (s₀ : Storage Address) (id : U64) (earlier : List (Input Address))
    (i : Input Address) : Prop :=
  Accepted exec s₀ earlier i ∧ i.call = .executeUpgrade id

/-- An accepted execution of the proposal. -/
def ExecutesProposal (s₀ : Storage Address) (id : U64) (earlier : List (Input Address))
    (i : Input Address) : Prop :=
  Accepted exec s₀ earlier i ∧ i.call = .executeProposal id

/-! ## Records -/

/-- The parts of two upgrade records that no call changes. -/
structure SameUpgrade (r r' : UpgradeProposalRecord Address) : Prop where
  contractAddress : r'.contractAddress = r.contractAddress
  newWasmHash : r'.newWasmHash = r.newWasmHash
  votingEndLedger : r'.votingEndLedger = r.votingEndLedger
  timelockLedger : r'.timelockLedger = r.timelockLedger

omit [DecidableEq Address] in
theorem SameUpgrade.refl (r : UpgradeProposalRecord Address) : SameUpgrade r r :=
  ⟨rfl, rfl, rfl, rfl⟩

omit [DecidableEq Address] in
theorem SameUpgrade.trans {r₁ r₂ r₃ : UpgradeProposalRecord Address} (h₁ : SameUpgrade r₁ r₂)
    (h₂ : SameUpgrade r₂ r₃) : SameUpgrade r₁ r₃ where
  contractAddress := h₂.contractAddress.trans h₁.contractAddress
  newWasmHash := h₂.newWasmHash.trans h₁.newWasmHash
  votingEndLedger := h₂.votingEndLedger.trans h₁.votingEndLedger
  timelockLedger := h₂.timelockLedger.trans h₁.timelockLedger

section Steps

variable {s s' : Storage Address} {i : Input Address} {cast : List (Voting.Ballot U64 Address)}

/-- An executed proposal stays executed. -/
theorem Polled.proposal_step (hs : Polled s cast) (h : exec s i = .ok s') {id : U64}
    {r : ProposalRecord Address} (hr : s.proposal.get id = some r) (hx : r.executed = true) :
    ∃ r', s'.proposal.get id = some r' ∧ r'.executed = true := by
  obtain ⟨admin, ha⟩ := hs.admin
  obtain ⟨env, peers, call⟩ := i
  cases call with
  | initializeContract admin' tokenContract timelockLedgers =>
    obtain ⟨hnone, _⟩ := initializeContract_ok.mp h
    rw [ha] at hnone
    cases hnone
  | createProposal proposer title description votingEndLedger =>
    obtain ⟨n, h⟩ := map_snd_eq_ok.mp h
    obtain ⟨_, _, hn, nextId, _, rfl⟩ := createProposal_ok h
    refine Table.exists_set hr hx fun hid => ?_
    have hnone := (hs.next_fresh hn).1 .proposal
    rw [hid, poll_proposal hr] at hnone
    cases hnone
  | vote voter x support =>
    obtain ⟨_, q, balance, f, a, hq, _, hexec, _, _, rfl⟩ := vote_ok h
    refine Table.exists_set hr hx fun hid => ?_
    rw [hid, hr] at hq
    cases hq
    exact hx
  | executeProposal x =>
    obtain ⟨q, _, _, _, _, rfl⟩ := executeProposal_ok h
    exact Table.exists_set hr hx fun _ => rfl
  | proposeUpgrade proposer contractAddress newWasmHash votingEndLedger timelockLedger =>
    obtain ⟨n, h⟩ := map_snd_eq_ok.mp h
    obtain ⟨_, _, _, _, nextId, _, rfl⟩ := proposeUpgrade_ok h
    exact ⟨r, hr, hx⟩
  | voteUpgrade voter x support =>
    obtain ⟨_, q, balance, f, a, _, _, _, _, _, rfl⟩ := voteUpgrade_ok h
    exact ⟨r, hr, hx⟩
  | approveUpgrade x =>
    obtain ⟨q, _, _, _, _, rfl⟩ := approveUpgrade_ok h
    exact ⟨r, hr, hx⟩
  | executeUpgrade x =>
    obtain ⟨q, expiry, _, _, _, _, _, rfl⟩ := executeUpgrade_ok h
    exact ⟨r, hr, hx⟩

/-- What an accepted call does to the upgrade records, the expiries of their
time-locks and the `upgrade` calls made. -/
inductive UpgradeEffect (s : Storage Address) (i : Input Address) (s' : Storage Address) : Prop
  | proposes (id : U64) (r : UpgradeProposalRecord Address) (proposer : Address)
      (call : i.call = .proposeUpgrade proposer r.contractAddress r.newWasmHash r.votingEndLedger
        r.timelockLedger)
      (next : s.nextProposalId = some id) (unapproved : r.approved = false)
      (lock : r.votingEndLedger.val < r.timelockLedger.val)
      (records : s'.upgradeProposal = s.upgradeProposal.set id r)
      (expiry : s'.timelockExpiry = s.timelockExpiry) (calls : s'.upgradeCalls = s.upgradeCalls)
  | votes (id : U64) (r q : UpgradeProposalRecord Address)
      (found : s.upgradeProposal.get id = some r) (same : SameUpgrade r q)
      (approved : q.approved = r.approved) (executed : q.executed = r.executed)
      (records : s'.upgradeProposal = s.upgradeProposal.set id q)
      (expiry : s'.timelockExpiry = s.timelockExpiry) (calls : s'.upgradeCalls = s.upgradeCalls)
  | approves (id : U64) (r : UpgradeProposalRecord Address) (call : i.call = .approveUpgrade id)
      (found : s.upgradeProposal.get id = some r)
      (records : s'.upgradeProposal = s.upgradeProposal.set id { r with approved := true })
      (expiry : s'.timelockExpiry = s.timelockExpiry.set id r.timelockLedger)
      (calls : s'.upgradeCalls = s.upgradeCalls)
  | executes (id : U64) (r : UpgradeProposalRecord Address) (call : i.call = .executeUpgrade id)
      (found : s.upgradeProposal.get id = some r)
      (records : s'.upgradeProposal = s.upgradeProposal.set id { r with executed := true })
      (expiry : s'.timelockExpiry = s.timelockExpiry)
      (calls : s'.upgradeCalls = (r.contractAddress, r.newWasmHash) :: s.upgradeCalls)
  | idle (records : s'.upgradeProposal = s.upgradeProposal)
      (expiry : s'.timelockExpiry = s.timelockExpiry) (calls : s'.upgradeCalls = s.upgradeCalls)

theorem exec_upgrade_effect (h : exec s i = .ok s') : UpgradeEffect s i s' := by
  obtain ⟨env, peers, call⟩ := i
  cases call with
  | initializeContract admin' tokenContract timelockLedgers =>
    obtain ⟨_, _, _, rfl⟩ := initializeContract_ok.mp h
    exact .idle rfl rfl rfl
  | createProposal proposer title description votingEndLedger =>
    obtain ⟨n, h⟩ := map_snd_eq_ok.mp h
    obtain ⟨_, _, _, nextId, _, rfl⟩ := createProposal_ok h
    exact .idle rfl rfl rfl
  | vote voter x support =>
    obtain ⟨_, q, balance, f, a, _, _, _, _, _, rfl⟩ := vote_ok h
    exact .idle rfl rfl rfl
  | executeProposal x =>
    obtain ⟨q, _, _, _, _, rfl⟩ := executeProposal_ok h
    exact .idle rfl rfl rfl
  | proposeUpgrade proposer contractAddress newWasmHash votingEndLedger timelockLedger =>
    obtain ⟨n, h⟩ := map_snd_eq_ok.mp h
    obtain ⟨_, _, hlock, hn, nextId, _, rfl⟩ := proposeUpgrade_ok h
    exact .proposes n _ proposer rfl hn rfl hlock rfl rfl rfl
  | voteUpgrade voter x support =>
    obtain ⟨_, r, balance, f, a, hget, _, _, _, _, rfl⟩ := voteUpgrade_ok h
    exact .votes x r { r with votesFor := f, votesAgainst := a } hget ⟨rfl, rfl, rfl, rfl⟩ rfl rfl
      rfl rfl rfl
  | approveUpgrade x =>
    obtain ⟨r, hget, _, _, _, rfl⟩ := approveUpgrade_ok h
    exact .approves x r rfl hget rfl rfl rfl
  | executeUpgrade x =>
    obtain ⟨r, expiry, hget, _, _, _, _, rfl⟩ := executeUpgrade_ok h
    exact .executes x r rfl hget rfl rfl rfl

/-- An upgrade record stays, with its constant parts, and an executed one stays
executed. -/
theorem Polled.upgrade_step (hs : Polled s cast) (h : exec s i = .ok s') {id : U64}
    {r : UpgradeProposalRecord Address} (hr : s.upgradeProposal.get id = some r) :
    ∃ r', s'.upgradeProposal.get id = some r' ∧ SameUpgrade r r' ∧
      (r.executed = true → r'.executed = true) := by
  have hself : SameUpgrade r r ∧ (r.executed = true → r.executed = true) :=
    ⟨.refl r, fun hx => hx⟩
  cases exec_upgrade_effect h with
  | proposes x q proposer call next unapproved lock records expiry calls =>
    rw [records]
    refine Table.exists_set hr hself fun hid => ?_
    have hnone := (hs.next_fresh next).1 .upgrade
    rw [hid, poll_upgrade hr] at hnone
    cases hnone
  | votes x q q' found same approved executed records expiry calls =>
    rw [records]
    refine Table.exists_set hr hself fun hid => ?_
    rw [hid, hr] at found
    cases found
    exact ⟨same, fun hx => executed.trans hx⟩
  | approves x q call found records expiry calls =>
    rw [records]
    refine Table.exists_set hr hself fun hid => ?_
    rw [hid, hr] at found
    cases found
    exact ⟨⟨rfl, rfl, rfl, rfl⟩, fun hx => hx⟩
  | executes x q call found records expiry calls =>
    rw [records]
    refine Table.exists_set hr hself fun hid => ?_
    rw [hid, hr] at found
    cases found
    exact ⟨⟨rfl, rfl, rfl, rfl⟩, fun _ => rfl⟩
  | idle records expiry calls =>
    rw [records]
    exact ⟨r, hr, hself⟩

end Steps

/-! ## Where upgrade records come from -/

/-- Every upgrade record was proposed as it is. The expiry of an approved one is
its time-lock, and it was approved by a call. -/
structure Provenance (s₀ : Storage Address) (past : List (Input Address)) (s : Storage Address) :
    Prop where
  proposed : ∀ id r, s.upgradeProposal.get id = some r →
    Occurs (Proposes s₀ id r) past ∧ r.votingEndLedger.val < r.timelockLedger.val
  approved : ∀ id r, s.upgradeProposal.get id = some r → r.approved = true →
    s.timelockExpiry.get id = some r.timelockLedger ∧ Occurs (Approves s₀ id) past

section Provenance

variable {s₀ s s' : Storage Address} {past : List (Input Address)} {i : Input Address}

/-- A longer history explains the records too. -/
theorem Provenance.older (hp : Provenance s₀ past s) (i : Input Address) :
    Provenance s₀ (i :: past) s := by
  refine ⟨fun id r hr => ?_, fun id r hr hx => ?_⟩
  · obtain ⟨ho, hlock⟩ := hp.proposed id r hr
    exact ⟨ho.cons i, hlock⟩
  · obtain ⟨hexpiry, ho⟩ := hp.approved id r hr hx
    exact ⟨hexpiry, ho.cons i⟩

theorem Proposes.congr {id : U64} {r r' : UpgradeProposalRecord Address}
    {earlier : List (Input Address)} (hr : SameUpgrade r r') (h : Proposes s₀ id r earlier i) :
    Proposes s₀ id r' earlier i := by
  obtain ⟨ha, hn, proposer, hcall⟩ := h
  refine ⟨ha, hn, proposer, ?_⟩
  rw [hr.contractAddress, hr.newWasmHash, hr.votingEndLedger, hr.timelockLedger]
  exact hcall

/-- A table of records in which one record was replaced by one with the same
constant parts. -/
theorem Provenance.replace (hp : Provenance s₀ past s) {id : U64}
    {r q : UpgradeProposalRecord Address} (hr : s.upgradeProposal.get id = some r)
    (hsame : SameUpgrade r q) (hset : s'.upgradeProposal = s.upgradeProposal.set id q) :
    ∀ x q', s'.upgradeProposal.get x = some q' →
      Occurs (Proposes s₀ x q') (i :: past) ∧ q'.votingEndLedger.val < q'.timelockLedger.val := by
  rw [hset]
  refine Table.forall_set (hp.older i).proposed ?_
  obtain ⟨⟨j, e, hsuf, hprop⟩, hlock⟩ := hp.proposed id r hr
  refine ⟨Occurs.cons i ⟨j, e, hsuf, hprop.congr hsame⟩, ?_⟩
  rw [hsame.votingEndLedger, hsame.timelockLedger]
  exact hlock

theorem Provenance.step (hp : Provenance s₀ past (after exec s₀ past))
    (h : exec (after exec s₀ past) i = .ok s') : Provenance s₀ (i :: past) s' := by
  obtain ⟨hproposed, hold⟩ := hp.older i
  cases exec_upgrade_effect h with
  | proposes id r proposer call next unapproved lock records expiry calls =>
    constructor
    · rw [records]
      exact Table.forall_set hproposed ⟨Occurs.head ⟨⟨s', h⟩, next, proposer, call⟩, lock⟩
    · rw [records, expiry]
      refine Table.forall_set hold ?_
      rw [unapproved]
      exact nofun
  | votes id r q found same approved executed records expiry calls =>
    refine ⟨hp.replace found same records, ?_⟩
    rw [records, expiry]
    refine Table.forall_set hold fun hx => ?_
    rw [same.timelockLedger]
    exact hold id r found (approved.symm.trans hx)
  | approves id r call found records expiry calls =>
    have hsame : SameUpgrade r { r with approved := true } := ⟨rfl, rfl, rfl, rfl⟩
    refine ⟨hp.replace found hsame records, ?_⟩
    intro x q hq hx
    rw [records, Table.get_set] at hq
    rw [expiry, Table.get_set]
    split at hq
    · next hid =>
      cases hq
      rw [if_pos hid, hid]
      exact ⟨rfl, Occurs.head ⟨⟨s', h⟩, call⟩⟩
    · next hid =>
      rw [if_neg hid]
      exact hold x q hq hx
  | executes id r call found records expiry calls =>
    have hsame : SameUpgrade r { r with executed := true } := ⟨rfl, rfl, rfl, rfl⟩
    refine ⟨hp.replace found hsame records, ?_⟩
    rw [records, expiry]
    exact Table.forall_set hold fun hx => hold id r found hx
  | idle records expiry calls =>
    constructor
    · rw [records]
      exact hproposed
    · rw [records, expiry]
      exact hold

theorem provenance_after {timelockLedgers : U32} (h : Initialised timelockLedgers s₀)
    (past : List (Input Address)) : Provenance s₀ past (after exec s₀ past) := by
  refine after_history (P := fun past s => Provenance s₀ past s) ?_ ?_ ?_ past
  · obtain ⟨env, admin, tokenContract, h⟩ := h
    obtain ⟨_, _, _, rfl⟩ := initializeContract_ok.mp h
    exact ⟨fun id r hr => absurd hr Table.get_empty_ne_some,
      fun id r hr => absurd hr Table.get_empty_ne_some⟩
  · rintro past i s s' rfl hp he
    exact hp.step he
  · rintro past i s t rfl hp _
    exact hp.older i

end Provenance

/-! ## Approvals -/

section Approvals

variable {timelockLedgers : U32} {s₀ : Storage Address} {past : List (Input Address)}

omit [DecidableEq Address] in
theorem NondecreasingLedgers.le {i j : Input Address} {e f : List (Input Address)}
    (h : NondecreasingLedgers past) (hi : i :: e <:+ past) (hj : j :: f <:+ e) :
    j.env.sequence.val ≤ i.env.sequence.val := by
  have hpair := List.Pairwise.sublist hi.sublist h
  exact List.rel_of_pairwise_cons hpair (hj.subset List.mem_cons_self)

/-- From an approval on, the poll of the upgrade stays as it was approved. -/
theorem Approves.frozen (h : Initialised timelockLedgers s₀) (hmono : NondecreasingLedgers past)
    {id : U64} {f : List (Input Address)} {j : Input Address} (hj : j :: f <:+ past)
    (ha : Approves s₀ id f j) :
    ∃ r, getUpgradeProposal (after exec s₀ f) id = some r ∧
      r.votingEndLedger.val ≤ j.env.sequence.val ∧ r.votesAgainst.val < r.votesFor.val ∧
      (after exec s₀ past).poll .upgrade id = some r.poll := by
  obtain ⟨⟨s', hs'⟩, hcall⟩ := ha
  have hok := hs'
  rw [exec, hcall] at hok
  obtain ⟨r, hr, hend, _, hpassed, _⟩ := approveUpgrade_ok hok
  have hclosed : s'.poll .upgrade id = some r.poll :=
    (polled_after h f).closed hs' .upgrade (poll_upgrade hr) hend
  refine ⟨r, hr, hend, hpassed, ?_⟩
  refine after_kept (P := fun s : Storage Address => s.poll .upgrade id = some r.poll) hj ?_ ?_
  · rw [after, apply_ok hs']
    exact hclosed
  · intro k g u hk hg hp hu
    exact (polled_after h g).closed hu .upgrade hp (hend.trans (hmono.le hk hg))

/-- The constant parts of an upgrade record stay. -/
theorem sameUpgrade_after (h : Initialised timelockLedgers s₀) {id : U64}
    {f : List (Input Address)} (hf : f <:+ past) {r : UpgradeProposalRecord Address}
    (hr : getUpgradeProposal (after exec s₀ f) id = some r) :
    ∃ r', getUpgradeProposal (after exec s₀ past) id = some r' ∧ SameUpgrade r r' := by
  refine after_kept (P := fun s => ∃ r', getUpgradeProposal s id = some r' ∧ SameUpgrade r r')
    hf ⟨r, hr, .refl r⟩ ?_
  rintro k g u _ _ ⟨r', hr', hsame⟩ hu
  obtain ⟨q, hq, hsame', _⟩ := (polled_after h g).upgrade_step hu hr'
  exact ⟨q, hq, hsame.trans hsame'⟩

end Approvals

/-! ## Executions -/

/-- Proposals are executed at most once, after their voting end and having passed. -/
structure ProposalSafety (s₀ : Storage Address) (past : List (Input Address)) : Prop where
  once : ∀ id i e j f, i :: e <:+ past → ExecutesProposal s₀ id e i → j :: f <:+ past →
    ExecutesProposal s₀ id f j → i :: e = j :: f
  passed : ∀ id i e, i :: e <:+ past → ExecutesProposal s₀ id e i →
    ∃ r, getProposal (after exec s₀ e) id = some r ∧
      r.votingEndLedger.val ≤ i.env.sequence.val ∧ r.votesAgainst.val < r.votesFor.val

/-- What an execution of an upgrade rests on, where `r` is the record it finds. -/
structure Justified (s₀ : Storage Address) (id : U64) (e : List (Input Address))
    (i : Input Address) (r : UpgradeProposalRecord Address) : Prop where
  called : (after exec s₀ (i :: e)).upgradeCalls =
    (r.contractAddress, r.newWasmHash) :: (after exec s₀ e).upgradeCalls
  proposed : Occurs (Proposes s₀ id r) e
  approved : Occurs (Approves s₀ id) e
  /-- Every approval so far came after the voting end and found the same tallies. -/
  approvals : ∀ j f, j :: f <:+ e → Approves s₀ id f j →
    r.votingEndLedger.val ≤ j.env.sequence.val ∧
      ∃ r₀, getUpgradeProposal (after exec s₀ f) id = some r₀ ∧ r₀.votesFor = r.votesFor ∧
        r₀.votesAgainst = r.votesAgainst
  unlocked : r.timelockLedger.val ≤ i.env.sequence.val
  lock : r.votingEndLedger.val < r.timelockLedger.val
  passed : r.votesAgainst.val < r.votesFor.val

/-- Upgrades are executed at most once, and only as they were proposed and
approved; no other call makes an `upgrade` call. -/
structure UpgradeSafety (s₀ : Storage Address) (past : List (Input Address)) : Prop where
  once : ∀ id i e j f, i :: e <:+ past → ExecutesUpgrade s₀ id e i → j :: f <:+ past →
    ExecutesUpgrade s₀ id f j → i :: e = j :: f
  only : ∀ i e, i :: e <:+ past →
    (after exec s₀ (i :: e)).upgradeCalls ≠ (after exec s₀ e).upgradeCalls →
    ∃ id, ExecutesUpgrade s₀ id e i
  justified : ∀ id i e, i :: e <:+ past → ExecutesUpgrade s₀ id e i →
    ∃ r, getUpgradeProposal (after exec s₀ e) id = some r ∧ Justified s₀ id e i r

section Executions

variable {timelockLedgers : U32} {s₀ : Storage Address} {past : List (Input Address)}

theorem proposal_once (h : Initialised timelockLedgers s₀) {id : U64} {i j : Input Address}
    {e f : List (Input Address)} (hi : i :: e <:+ past) (hei : ExecutesProposal s₀ id e i)
    (hj : j :: f <:+ past) (hej : ExecutesProposal s₀ id f j) : i :: e = j :: f := by
  refine accepted_once (fun _ i => i.call = .executeProposal id)
    (fun s => ∃ r, s.proposal.get id = some r ∧ r.executed = true) ?_ ?_ ?_
    hi hei.2 hei.1 hj hej.2 hej.1
  · intro s i s' hq he
    rw [exec, hq] at he
    obtain ⟨r, _, _, _, _, rfl⟩ := executeProposal_ok he
    exact ⟨_, Table.get_set_self _ _ _, rfl⟩
  · rintro e i s' _ ⟨r, hr, hx⟩ he
    exact (polled_after h e).proposal_step he hr hx
  · rintro s i s' hq ⟨r, hr, hx⟩ he
    rw [exec, hq] at he
    obtain ⟨r', hr', _, hx', _⟩ := executeProposal_ok he
    rw [hr] at hr'
    cases hr'
    rw [hx] at hx'
    cases hx'

theorem upgrade_once (h : Initialised timelockLedgers s₀) {id : U64} {i j : Input Address}
    {e f : List (Input Address)} (hi : i :: e <:+ past) (hei : ExecutesUpgrade s₀ id e i)
    (hj : j :: f <:+ past) (hej : ExecutesUpgrade s₀ id f j) : i :: e = j :: f := by
  refine accepted_once (fun _ i => i.call = .executeUpgrade id)
    (fun s => ∃ r, s.upgradeProposal.get id = some r ∧ r.executed = true) ?_ ?_ ?_
    hi hei.2 hei.1 hj hej.2 hej.1
  · intro s i s' hq he
    rw [exec, hq] at he
    obtain ⟨r, expiry, _, _, _, _, _, rfl⟩ := executeUpgrade_ok he
    exact ⟨_, Table.get_set_self _ _ _, rfl⟩
  · rintro e i s' _ ⟨r, hr, hx⟩ he
    obtain ⟨r', hr', _, hkeep⟩ := (polled_after h e).upgrade_step he hr
    exact ⟨r', hr', hkeep hx⟩
  · rintro s i s' hq ⟨r, hr, hx⟩ he
    rw [exec, hq] at he
    obtain ⟨r', expiry, hr', _, hx', _⟩ := executeUpgrade_ok he
    rw [hr] at hr'
    cases hr'
    rw [hx] at hx'
    cases hx'

theorem upgrade_only {i : Input Address} {e : List (Input Address)}
    (hcalls : (after exec s₀ (i :: e)).upgradeCalls ≠ (after exec s₀ e).upgradeCalls) :
    ∃ id, ExecutesUpgrade s₀ id e i := by
  cases he : exec (after exec s₀ e) i with
  | error t =>
    rw [after, apply_error he] at hcalls
    exact absurd rfl hcalls
  | ok s' =>
    rw [after, apply_ok he] at hcalls
    cases exec_upgrade_effect he with
    | executes id r call => exact ⟨id, ⟨s', he⟩, call⟩
    | proposes _ _ _ _ _ _ _ _ _ calls => exact absurd calls hcalls
    | votes _ _ _ _ _ _ _ _ _ calls => exact absurd calls hcalls
    | approves _ _ _ _ _ _ calls => exact absurd calls hcalls
    | idle _ _ calls => exact absurd calls hcalls

theorem upgrade_justified (h : Initialised timelockLedgers s₀) {id : U64} {i : Input Address}
    {e : List (Input Address)} (hmono : NondecreasingLedgers e)
    (hexec : ExecutesUpgrade s₀ id e i) :
    ∃ r, getUpgradeProposal (after exec s₀ e) id = some r ∧ Justified s₀ id e i r := by
  obtain ⟨⟨s', hs'⟩, hcall⟩ := hexec
  have hok := hs'
  rw [exec, hcall] at hok
  obtain ⟨r, expiry, hr, happroved, _, hexpiry, hle, rfl⟩ := executeUpgrade_ok hok
  have hp := provenance_after h e
  obtain ⟨hproposed, hlock⟩ := hp.proposed id r hr
  obtain ⟨htime, hoccurs⟩ := hp.approved id r hr happroved
  rw [hexpiry] at htime
  cases htime
  -- the poll found now is the poll of any approval
  have hsame : ∀ j f, j :: f <:+ e → Approves s₀ id f j →
      ∃ r₀, getUpgradeProposal (after exec s₀ f) id = some r₀ ∧
        r₀.votingEndLedger.val ≤ j.env.sequence.val ∧ r₀.votesAgainst.val < r₀.votesFor.val ∧
        r₀.poll = r.poll := by
    intro j f hj ha
    obtain ⟨r₀, hr₀, hend, hpassed, hpoll⟩ := ha.frozen h hmono hj
    rw [poll_upgrade hr] at hpoll
    exact ⟨r₀, hr₀, hend, hpassed, (Option.some.inj hpoll).symm⟩
  refine ⟨r, hr, ⟨?_, hproposed, hoccurs, ?_, hle, hlock, ?_⟩⟩
  · rw [after, apply_ok hs']
    rfl
  · intro j f hj ha
    obtain ⟨r₀, hr₀, hend, _, hpoll⟩ := hsame j f hj ha
    have hvotingEnd : r₀.votingEndLedger = r.votingEndLedger := congrArg Poll.votingEnd hpoll
    rw [← hvotingEnd]
    exact ⟨hend, r₀, hr₀, congrArg Poll.votesFor hpoll, congrArg Poll.votesAgainst hpoll⟩
  · obtain ⟨j, f, hj, ha⟩ := hoccurs
    obtain ⟨r₀, _, _, hpassed, hpoll⟩ := hsame j f hj ha
    have hfor : r₀.votesFor = r.votesFor := congrArg Poll.votesFor hpoll
    have hagainst : r₀.votesAgainst = r.votesAgainst := congrArg Poll.votesAgainst hpoll
    rw [← hfor, ← hagainst]
    exact hpassed

/-- In every run from `initialize` over nondecreasing ledgers, proposals and
upgrades are executed at most once, and only when and as they may be. -/
theorem execution_safe (h : Initialised timelockLedgers s₀) (hmono : NondecreasingLedgers past) :
    ProposalSafety s₀ past ∧ UpgradeSafety s₀ past := by
  refine ⟨⟨?_, ?_⟩, ⟨?_, ?_, ?_⟩⟩
  · intro id i e j f hi hei hj hej
    exact proposal_once h hi hei hj hej
  · rintro id i e _ ⟨⟨s', hs'⟩, hcall⟩
    rw [exec, hcall] at hs'
    obtain ⟨r, hr, hend, _, hpassed, _⟩ := executeProposal_ok hs'
    exact ⟨r, hr, hend, hpassed⟩
  · intro id i e j f hi hei hj hej
    exact upgrade_once h hi hei hj hej
  · intro i e _ hcalls
    exact upgrade_only hcalls
  · intro id i e hi hexec
    have hmono' : NondecreasingLedgers e :=
      List.Pairwise.sublist ((List.suffix_cons i e).trans hi).sublist hmono
    exact upgrade_justified h hmono' hexec

end Executions

/-- Holder 2 proposes an upgrade of contract 7 and votes for it; it is approved
twice and executed after its time-lock. -/
def exampleUpgrade : List (Input Nat) :=
  [exampleInput (.lit 61) [] (.executeUpgrade (.lit 1)),
    exampleInput (.lit 11) [] (.approveUpgrade (.lit 1)),
    exampleInput (.lit 10) [] (.approveUpgrade (.lit 1)),
    exampleInput (.lit 5) [2] (.voteUpgrade 2 (.lit 1) true),
    exampleInput (.lit 4) [2]
      (.proposeUpgrade 2 7 (Vector.replicate 32 1) (.lit 10) (.lit 61))]

theorem execution_safe_upgrade : ∃ r,
    getUpgradeProposal (after exec exampleGovernance exampleUpgrade.tail) (.lit 1) = some r ∧
      Justified exampleGovernance (.lit 1) exampleUpgrade.tail
        (exampleInput (.lit 61) [] (.executeUpgrade (.lit 1))) r := by
  have hmono : NondecreasingLedgers exampleUpgrade := by
    unfold NondecreasingLedgers
    decide
  obtain ⟨_, hsafe⟩ := execution_safe exampleGovernance_initialised hmono
  have haccepted : Accepted exec exampleGovernance exampleUpgrade.tail
      (exampleInput (.lit 61) [] (.executeUpgrade (.lit 1))) := by decide +kernel
  exact hsafe.justified (.lit 1) _ _ (List.suffix_refl _) ⟨haccepted, rfl⟩

end Scoopdope.Governance

/-!
## Governance: the configured time-lock

`initialize` stores a time-lock in ledgers, and nothing reads it: the ledger an
upgrade waits for is the one its proposer chose. An execution comes at least the
configured time after the approvals exactly as far as the proposer chose so.
`timelock_enforced`: it does in every run without a `ShortApproval`.
`ShortApproval.executable`: after a short approval an execution comes too early.
-/

namespace Scoopdope.Governance

open Soroban

variable {Address : Type} [DecidableEq Address]

/-- Every execution of an upgrade comes at least `delay` ledgers after every
approval of it. -/
def TimelockEnforced (delay : U32) (s₀ : Storage Address) (past : List (Input Address)) : Prop :=
  ∀ id i e, i :: e <:+ past → ExecutesUpgrade s₀ id e i →
    ∀ j f, j :: f <:+ e → Approves s₀ id f j →
      j.env.sequence.val + delay.val ≤ i.env.sequence.val

/-- An approval, of an upgrade that has passed, less than `delay` ledgers before
the ledger its proposer chose. -/
def ShortApproval (delay : U32) (s : Storage Address) (i : Input Address) : Prop :=
  ∃ id r, i.call = .approveUpgrade id ∧ getUpgradeProposal s id = some r ∧
    r.votingEndLedger.val ≤ i.env.sequence.val ∧ r.executed = false ∧
    r.votesAgainst.val < r.votesFor.val ∧
    r.timelockLedger.val < i.env.sequence.val + delay.val

variable {delay : U32} {s₀ : Storage Address} {past : List (Input Address)}

/-- In every run from `initialize` without a short approval, executions wait for
the configured time-lock. -/
theorem timelock_enforced (h : Initialised delay s₀)
    (hg : Guarded (fun earlier i => ¬ ShortApproval delay (after exec s₀ earlier) i) past) :
    TimelockEnforced delay s₀ past := by
  rintro id i e hi ⟨⟨s', hs'⟩, hcall⟩ j f hj ⟨⟨t', ht'⟩, happroves⟩
  have he : e <:+ past := (List.suffix_cons i e).trans hi
  obtain ⟨hlong, _⟩ := hg.suffix (hj.trans he)
  rw [exec, happroves] at ht'
  obtain ⟨r, hr, hend, hunexecuted, hpassed, _⟩ := approveUpgrade_ok ht'
  have hlock : j.env.sequence.val + delay.val ≤ r.timelockLedger.val := by
    by_contra hshort
    exact hlong ⟨id, r, happroves, hr, hend, hunexecuted, hpassed, not_le.mp hshort⟩
  -- the record that is executed has the time-lock of the one that was approved
  obtain ⟨r', hr', hsame⟩ := sameUpgrade_after h ((List.suffix_cons j f).trans hj) hr
  rw [exec, hcall] at hs'
  obtain ⟨q, expiry, hq, happroved, _, hexpiry, hle, _⟩ := executeUpgrade_ok hs'
  have hrq : r' = q := Option.some.inj (hr'.symm.trans hq)
  obtain ⟨htime, _⟩ := (provenance_after h e).approved id q hq happroved
  rw [hexpiry] at htime
  cases htime
  rw [← hrq, hsame.timelockLedger] at hle
  exact hlock.trans hle

omit [DecidableEq Address] in
theorem approveUpgrade_accepts {env : Env Address} {s : Storage Address} {id : U64}
    {r : UpgradeProposalRecord Address} (hr : getUpgradeProposal s id = some r)
    (hend : r.votingEndLedger.val ≤ env.sequence.val) (hunexecuted : r.executed = false)
    (hpassed : r.votesAgainst.val < r.votesFor.val) :
    ∃ s', approveUpgrade env s id = .ok s' ∧
      s'.upgradeProposal.get id = some { r with approved := true } ∧
      s'.timelockExpiry.get id = some r.timelockLedger := by
  simp only [approveUpgrade, bind_eq_ok, expect_eq_ok, assert_eq_ok, exists_const, pure_eq_ok]
  exact ⟨_, ⟨r, hr, hend, hunexecuted, hpassed, rfl⟩, Table.get_set_self _ _ _,
    Table.get_set_self _ _ _⟩

omit [DecidableEq Address] in
theorem executeUpgrade_accepts {env : Env Address} {peers : Peers Address} {s : Storage Address}
    {id : U64} {r : UpgradeProposalRecord Address} {expiry : U32}
    (hr : s.upgradeProposal.get id = some r) (happroved : r.approved = true)
    (hunexecuted : r.executed = false) (hexpiry : s.timelockExpiry.get id = some expiry)
    (hle : expiry.val ≤ env.sequence.val)
    (hpeer : peers.upgrade r.contractAddress r.newWasmHash = .ok ()) :
    ∃ s', executeUpgrade env peers s id = .ok s' := by
  simp only [executeUpgrade, bind_eq_ok, expect_eq_ok, assert_eq_ok, exists_const, pure_eq_ok]
  exact ⟨_, r, hr, happroved, hunexecuted, expiry, hexpiry, hle, (), hpeer, rfl⟩

/-- After a short approval some execution, at a ledger not below it, is accepted
before the configured time is over. -/
theorem ShortApproval.executable (h : Initialised delay s₀) {j : Input Address}
    (hshort : ShortApproval delay (after exec s₀ past) j) :
    ∃ id i, ExecutesUpgrade s₀ id (j :: past) i ∧ Approves s₀ id past j ∧
      j.env.sequence.val ≤ i.env.sequence.val ∧
      i.env.sequence.val < j.env.sequence.val + delay.val := by
  obtain ⟨id, r, hcall, hr, hend, hunexecuted, hpassed, hlock⟩ := hshort
  obtain ⟨s', hs', hrecord, hexpiry⟩ := approveUpgrade_accepts hr hend hunexecuted hpassed
  have happroves : exec (after exec s₀ past) j = .ok s' := by
    rw [exec, hcall]
    exact hs'
  have hdelay : 0 < delay.val := by
    obtain ⟨_, _, _, hinit⟩ := h
    exact (initializeContract_ok.mp hinit).2.1
  -- the first ledger from the approval on at which the execution is unlocked
  have hledger : ∃ ledger : U32, j.env.sequence.val ≤ ledger.val ∧
      r.timelockLedger.val ≤ ledger.val ∧ ledger.val < j.env.sequence.val + delay.val := by
    by_cases hle : r.timelockLedger.val ≤ j.env.sequence.val
    · exact ⟨j.env.sequence, le_refl _, hle, by omega⟩
    · exact ⟨r.timelockLedger, by omega, le_refl _, hlock⟩
  obtain ⟨ledger, hafter, hunlocked, hearly⟩ := hledger
  let i : Input Address :=
    { env := { j.env with sequence := ledger }
      peers := { j.peers with upgrade := fun _ _ => .ok () }
      call := .executeUpgrade id }
  have hexecutes : ∃ u, exec (after exec s₀ (j :: past)) i = .ok u := by
    rw [after, apply_ok happroves]
    exact executeUpgrade_accepts hrecord rfl hunexecuted hexpiry hunlocked rfl
  exact ⟨id, i, ⟨hexecutes, rfl⟩, ⟨⟨s', happroves⟩, hcall⟩, hafter, hearly⟩

/-- The example upgrade waits 50 ledgers after both its approvals. -/
theorem timelock_enforced_upgrade :
    TimelockEnforced (.lit 50) exampleGovernance exampleUpgrade := by
  -- the record that both approvals find waits for ledger 61
  have hlock : ∀ e ∈ [exampleUpgrade.tail.tail, exampleUpgrade.tail.tail.tail],
      (getUpgradeProposal (after exec exampleGovernance e) (.lit 1)).map
        UpgradeProposalRecord.timelockLedger = some (.lit 61) := by decide +kernel
  have hlong : ∀ e ∈ [exampleUpgrade.tail.tail, exampleUpgrade.tail.tail.tail], ∀ r,
      getUpgradeProposal (after exec exampleGovernance e) (.lit 1) = some r →
      r.timelockLedger.val = 61 := by
    intro e he r hr
    have := hlock e he
    rw [hr, Option.map_some, Option.some.injEq] at this
    rw [this]
    rfl
  refine timelock_enforced exampleGovernance_initialised ⟨?_, ?_, ?_, ?_, ?_, trivial⟩
  · rintro ⟨_, _, hcall, _⟩
    cases hcall
  · rintro ⟨_, r, hcall, hr, _, _, _, hshort⟩
    cases hcall
    rw [hlong exampleUpgrade.tail.tail List.mem_cons_self r hr] at hshort
    exact absurd hshort (by decide)
  · rintro ⟨_, r, hcall, hr, _, _, _, hshort⟩
    cases hcall
    rw [hlong _ (List.mem_cons_of_mem _ List.mem_cons_self) r hr] at hshort
    exact absurd hshort (by decide)
  · rintro ⟨_, _, hcall, _⟩
    cases hcall
  · rintro ⟨_, _, hcall, _⟩
    cases hcall

/-- An upgrade of contract 7 with a time-lock one ledger after the voting end,
approved and executed at that ledger. -/
def hastyUpgrade : List (Input Nat) :=
  [exampleInput (.lit 11) [] (.executeUpgrade (.lit 1)),
    exampleInput (.lit 11) [] (.approveUpgrade (.lit 1)),
    exampleInput (.lit 5) [2] (.voteUpgrade 2 (.lit 1) true),
    exampleInput (.lit 4) [2]
      (.proposeUpgrade 2 7 (Vector.replicate 32 1) (.lit 10) (.lit 11))]

/-- The configured time-lock is 50 ledgers, and the execution did not wait. -/
theorem hasty_upgrade_executed : Initialised (.lit 50) exampleGovernance ∧
    NondecreasingLedgers hastyUpgrade ∧
    ¬ TimelockEnforced (.lit 50) exampleGovernance hastyUpgrade := by
  refine ⟨exampleGovernance_initialised, by unfold NondecreasingLedgers; decide, fun h => ?_⟩
  have hexecuted : Accepted exec exampleGovernance hastyUpgrade.tail
      (exampleInput (.lit 11) [] (.executeUpgrade (.lit 1))) := by decide +kernel
  have happroved : Accepted exec exampleGovernance hastyUpgrade.tail.tail
      (exampleInput (.lit 11) [] (.approveUpgrade (.lit 1))) := by decide +kernel
  have hwait := h (.lit 1) _ _ (List.suffix_refl _) ⟨hexecuted, rfl⟩ _ _ (List.suffix_refl _)
    ⟨happroved, rfl⟩
  exact absurd hwait (by decide)

end Scoopdope.Governance

import Scoopdope.Token.Contract

/-!
# Token: what one accepted call does

One lemma for each entry point: from a call that returned, the checks that
passed and the storage afterwards, written out. Later modules cite these and
do not unfold the entry points.
-/

namespace Scoopdope.Token

open Soroban

variable {Address : Type}

/-! ## Internal helpers -/

theorem addSupply_ok {s s' : Storage Address} {amount : I128} :
    addSupply s amount = .ok s' ↔
      ∃ w : I128, w.val = (totalSupply s).val + amount.val ∧ w.val ≤ maxSupply.val ∧
        s' = { s with totalSupply := some w } := by
  simp only [addSupply, bind_eq_ok, expect_eq_ok, BoundedInt.checkedAdd_eq_some, assert_eq_ok,
    exists_const, pure_eq_ok, BoundedInt.le_def, @eq_comm _ s']

theorem subSupply_ok {s s' : Storage Address} {amount : I128} :
    subSupply s amount = .ok s' ↔
      ∃ w : I128, w.val = (totalSupply s).val - amount.val ∧
        s' = { s with totalSupply := some w } := by
  simp only [subSupply, bind_eq_ok, expect_eq_ok, BoundedInt.checkedSub_eq_some, pure_eq_ok,
    @eq_comm _ s']

theorem updateBurnStats_ok {s s' : Storage Address} {amount : I128} :
    updateBurnStats s amount = .ok s' ↔
      ∃ stats : BurnStats,
        stats.totalBurned.val = (getBurnStats s).totalBurned.val + amount.val ∧
        stats.burnCount.val = (getBurnStats s).burnCount.val + 1 ∧
        s' = { s with burnStats := some stats } := by
  simp only [updateBurnStats, bind_eq_ok, expect_eq_ok, BoundedInt.checkedAdd_eq_some, pure_eq_ok,
    BoundedInt.lit_val]
  constructor
  · rintro ⟨total, htotal, count, hcount, rfl⟩
    exact ⟨⟨total, count⟩, htotal, hcount, rfl⟩
  · rintro ⟨⟨total, count⟩, htotal, hcount, rfl⟩
    exact ⟨total, htotal, count, hcount, rfl⟩

theorem acquireLock_ok {s s' : Storage Address} :
    acquireLock s = .ok s' ↔
      s.locked.getD false = false ∧ s' = { s with locked := some true } := by
  simp only [acquireLock, bind_eq_ok, assert_eq_ok, exists_const, pure_eq_ok, @eq_comm _ s']

variable [DecidableEq Address]

/-- Both halves of a credit: a new balance and a new supply. -/
def Storage.credit (s : Storage Address) (addr : Address) (bal supply : I128) : Storage Address :=
  { s with balance := s.balance.set addr bal, totalSupply := some supply }

/-- The three writes of a burn. -/
def Storage.debit (s : Storage Address) (addr : Address) (bal supply : I128) (stats : BurnStats) :
    Storage Address :=
  { s with
    balance := s.balance.set addr bal, totalSupply := some supply, burnStats := some stats }

/-- The figures that crediting `x` to `addr` writes. -/
structure Credits (s : Storage Address) (addr : Address) (x bal supply : I128) : Prop where
  bal_eq : bal.val = (balance s addr).val + x.val
  supply_eq : supply.val = (totalSupply s).val + x.val
  cap : supply.val ≤ maxSupply.val

/-- The figures that burning `x` from `addr` writes. -/
structure Debits (s : Storage Address) (addr : Address) (x bal supply : I128) (stats : BurnStats) :
    Prop where
  bal_eq : bal.val = (balance s addr).val - x.val
  supply_eq : supply.val = (totalSupply s).val - x.val
  burned_eq : stats.totalBurned.val = (getBurnStats s).totalBurned.val + x.val

/-- The balances that moving `x` between two accounts writes, the second after
the first. -/
def Moves (s : Storage Address) (from_ to_ : Address) (x : I128) (t : Table Address I128) :
    Prop :=
  ∃ v w : I128, v.val = (balance s from_).val - x.val ∧
    w.val = ((s.balance.set from_ v).amount to_).val + x.val ∧
    t = (s.balance.set from_ v).set to_ w

theorem addBalance_ok {s s' : Storage Address} {addr : Address} {amount : I128} :
    addBalance s addr amount = .ok s' ↔
      ∃ v : I128, v.val = (balance s addr).val + amount.val ∧
        s' = { s with balance := s.balance.set addr v } := by
  simp only [addBalance, bind_eq_ok, expect_eq_ok, BoundedInt.checkedAdd_eq_some, pure_eq_ok,
    @eq_comm _ s']

theorem subBalance_ok {s s' : Storage Address} {addr : Address} {amount : I128} :
    subBalance s addr amount = .ok s' ↔
      ∃ v : I128, v.val = (balance s addr).val - amount.val ∧
        s' = { s with balance := s.balance.set addr v } := by
  simp only [subBalance, bind_eq_ok, expect_eq_ok, BoundedInt.checkedSub_eq_some, pure_eq_ok,
    @eq_comm _ s']

theorem deductAllowance_ok {s s' : Storage Address} {owner spender : Address}
    {allowed amount : I128} :
    deductAllowance s owner spender allowed amount = .ok s' ↔
      ∃ v : I128, v.val = allowed.val - amount.val ∧
        s' = { s with allowance := s.allowance.set (owner, spender) v } := by
  simp only [deductAllowance, bind_eq_ok, expect_eq_ok, BoundedInt.checkedSub_eq_some, pure_eq_ok,
    @eq_comm _ s']

/-- Crediting an account and the supply, the common tail of the minting calls. -/
theorem credit_ok {s s₁ s₂ : Storage Address} {addr : Address} {x : I128}
    (h₁ : addBalance s addr x = .ok s₁) (h₂ : addSupply s₁ x = .ok s₂) :
    ∃ v w, Credits s addr x v w ∧ s₂ = s.credit addr v w := by
  obtain ⟨v, hv, rfl⟩ := addBalance_ok.mp h₁
  obtain ⟨w, hw, hcap, rfl⟩ := addSupply_ok.mp h₂
  exact ⟨v, w, ⟨hv, hw, hcap⟩, rfl⟩

/-- The common tail of the two burning calls. -/
theorem debit_ok {s s₁ s₂ s₃ : Storage Address} {addr : Address} {x : I128}
    (h₁ : subBalance s addr x = .ok s₁) (h₂ : subSupply s₁ x = .ok s₂)
    (h₃ : updateBurnStats s₂ x = .ok s₃) :
    ∃ v w stats, Debits s addr x v w stats ∧ s₃ = s.debit addr v w stats := by
  obtain ⟨v, hv, rfl⟩ := subBalance_ok.mp h₁
  obtain ⟨w, hw, rfl⟩ := subSupply_ok.mp h₂
  obtain ⟨stats, hb, _, rfl⟩ := updateBurnStats_ok.mp h₃
  exact ⟨v, w, stats, ⟨hv, hw, hb⟩, rfl⟩

/-- The common tail of the two transferring calls. -/
theorem move_ok {s s₁ s₂ : Storage Address} {from_ to_ : Address} {x : I128}
    (h₁ : subBalance s from_ x = .ok s₁) (h₂ : addBalance s₁ to_ x = .ok s₂) :
    ∃ t, Moves s from_ to_ x t ∧ s₂ = { s with balance := t } := by
  obtain ⟨v, hv, rfl⟩ := subBalance_ok.mp h₁
  obtain ⟨w, hw, rfl⟩ := addBalance_ok.mp h₂
  exact ⟨_, ⟨v, w, hv, hw, rfl⟩, rfl⟩

/-! ## Entry points -/

section EntryPoints

variable {env : Env Address} {s s' : Storage Address}

theorem initializeContract_ok {admin : Address} :
    initializeContract env s admin = .ok s' ↔
      s.admin = none ∧ admin ∈ env.auths ∧
        s' = { s with admin := some admin, totalSupply := some 0 } := by
  simp only [initializeContract, bind_eq_ok, assert_eq_ok, Option.isSome_eq_false_iff,
    Option.isNone_iff_eq_none, Env.requireAuth_eq_ok, exists_const, pure_eq_ok, @eq_comm _ s']

theorem mint_ok {to_ : Address} {amount : I128} (h : mint env s to_ amount = .ok s') :
    0 < amount.val ∧ (∃ admin, s.admin = some admin ∧ admin ∈ env.auths) ∧
      ∃ v w, Credits s to_ amount v w ∧ s' = (s.credit to_ v w).publish
        [.symbol "mint", .symbol "to", .address to_] [.i128 amount] := by
  simp only [mint, bind_eq_ok, assert_eq_ok, unwrap_eq_ok, Env.requireAuth_eq_ok, pure_eq_ok,
    exists_const] at h
  obtain ⟨hpos, admin, hadmin, hauth, s₁, h₁, s₂, h₂, rfl⟩ := h
  obtain ⟨v, w, hc, rfl⟩ := credit_ok h₁ h₂
  exact ⟨hpos, ⟨admin, hadmin, hauth⟩, v, w, hc, rfl⟩

theorem burn_ok {from_ : Address} {amount : I128} (h : burn env s from_ amount = .ok s') :
    0 < amount.val ∧ from_ ∈ env.auths ∧ amount.val ≤ (balance s from_).val ∧
      ∃ v w stats, Debits s from_ amount v w stats ∧ s' = (s.debit from_ v w stats).publish
        [.symbol "burn", .symbol "from", .address from_] [.i128 amount] := by
  simp only [burn, bind_eq_ok, assert_eq_ok, Env.requireAuth_eq_ok, pure_eq_ok, exists_const] at h
  obtain ⟨hpos, hauth, hbal, s₁, h₁, s₂, h₂, s₃, h₃, rfl⟩ := h
  obtain ⟨v, w, stats, hd, rfl⟩ := debit_ok h₁ h₂ h₃
  exact ⟨hpos, hauth, hbal, v, w, stats, hd, rfl⟩

theorem burnFrom_ok {spender from_ : Address} {amount : I128}
    (h : burnFrom env s spender from_ amount = .ok s') :
    0 < amount.val ∧ spender ∈ env.auths ∧ amount.val ≤ (allowance s from_ spender).val ∧
      amount.val ≤ (balance s from_).val ∧
      ∃ rest v w stats, rest.val = (allowance s from_ spender).val - amount.val ∧
        Debits s from_ amount v w stats ∧
        s' = ({ s with allowance := s.allowance.set (from_, spender) rest }.debit from_ v w
          stats).publish [.symbol "burn", .symbol "from", .address from_] [.i128 amount] := by
  simp only [burnFrom, bind_eq_ok, assert_eq_ok, Env.requireAuth_eq_ok, pure_eq_ok, exists_const,
    deductAllowance_ok] at h
  obtain ⟨hpos, hauth, hallow, hbal, _, ⟨rest, hrest, rfl⟩, s₁, h₁, s₂, h₂, s₃, h₃, rfl⟩ := h
  obtain ⟨v, w, stats, hd, rfl⟩ := debit_ok h₁ h₂ h₃
  exact ⟨hpos, hauth, hallow, hbal, rest, v, w, stats, hrest, ⟨hd.1, hd.2, hd.3⟩, rfl⟩

theorem transfer_ok {from_ to_ : Address} {amount : I128}
    (h : transfer env s from_ to_ amount = .ok s') :
    0 < amount.val ∧ from_ ∈ env.auths ∧ amount.val ≤ (balance s from_).val ∧
      ∃ t, Moves s from_ to_ amount t ∧ s' = { s with balance := t }.publish
        [.symbol "transfer", .symbol "from", .address from_] [.address to_, .i128 amount] := by
  simp only [transfer, bind_eq_ok, assert_eq_ok, Env.requireAuth_eq_ok, pure_eq_ok,
    exists_const] at h
  obtain ⟨hpos, hauth, hbal, s₁, h₁, s₂, h₂, rfl⟩ := h
  obtain ⟨t, hm, rfl⟩ := move_ok h₁ h₂
  exact ⟨hpos, hauth, hbal, t, hm, rfl⟩

theorem approve_ok {owner spender : Address} {amount : I128}
    (h : approve env s owner spender amount = .ok s') :
    0 ≤ amount.val ∧ owner ∈ env.auths ∧
      s' = { s with allowance := s.allowance.set (owner, spender) amount }.publish
        [.symbol "approve", .symbol "owner", .address owner] [.address spender, .i128 amount] := by
  simp only [approve, bind_eq_ok, assert_eq_ok, Env.requireAuth_eq_ok, pure_eq_ok,
    exists_const] at h
  obtain ⟨hpos, hauth, rfl⟩ := h
  exact ⟨hpos, hauth, rfl⟩

theorem transferFrom_ok {spender from_ to_ : Address} {amount : I128}
    (h : transferFrom env s spender from_ to_ amount = .ok s') :
    0 < amount.val ∧ spender ∈ env.auths ∧ amount.val ≤ (allowance s from_ spender).val ∧
      amount.val ≤ (balance s from_).val ∧
      ∃ rest t, rest.val = (allowance s from_ spender).val - amount.val ∧
        Moves s from_ to_ amount t ∧
        s' = { s with
            allowance := s.allowance.set (from_, spender) rest, balance := t }.publish
          [.symbol "transfer", .symbol "from", .address from_] [.address to_, .i128 amount] := by
  simp only [transferFrom, bind_eq_ok, assert_eq_ok, Env.requireAuth_eq_ok, pure_eq_ok,
    exists_const, deductAllowance_ok] at h
  obtain ⟨hpos, hauth, hallow, hbal, _, ⟨rest, hrest, rfl⟩, s₁, h₁, s₂, h₂, rfl⟩ := h
  obtain ⟨t, hm, rfl⟩ := move_ok h₁ h₂
  exact ⟨hpos, hauth, hallow, hbal, rest, t, hrest, hm, rfl⟩

theorem createVesting_ok {admin beneficiary : Address} {totalAmount : I128}
    {cliffLedger endLedger : U32}
    (h : createVesting env s admin beneficiary totalAmount cliffLedger endLedger = .ok s') :
    admin ∈ env.auths ∧ s.admin = some admin ∧ 0 < totalAmount.val ∧
      env.sequence.val ≤ cliffLedger.val ∧ cliffLedger.val < endLedger.val ∧
      s' = { s with
        vesting := s.vesting.set beneficiary
          { beneficiary, totalAmount, startLedger := env.sequence, cliffLedger, endLedger,
            claimed := 0 } } := by
  simp only [createVesting, bind_eq_ok, assert_eq_ok, unwrap_eq_ok, Env.requireAuth_eq_ok,
    pure_eq_ok, exists_const] at h
  obtain ⟨hauth, admin', hadmin, rfl, hpos, hcliff, hend, rfl⟩ := h
  exact ⟨hauth, hadmin, hpos, hcliff, hend, rfl⟩

theorem claimVesting_ok {beneficiary : Address} (h : claimVesting env s beneficiary = .ok s') :
    beneficiary ∈ env.auths ∧ ∃ schedule vested claimable claimed,
      s.vesting.get beneficiary = some schedule ∧
      vestedAmount schedule env.sequence = .ok vested ∧
      claimable.val = vested.val - schedule.claimed.val ∧ 0 < claimable.val ∧
      claimed.val = schedule.claimed.val + claimable.val ∧
      ∃ v w, Credits s beneficiary claimable v w ∧
        s' = ({ s with vesting := s.vesting.set beneficiary { schedule with claimed } }.credit
          beneficiary v w).publish
          [.symbol "mint", .symbol "to", .address beneficiary] [.i128 claimable] := by
  simp only [claimVesting, bind_eq_ok, assert_eq_ok, expect_eq_ok, Env.requireAuth_eq_ok,
    pure_eq_ok, exists_const, BoundedInt.checkedSub_eq_some, BoundedInt.checkedAdd_eq_some] at h
  obtain ⟨hauth, schedule, hget, vested, hvested, claimable, hclaimable, hpos, claimed, hclaimed,
    s₁, h₁, s₂, h₂, rfl⟩ := h
  obtain ⟨v, w, hc, rfl⟩ := credit_ok h₁ h₂
  exact ⟨hauth, schedule, vested, claimable, claimed, hget, hvested, hclaimable, hpos, hclaimed,
    v, w, ⟨hc.1, hc.2, hc.3⟩, rfl⟩

theorem createVestingV2_ok {admin beneficiary : Address} {totalAmount : I128}
    {cliffLedger endLedger : U32} {vestingType : U8} {stepCount scheduleId : U32}
    (h : createVestingV2 env s admin beneficiary totalAmount cliffLedger endLedger vestingType
      stepCount = .ok (scheduleId, s')) :
    admin ∈ env.auths ∧ s.admin = some admin ∧ 0 < totalAmount.val ∧ vestingType.val ≤ 1 ∧
      env.sequence.val ≤ cliffLedger.val ∧ cliffLedger.val < endLedger.val ∧
      scheduleId = (s.vestingScheduleCount.get beneficiary).getD 0 ∧
      ∃ nextId : U32, nextId.val = scheduleId.val + 1 ∧
        s' = { s with
          vestingV2 := s.vestingV2.set (beneficiary, scheduleId)
            { id := scheduleId, beneficiary, totalAmount, startLedger := env.sequence, cliffLedger,
              endLedger, claimed := 0, vestingType, stepCount }
          vestingScheduleCount := s.vestingScheduleCount.set beneficiary nextId } := by
  simp only [createVestingV2, bind_eq_ok, assert_eq_ok, unwrap_eq_ok, Env.requireAuth_eq_ok,
    pure_eq_ok, exists_const, BoundedInt.add_eq_ok, BoundedInt.lit_val, Prod.mk.injEq] at h
  obtain ⟨hauth, admin', hadmin, rfl, hpos, htype, hcliff, hend, nextId, hnext, rfl, rfl⟩ := h
  exact ⟨hauth, hadmin, hpos, htype, hcliff, hend, rfl, nextId, hnext, rfl⟩

theorem claimVestingV2_ok {beneficiary : Address} {scheduleId : U32}
    (h : claimVestingV2 env s beneficiary scheduleId = .ok s') :
    beneficiary ∈ env.auths ∧ ∃ schedule vested claimable claimed,
      s.vestingV2.get (beneficiary, scheduleId) = some schedule ∧
      vestedAmountV2 schedule env.sequence = .ok vested ∧
      claimable.val = vested.val - schedule.claimed.val ∧ 0 < claimable.val ∧
      claimed.val = schedule.claimed.val + claimable.val ∧
      ∃ v w, Credits s beneficiary claimable v w ∧
        s' = ({ s with
            vestingV2 := s.vestingV2.set (beneficiary, scheduleId)
              { schedule with claimed } }.credit beneficiary v w).publish
          [.symbol "mint", .symbol "to", .address beneficiary] [.i128 claimable] := by
  simp only [claimVestingV2, bind_eq_ok, assert_eq_ok, expect_eq_ok, Env.requireAuth_eq_ok,
    pure_eq_ok, exists_const, BoundedInt.checkedSub_eq_some, BoundedInt.checkedAdd_eq_some] at h
  obtain ⟨hauth, schedule, hget, vested, hvested, claimable, hclaimable, hpos, claimed, hclaimed,
    s₁, h₁, s₂, h₂, rfl⟩ := h
  obtain ⟨v, w, hc, rfl⟩ := credit_ok h₁ h₂
  exact ⟨hauth, schedule, vested, claimable, claimed, hget, hvested, hclaimable, hpos, hclaimed,
    v, w, ⟨hc.1, hc.2, hc.3⟩, rfl⟩

theorem modifyVestingV2_ok {admin beneficiary : Address} {scheduleId newEndLedger : U32}
    (h : modifyVestingV2 env s admin beneficiary scheduleId newEndLedger = .ok s') :
    admin ∈ env.auths ∧ s.admin = some admin ∧ ∃ schedule,
      s.vestingV2.get (beneficiary, scheduleId) = some schedule ∧
      schedule.cliffLedger.val < newEndLedger.val ∧
      s' = { s with
        vestingV2 := s.vestingV2.set (beneficiary, scheduleId)
          { schedule with endLedger := newEndLedger } } := by
  simp only [modifyVestingV2, bind_eq_ok, assert_eq_ok, unwrap_eq_ok, expect_eq_ok,
    Env.requireAuth_eq_ok, pure_eq_ok, exists_const] at h
  obtain ⟨hauth, admin', hadmin, rfl, schedule, hget, hcliff, rfl⟩ := h
  exact ⟨hauth, hadmin, schedule, hget, hcliff, rfl⟩

theorem createAirdrop_ok {admin : Address} {totalAmount : I128} {expiryLedger campaignId : U32}
    {merkleRoot : Bytes32}
    (h : createAirdrop env s admin totalAmount expiryLedger merkleRoot = .ok (campaignId, s')) :
    admin ∈ env.auths ∧ 0 < totalAmount.val ∧ env.sequence.val < expiryLedger.val ∧
      campaignId = s.airdropCampaignCount.getD 0 ∧
      ∃ nextId : U32, nextId.val = campaignId.val + 1 ∧
        s' = { s with
          airdropCampaign := s.airdropCampaign.set campaignId
            { id := campaignId, totalAmount, claimedAmount := 0, expiryLedger, merkleRoot }
          airdropCampaignCount := some nextId }.publish
          [.symbol "airdrop", .symbol "created"]
          [.u32 campaignId, .i128 totalAmount, .u32 expiryLedger] := by
  simp only [createAirdrop, Airdrop.createAirdrop, bind_eq_ok, assert_eq_ok,
    Env.requireAuth_eq_ok, pure_eq_ok, exists_const, BoundedInt.add_eq_ok, BoundedInt.lit_val,
    Prod.mk.injEq] at h
  obtain ⟨hauth, hpos, hexp, nextId, hnext, rfl, rfl⟩ := h
  exact ⟨hauth, hpos, hexp, rfl, nextId, hnext, rfl⟩

theorem claimAirdrop_ok [Airdrop.XdrBytes Address] {campaignId : U32} {recipient : Address}
    {amount : I128} {proof : List Bytes32} {claimed : Bool}
    (h : claimAirdrop env s campaignId recipient amount proof = .ok (claimed, s')) :
    claimed = true ∧ recipient ∈ env.auths ∧ 0 < amount.val ∧ ∃ campaign claimedAmount,
      s.airdropCampaign.get campaignId = some campaign ∧
      env.sequence.val ≤ campaign.expiryLedger.val ∧
      s.airdropClaimed.get (campaignId, recipient) = none ∧
      Airdrop.verifyMerkleProof (Airdrop.computeLeaf recipient amount) campaign.merkleRoot proof
        = true ∧
      claimedAmount.val = campaign.claimedAmount.val + amount.val ∧
      claimedAmount.val ≤ campaign.totalAmount.val ∧
      ∃ v w, Credits s recipient amount v w ∧
        s' = ({ s with
            airdropCampaign := s.airdropCampaign.set campaignId { campaign with claimedAmount }
            airdropClaimed := s.airdropClaimed.set (campaignId, recipient) true }.publish
          [.symbol "airdrop", .symbol "claimed"]
          [.u32 campaignId, .address recipient, .i128 amount]).credit recipient v w := by
  simp only [claimAirdrop, Airdrop.claimAirdrop, bind_eq_ok, assert_eq_ok, expect_eq_ok,
    Env.requireAuth_eq_ok, pure_eq_ok, exists_const, BoundedInt.checkedAdd_eq_some,
    Table.has_eq_false] at h
  obtain ⟨_, ⟨hauth, hpos, campaign, hget, hexp, hfresh, hproof, claimedAmount, hclaimed, htotal,
    rfl⟩, h⟩ := h
  simp only [if_true, bind_eq_ok, pure_eq_ok, Prod.mk.injEq] at h
  obtain ⟨s₁, h₁, s₂, h₂, rfl, rfl⟩ := h
  obtain ⟨v, w, hc, rfl⟩ := credit_ok h₁ h₂
  exact ⟨rfl, hauth, hpos, campaign, claimedAmount, hget, hexp, hfresh, hproof, hclaimed, htotal,
    v, w, ⟨hc.1, hc.2, hc.3⟩, rfl⟩

theorem recoverUnclaimedAirdrop_ok {admin : Address} {campaignId : U32} {unclaimed : I128}
    (h : recoverUnclaimedAirdrop env s admin campaignId = .ok (unclaimed, s')) :
    admin ∈ env.auths ∧ ∃ campaign, s.airdropCampaign.get campaignId = some campaign ∧
      campaign.expiryLedger.val < env.sequence.val ∧
      unclaimed.val = campaign.totalAmount.val - campaign.claimedAmount.val ∧
      s' = s.publish [.symbol "airdrop", .symbol "recovered"]
        [.u32 campaignId, .i128 unclaimed] := by
  simp only [recoverUnclaimedAirdrop, Airdrop.recoverUnclaimed, bind_eq_ok, assert_eq_ok,
    expect_eq_ok, Env.requireAuth_eq_ok, pure_eq_ok, exists_const, BoundedInt.checkedSub_eq_some,
    Prod.mk.injEq] at h
  obtain ⟨hauth, campaign, hget, hexp, unclaimed', hu, rfl, rfl⟩ := h
  exact ⟨hauth, campaign, hget, hexp, hu, rfl⟩

theorem mintReward_ok {caller recipient : Address} {amount : I128}
    (h : mintReward env s caller recipient amount = .ok s') :
    s.locked.getD false = false ∧ caller ∈ env.auths ∧ s.admin = some caller ∧ 0 < amount.val ∧
      ∃ v w, Credits s recipient amount v w ∧
        s' = ({ s with locked := some true }.credit recipient v w).publish
          [.symbol "mint", .symbol "to", .address recipient] [.i128 amount] := by
  simp only [mintReward, bind_eq_ok, assert_eq_ok, unwrap_eq_ok, Env.requireAuth_eq_ok, pure_eq_ok,
    exists_const, acquireLock_ok] at h
  obtain ⟨_, ⟨hfree, rfl⟩, hauth, admin, hadmin, rfl, hpos, s₁, h₁, s₂, h₂, rfl⟩ := h
  obtain ⟨v, w, hc, rfl⟩ := credit_ok h₁ h₂
  exact ⟨hfree, hauth, hadmin, hpos, v, w, ⟨hc.1, hc.2, hc.3⟩, rfl⟩

end EntryPoints

/-! ## What a call leaves alone -/

/-- The parts of the storage beside the ledger and the allowances. -/
inductive Part
  | ledger
  | vesting
  | vestingV2
  | airdrop
  | lock

/-- The one part that a call can write. -/
def Call.part : Call Address → Part
  | .createVesting .. => .vesting
  | .claimVesting _ => .vesting
  | .createVestingV2 .. => .vestingV2
  | .claimVestingV2 .. => .vestingV2
  | .modifyVestingV2 .. => .vestingV2
  | .createAirdrop .. => .airdrop
  | .claimAirdrop .. => .airdrop
  | .recoverUnclaimedAirdrop .. => .airdrop
  | .mintReward .. => .lock
  | _ => .ledger

/-- The other parts are as they were. -/
structure Frame (part : Part) (s s' : Storage Address) : Prop where
  vesting : part ≠ .vesting → s'.vesting = s.vesting
  vestingV2 : part ≠ .vestingV2 →
    s'.vestingV2 = s.vestingV2 ∧ s'.vestingScheduleCount = s.vestingScheduleCount
  airdrop : part ≠ .airdrop → s'.airdropCampaign = s.airdropCampaign ∧
    s'.airdropClaimed = s.airdropClaimed ∧ s'.airdropCampaignCount = s.airdropCampaignCount
  lock : part ≠ .lock → s'.locked = s.locked

theorem exec_frame [Airdrop.XdrBytes Address] {s s' : Storage Address}
    {i : Env Address × Call Address} (h : exec s i = .ok s') : Frame i.2.part s s' := by
  obtain ⟨env, call⟩ := i
  cases call with
  | initializeContract admin =>
    obtain ⟨_, _, rfl⟩ := initializeContract_ok.mp h
    exact ⟨fun _ => rfl, fun _ => ⟨rfl, rfl⟩, fun _ => ⟨rfl, rfl, rfl⟩, fun _ => rfl⟩
  | mint to_ amount =>
    obtain ⟨_, _, v, w, _, rfl⟩ := mint_ok h
    exact ⟨fun _ => rfl, fun _ => ⟨rfl, rfl⟩, fun _ => ⟨rfl, rfl, rfl⟩, fun _ => rfl⟩
  | burn from_ amount =>
    obtain ⟨_, _, _, v, w, stats, _, rfl⟩ := burn_ok h
    exact ⟨fun _ => rfl, fun _ => ⟨rfl, rfl⟩, fun _ => ⟨rfl, rfl, rfl⟩, fun _ => rfl⟩
  | burnFrom spender from_ amount =>
    obtain ⟨_, _, _, _, rest, v, w, stats, _, _, rfl⟩ := burnFrom_ok h
    exact ⟨fun _ => rfl, fun _ => ⟨rfl, rfl⟩, fun _ => ⟨rfl, rfl, rfl⟩, fun _ => rfl⟩
  | transfer from_ to_ amount =>
    obtain ⟨_, _, _, t, _, rfl⟩ := transfer_ok h
    exact ⟨fun _ => rfl, fun _ => ⟨rfl, rfl⟩, fun _ => ⟨rfl, rfl, rfl⟩, fun _ => rfl⟩
  | approve owner spender amount =>
    obtain ⟨_, _, rfl⟩ := approve_ok h
    exact ⟨fun _ => rfl, fun _ => ⟨rfl, rfl⟩, fun _ => ⟨rfl, rfl, rfl⟩, fun _ => rfl⟩
  | transferFrom spender from_ to_ amount =>
    obtain ⟨_, _, _, _, rest, t, _, _, rfl⟩ := transferFrom_ok h
    exact ⟨fun _ => rfl, fun _ => ⟨rfl, rfl⟩, fun _ => ⟨rfl, rfl, rfl⟩, fun _ => rfl⟩
  | createVesting admin beneficiary totalAmount cliffLedger endLedger =>
    obtain ⟨_, _, _, _, _, rfl⟩ := createVesting_ok h
    exact ⟨fun hp => absurd rfl hp, fun _ => ⟨rfl, rfl⟩, fun _ => ⟨rfl, rfl, rfl⟩, fun _ => rfl⟩
  | claimVesting beneficiary =>
    obtain ⟨_, schedule, vested, claimable, claimed, _, _, _, _, _, v, w, _, rfl⟩ :=
      claimVesting_ok h
    exact ⟨fun hp => absurd rfl hp, fun _ => ⟨rfl, rfl⟩, fun _ => ⟨rfl, rfl, rfl⟩, fun _ => rfl⟩
  | createVestingV2 admin beneficiary totalAmount cliffLedger endLedger vestingType stepCount =>
    obtain ⟨scheduleId, hc⟩ := map_snd_eq_ok.mp h
    obtain ⟨_, _, _, _, _, _, _, nextId, _, rfl⟩ := createVestingV2_ok hc
    exact ⟨fun _ => rfl, fun hp => absurd rfl hp, fun _ => ⟨rfl, rfl, rfl⟩, fun _ => rfl⟩
  | claimVestingV2 beneficiary scheduleId =>
    obtain ⟨_, schedule, vested, claimable, claimed, _, _, _, _, _, v, w, _, rfl⟩ :=
      claimVestingV2_ok h
    exact ⟨fun _ => rfl, fun hp => absurd rfl hp, fun _ => ⟨rfl, rfl, rfl⟩, fun _ => rfl⟩
  | modifyVestingV2 admin beneficiary scheduleId newEndLedger =>
    obtain ⟨_, _, schedule, _, _, rfl⟩ := modifyVestingV2_ok h
    exact ⟨fun _ => rfl, fun hp => absurd rfl hp, fun _ => ⟨rfl, rfl, rfl⟩, fun _ => rfl⟩
  | createAirdrop admin totalAmount expiryLedger merkleRoot =>
    obtain ⟨campaignId, hc⟩ := map_snd_eq_ok.mp h
    obtain ⟨_, _, _, _, nextId, _, rfl⟩ := createAirdrop_ok hc
    exact ⟨fun _ => rfl, fun _ => ⟨rfl, rfl⟩, fun hp => absurd rfl hp, fun _ => rfl⟩
  | claimAirdrop campaignId recipient amount proof =>
    obtain ⟨claimed, hc⟩ := map_snd_eq_ok.mp h
    obtain ⟨_, _, _, campaign, claimedAmount, _, _, _, _, _, _, v, w, _, rfl⟩ := claimAirdrop_ok hc
    exact ⟨fun _ => rfl, fun _ => ⟨rfl, rfl⟩, fun hp => absurd rfl hp, fun _ => rfl⟩
  | recoverUnclaimedAirdrop admin campaignId =>
    obtain ⟨unclaimed, hc⟩ := map_snd_eq_ok.mp h
    obtain ⟨_, campaign, _, _, _, rfl⟩ := recoverUnclaimedAirdrop_ok hc
    exact ⟨fun _ => rfl, fun _ => ⟨rfl, rfl⟩, fun _ => ⟨rfl, rfl, rfl⟩, fun _ => rfl⟩
  | mintReward caller recipient amount =>
    obtain ⟨_, _, _, _, v, w, _, rfl⟩ := mintReward_ok h
    exact ⟨fun _ => rfl, fun _ => ⟨rfl, rfl⟩, fun _ => ⟨rfl, rfl, rfl⟩, fun hp => absurd rfl hp⟩

end Scoopdope.Token

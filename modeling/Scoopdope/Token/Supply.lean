import Scoopdope.Soroban.History
import Scoopdope.Soroban.Ledger
import Scoopdope.Token.Steps

/-!
# Token: supply conservation

The storage of the token stands for a ledger: the stored balances and
`TotalSupply`. `effect` says what each call does to that ledger, and
`exec_refines` that the code does it. What holds of sound ledgers then holds of
the token, and only the cap and the flow of minted and burned amounts are left
to follow through a run.
-/

namespace Scoopdope.Token

open Soroban

variable {Address : Type} [DecidableEq Address]

/-- The ledger a storage stands for. -/
noncomputable def Storage.ledger (s : Storage Address) : Ledger Address :=
  .ofTable s.balance (Token.totalSupply s).val

/-- What `claim_vesting` pays in this storage. -/
def claimableVesting (env : Env Address) (s : Storage Address) (beneficiary : Address) : Int :=
  match s.vesting.get beneficiary with
  | none => 0
  | some schedule =>
    match vestedAmount schedule env.sequence with
    | .error _ => 0
    | .ok vested => vested.val - schedule.claimed.val

/-- What `claim_vesting_v2` pays in this storage. -/
def claimableVestingV2 (env : Env Address) (s : Storage Address) (beneficiary : Address)
    (scheduleId : U32) : Int :=
  match s.vestingV2.get (beneficiary, scheduleId) with
  | none => 0
  | some schedule =>
    match vestedAmountV2 schedule env.sequence with
    | .error _ => 0
    | .ok vested => vested.val - schedule.claimed.val

/-- The amount a call mints, if it is accepted. -/
def mintedAmount (s : Storage Address) (i : Env Address × Call Address) : Int :=
  match i.2 with
  | .mint _ amount => amount.val
  | .mintReward _ _ amount => amount.val
  | .claimVesting beneficiary => claimableVesting i.1 s beneficiary
  | .claimVestingV2 beneficiary scheduleId => claimableVestingV2 i.1 s beneficiary scheduleId
  | .claimAirdrop _ _ amount _ => amount.val
  | _ => 0

/-- What a call does to the ledger, if it is accepted. -/
def effect (s : Storage Address) (i : Env Address × Call Address) : Ledger.Op Address :=
  match i.2 with
  | .mint to_ amount => .mint to_ amount.val
  | .mintReward _ recipient amount => .mint recipient amount.val
  | .claimVesting beneficiary => .mint beneficiary (claimableVesting i.1 s beneficiary)
  | .claimVestingV2 beneficiary scheduleId =>
    .mint beneficiary (claimableVestingV2 i.1 s beneficiary scheduleId)
  | .claimAirdrop _ recipient amount _ => .mint recipient amount.val
  | .burn from_ amount => .burn from_ amount.val
  | .burnFrom _ from_ amount => .burn from_ amount.val
  | .transfer from_ to_ amount => .move from_ to_ amount.val
  | .transferFrom _ from_ to_ amount => .move from_ to_ amount.val
  | _ => .idle

/-! ## The code refines the ledger -/

theorem ledger_credit {s : Storage Address} {addr : Address} {x v w : I128}
    (h : Credits s addr x v w) : (s.credit addr v w).ledger = s.ledger.run (.mint addr x.val) :=
  Ledger.ofTable_mint h.bal_eq h.supply_eq

theorem ledger_debit {s : Storage Address} {addr : Address} {x v w : I128} {stats : BurnStats}
    (h : Debits s addr x v w stats) :
    (s.debit addr v w stats).ledger = s.ledger.run (.burn addr x.val) :=
  Ledger.ofTable_burn h.bal_eq h.supply_eq

theorem ledger_move {s : Storage Address} {from_ to_ : Address} {x : I128}
    {t : Table Address I128} (h : Moves s from_ to_ x t) :
    ({ s with balance := t } : Storage Address).ledger = s.ledger.run (.move from_ to_ x.val) := by
  obtain ⟨v, w, hv, hw, rfl⟩ := h
  show Ledger.mk ((s.balance.set from_ v).set to_ w).amounts (totalSupply s).val =
    Ledger.mk (s.balance.amounts + Finsupp.single from_ (-x.val) + Finsupp.single to_ x.val)
      (totalSupply s).val
  have hx : v.val - (s.balance.amount from_).val = -x.val := by
    rw [hv, balance]
    omega
  have hy : w.val - ((s.balance.set from_ v).amount to_).val = x.val := by omega
  rw [Table.amounts_set, hy, Table.amounts_set, hx]

theorem ledger_balance (s : Storage Address) (a : Address) :
    s.ledger.balance a = (balance s a).val :=
  Ledger.ofTable_balance s.balance _ a

theorem claimableVesting_eq {env : Env Address} {s : Storage Address} {beneficiary : Address}
    {schedule : VestingSchedule Address} {vested : I128}
    (hget : s.vesting.get beneficiary = some schedule)
    (hvested : vestedAmount schedule env.sequence = .ok vested) :
    claimableVesting env s beneficiary = vested.val - schedule.claimed.val := by
  simp only [claimableVesting, hget, hvested]

theorem claimableVestingV2_eq {env : Env Address} {s : Storage Address} {beneficiary : Address}
    {scheduleId : U32} {schedule : VestingScheduleV2 Address} {vested : I128}
    (hget : s.vestingV2.get (beneficiary, scheduleId) = some schedule)
    (hvested : vestedAmountV2 schedule env.sequence = .ok vested) :
    claimableVestingV2 env s beneficiary scheduleId = vested.val - schedule.claimed.val := by
  simp only [claimableVestingV2, hget, hvested]

/-- An accepted call does to the ledger what `effect` says. Beside the ledger,
the burn statistics follow the burned amount, the supply stays under the cap
and the admin is the same. -/
structure Refines (s : Storage Address) (i : Env Address × Call Address) (s' : Storage Address) :
    Prop where
  allowed : s.ledger.Allowed (effect s i)
  ledger : s'.ledger = s.ledger.run (effect s i)
  burned : (getBurnStats s').totalBurned.val =
    (getBurnStats s).totalBurned.val + (effect s i).burned
  cap : (totalSupply s).val ≤ maxSupply.val → (totalSupply s').val ≤ maxSupply.val
  admin : s'.admin = s.admin

section Effects

variable {i : Env Address × Call Address} {s s' : Storage Address} {x v w : I128}

omit [DecidableEq Address] in
theorem ledger_congr (hb : s'.balance = s.balance) (ht : s'.totalSupply = s.totalSupply) :
    s'.ledger = s.ledger := by
  simp only [Storage.ledger, totalSupply, hb, ht]

omit [DecidableEq Address] in
theorem burned_congr (h : s'.burnStats = s.burnStats) :
    (getBurnStats s').totalBurned.val = (getBurnStats s).totalBurned.val + 0 := by
  rw [getBurnStats, h, getBurnStats, Int.add_zero]

theorem refines_credit {to_ : Address} (he : effect s i = .mint to_ x.val) (hx : 0 < x.val)
    (hc : Credits s to_ x v w) (hb : s'.balance = (s.credit to_ v w).balance)
    (ht : s'.totalSupply = (s.credit to_ v w).totalSupply) (hs : s'.burnStats = s.burnStats)
    (ha : s'.admin = s.admin) : Refines s i s' where
  allowed := by rw [he]; exact hx.le
  ledger := by rw [he, ← ledger_credit hc]; exact ledger_congr hb ht
  burned := by rw [he]; exact burned_congr hs
  cap := by
    intro _
    rw [totalSupply, ht]
    exact hc.cap
  admin := ha

theorem refines_debit {from_ : Address} {stats : BurnStats} (he : effect s i = .burn from_ x.val)
    (hx : 0 < x.val) (hbal : x.val ≤ (balance s from_).val) (hd : Debits s from_ x v w stats)
    (hb : s'.balance = (s.debit from_ v w stats).balance)
    (ht : s'.totalSupply = (s.debit from_ v w stats).totalSupply)
    (hs : s'.burnStats = some stats) (ha : s'.admin = s.admin) : Refines s i s' where
  allowed := by
    rw [he]
    exact hbal.trans (ledger_balance s from_).ge
  ledger := by rw [he, ← ledger_debit hd]; exact ledger_congr hb ht
  burned := by
    rw [he, getBurnStats, hs]
    exact hd.burned_eq
  cap := by
    intro hcap
    rw [totalSupply, ht]
    show w.val ≤ maxSupply.val
    rw [hd.supply_eq]
    omega
  admin := ha

theorem refines_move {from_ to_ : Address} {t : Table Address I128}
    (he : effect s i = .move from_ to_ x.val) (hx : 0 < x.val)
    (hbal : x.val ≤ (balance s from_).val) (hm : Moves s from_ to_ x t) (hb : s'.balance = t)
    (ht : s'.totalSupply = s.totalSupply) (hs : s'.burnStats = s.burnStats)
    (ha : s'.admin = s.admin) : Refines s i s' where
  allowed := by
    rw [he]
    exact ⟨hx.le, hbal.trans (ledger_balance s from_).ge⟩
  ledger := by
    rw [he, ← ledger_move hm]
    exact ledger_congr (s := { s with balance := t }) hb ht
  burned := by rw [he]; exact burned_congr hs
  cap := by rw [totalSupply, totalSupply, ht]; exact id
  admin := ha

theorem refines_idle (he : effect s i = .idle) (hb : s'.balance = s.balance)
    (ht : s'.totalSupply = s.totalSupply) (hs : s'.burnStats = s.burnStats)
    (ha : s'.admin = s.admin) : Refines s i s' where
  allowed := by rw [he]; trivial
  ledger := by rw [he]; exact ledger_congr hb ht
  burned := by rw [he]; exact burned_congr hs
  cap := by rw [totalSupply, totalSupply, ht]; exact id
  admin := ha

end Effects

variable [Airdrop.XdrBytes Address] {s s' : Storage Address}

/-- Every accepted call of an initialised token refines the ledger. -/
theorem exec_refines {i : Env Address × Call Address} {admin : Address}
    (ha : s.admin = some admin) (h : exec s i = .ok s') : Refines s i s' := by
  obtain ⟨env, call⟩ := i
  cases call with
  | initializeContract admin' =>
    have hn := (initializeContract_ok.mp h).1
    rw [ha] at hn
    exact nomatch hn
  | mint to_ amount =>
    obtain ⟨hpos, _, v, w, hc, rfl⟩ := mint_ok h
    exact refines_credit rfl hpos hc rfl rfl rfl rfl
  | burn from_ amount =>
    obtain ⟨hpos, _, hbal, v, w, stats, hd, rfl⟩ := burn_ok h
    exact refines_debit rfl hpos hbal hd rfl rfl rfl rfl
  | burnFrom spender from_ amount =>
    obtain ⟨hpos, _, _, hbal, rest, v, w, stats, _, hd, rfl⟩ := burnFrom_ok h
    exact refines_debit rfl hpos hbal hd rfl rfl rfl rfl
  | transfer from_ to_ amount =>
    obtain ⟨hpos, _, hbal, t, hm, rfl⟩ := transfer_ok h
    exact refines_move rfl hpos hbal hm rfl rfl rfl rfl
  | approve owner spender amount =>
    obtain ⟨_, _, rfl⟩ := approve_ok h
    exact refines_idle rfl rfl rfl rfl rfl
  | transferFrom spender from_ to_ amount =>
    obtain ⟨hpos, _, _, hbal, rest, t, _, hm, rfl⟩ := transferFrom_ok h
    exact refines_move rfl hpos hbal hm rfl rfl rfl rfl
  | createVesting admin' beneficiary totalAmount cliffLedger endLedger =>
    obtain ⟨_, _, _, _, _, rfl⟩ := createVesting_ok h
    exact refines_idle rfl rfl rfl rfl rfl
  | claimVesting beneficiary =>
    obtain ⟨_, schedule, vested, claimable, claimed, hget, hvested, hc, hpos, _, v, w, hcr, rfl⟩ :=
      claimVesting_ok h
    have he : effect s (env, Call.claimVesting beneficiary) = .mint beneficiary claimable.val := by
      simp only [effect, claimableVesting_eq hget hvested, hc]
    exact refines_credit he hpos hcr rfl rfl rfl rfl
  | createVestingV2 admin' beneficiary totalAmount cliffLedger endLedger vestingType stepCount =>
    obtain ⟨scheduleId, h⟩ := map_snd_eq_ok.mp h
    obtain ⟨_, _, _, _, _, _, _, nextId, _, rfl⟩ := createVestingV2_ok h
    exact refines_idle rfl rfl rfl rfl rfl
  | claimVestingV2 beneficiary scheduleId =>
    obtain ⟨_, schedule, vested, claimable, claimed, hget, hvested, hc, hpos, _, v, w, hcr, rfl⟩ :=
      claimVestingV2_ok h
    have he : effect s (env, Call.claimVestingV2 beneficiary scheduleId) =
        .mint beneficiary claimable.val := by
      simp only [effect, claimableVestingV2_eq hget hvested, hc]
    exact refines_credit he hpos hcr rfl rfl rfl rfl
  | modifyVestingV2 admin' beneficiary scheduleId newEndLedger =>
    obtain ⟨_, _, schedule, _, _, rfl⟩ := modifyVestingV2_ok h
    exact refines_idle rfl rfl rfl rfl rfl
  | createAirdrop admin' totalAmount expiryLedger merkleRoot =>
    obtain ⟨campaignId, h⟩ := map_snd_eq_ok.mp h
    obtain ⟨_, _, _, _, nextId, _, rfl⟩ := createAirdrop_ok h
    exact refines_idle rfl rfl rfl rfl rfl
  | claimAirdrop campaignId recipient amount proof =>
    obtain ⟨claimed, h⟩ := map_snd_eq_ok.mp h
    obtain ⟨_, _, hpos, campaign, claimedAmount, _, _, _, _, _, _, v, w, hcr, rfl⟩ :=
      claimAirdrop_ok h
    exact refines_credit rfl hpos hcr rfl rfl rfl rfl
  | recoverUnclaimedAirdrop admin' campaignId =>
    obtain ⟨unclaimed, h⟩ := map_snd_eq_ok.mp h
    obtain ⟨_, campaign, _, _, _, rfl⟩ := recoverUnclaimedAirdrop_ok h
    exact refines_idle rfl rfl rfl rfl rfl
  | mintReward caller recipient amount =>
    obtain ⟨_, _, _, hpos, v, w, hcr, rfl⟩ := mintReward_ok h
    exact refines_credit rfl hpos hcr rfl rfl rfl rfl

/-- What a call adds to the supply. -/
def minted (s : Storage Address) (i : Env Address × Call Address) : Int :=
  (totalSupply (apply exec s i)).val - (totalSupply s).val

/-- What a call adds to the balance of `a`. -/
def credited (s : Storage Address) (i : Env Address × Call Address) (a : Address) : Int :=
  (balance (apply exec s i) a).val - (balance s a).val

/-! ## Runs -/

/-- The storage after `initialize`, and its admin. -/
def Initialised (admin : Address) (s₀ : Storage Address) : Prop :=
  ∃ env, initializeContract env (Storage.fresh Address) admin = .ok s₀

/-- The sum of the amounts minted by the accepted calls of a run. -/
def totalMinted (s₀ : Storage Address) : List (Env Address × Call Address) → Int
  | [] => 0
  | i :: past =>
    match exec (after exec s₀ past) i with
    | .ok _ => totalMinted s₀ past + mintedAmount (after exec s₀ past) i
    | .error _ => totalMinted s₀ past

omit [Airdrop.XdrBytes Address] in
theorem mintedAmount_eq (s : Storage Address) (i : Env Address × Call Address) :
    mintedAmount s i = (effect s i).minted := by
  obtain ⟨env, call⟩ := i
  cases call <;> rfl

/-- What every run keeps. -/
structure Conserved (admin : Address) (minted : Int) (s : Storage Address) : Prop where
  admin : s.admin = some admin
  sound : s.ledger.Sound
  cap : (totalSupply s).val ≤ maxSupply.val
  flow : (totalSupply s).val + (getBurnStats s).totalBurned.val = minted

omit [Airdrop.XdrBytes Address] in
theorem Initialised.conserved {admin : Address} {s₀ : Storage Address} (h : Initialised admin s₀) :
    Conserved admin 0 s₀ := by
  obtain ⟨env, h⟩ := h
  obtain ⟨_, _, rfl⟩ := initializeContract_ok.mp h
  refine ⟨rfl, Ledger.sound_empty, ?_, rfl⟩
  show (0 : I128).val ≤ maxSupply.val
  decide

/-- The token initialised with contract 1 as admin. -/
def exampleToken : Storage Nat :=
  { Storage.fresh Nat with admin := some 1, totalSupply := some 0 }

theorem exampleToken_initialised : Initialised 1 exampleToken :=
  ⟨exampleEnv 0 [1], rfl⟩

theorem Conserved.step {admin : Address} {minted : Int} {i : Env Address × Call Address}
    (hc : Conserved admin minted s) (h : exec s i = .ok s') :
    Conserved admin (minted + mintedAmount s i) s' := by
  have hr := exec_refines hc.admin h
  have hsupply : (totalSupply s').val =
      (totalSupply s).val + (effect s i).minted - (effect s i).burned := by
    have := congrArg Ledger.supply hr.ledger
    rw [Ledger.run_supply] at this
    exact this
  refine ⟨hr.admin.trans hc.admin, ?_, hr.cap hc.cap, ?_⟩
  · rw [hr.ledger]
    exact hc.sound.run hr.allowed
  · have hflow := hc.flow
    rw [mintedAmount_eq, hsupply, hr.burned]
    omega

theorem conserved_after {admin : Address} {s₀ : Storage Address} (h : Initialised admin s₀)
    (past : List (Env Address × Call Address)) :
    Conserved admin (totalMinted s₀ past) (after exec s₀ past) := by
  refine after_history (P := fun past s => Conserved admin (totalMinted s₀ past) s)
    h.conserved ?_ ?_ past
  · rintro past i s s' rfl hc he
    simp only [totalMinted, he]
    exact hc.step he
  · rintro past i s t rfl hc he
    simp only [totalMinted, he]
    exact hc

omit [Airdrop.XdrBytes Address] in
/-- An amount that the cap leaves room for can be credited: no balance exceeds
the supply. -/
theorem credit_succeeds {admin : Address} {minted : Int} (addr : Address) {amount : I128}
    (hc : Conserved admin minted s) (hpos : 0 < amount.val)
    (hfits : (totalSupply s).val + amount.val ≤ maxSupply.val) :
    ∃ s₁ s₂, addBalance s addr amount = .ok s₁ ∧ addSupply s₁ amount = .ok s₂ := by
  have hnonneg : 0 ≤ (balance s addr).val := hc.sound.amount_nonneg addr
  have hle : (balance s addr).val ≤ (totalSupply s).val := hc.sound.amount_le addr
  have hmax := maxSupply.le_hi
  have hlo := amount.lo_le
  have hv : (⟨(balance s addr).val + amount.val, by omega, by omega⟩ : I128).val =
      (balance s addr).val + amount.val := rfl
  have hw : (⟨(totalSupply s).val + amount.val, by omega, by omega⟩ : I128).val =
      (totalSupply s).val + amount.val := rfl
  exact ⟨_, _, addBalance_ok.mpr ⟨_, hv, rfl⟩, addSupply_ok.mpr ⟨_, hw, hfits, rfl⟩⟩

/-- In every storage that a run of calls reaches from `initialize`, no stored
balance is negative, the balances sum to the supply, the supply is within its
cap, and supply plus burned amounts is what was minted. -/
theorem supply_conserved {admin : Address} {s₀ : Storage Address} (h : Initialised admin s₀)
    (past : List (Env Address × Call Address)) :
    (∀ a v, (after exec s₀ past).balance.get a = some v → 0 ≤ v.val) ∧
    Table.total BoundedInt.val (after exec s₀ past).balance =
      (totalSupply (after exec s₀ past)).val ∧
    0 ≤ (totalSupply (after exec s₀ past)).val ∧
    (totalSupply (after exec s₀ past)).val ≤ maxSupply.val ∧
    (totalSupply (after exec s₀ past)).val +
      (getBurnStats (after exec s₀ past)).totalBurned.val = totalMinted s₀ past := by
  have hc := conserved_after h past
  exact ⟨fun a v hv => hc.sound.stored_nonneg hv, hc.sound.total_eq, hc.sound.supply_nonneg,
    hc.cap, hc.flow⟩

/-- The run that mints 500 to contract 2 and burns 200 of it. -/
theorem supply_conserved_mint_burn :
    Table.total BoundedInt.val (after exec exampleToken
      [(exampleEnv 0 [2], .burn 2 (.lit 200)), (exampleEnv 0 [1], .mint 2 (.lit 500))]).balance = 300 :=
  (supply_conserved exampleToken_initialised _).2.1.trans (by decide +kernel)

end Scoopdope.Token

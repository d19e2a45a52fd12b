import Scoopdope.Token.Supply

/-!
# Token: who can mint

Every entitlement to new tokens (a vesting schedule, an airdrop campaign) is
stored by one earlier call. `Provenance` traces each stored entitlement back to
the call that created it, and `Backed` asks that the stored admin authorised
that call, or the minting call itself.

`create_vesting` and `create_vesting_v2` compare their `admin` argument with the
stored admin. `create_airdrop` only asks its `admin` argument to authorise the
call, so anybody can open a campaign and mint from it
(`stranger_airdrop_mints`). Runs without such a call are backed
(`minting_backed`).
-/

namespace Scoopdope.Token

open Soroban

variable {Address : Type} [DecidableEq Address] [Airdrop.XdrBytes Address]

/-- The call `j`, made after `earlier`, is an accepted `create_vesting` by `admin`
that stored `schedule` (up to what was claimed since). -/
def CreatesVesting (s₀ : Storage Address) (admin beneficiary : Address)
    (schedule : VestingSchedule Address) (earlier : List (Env Address × Call Address))
    (j : Env Address × Call Address) : Prop :=
  j.2 = .createVesting admin beneficiary schedule.totalAmount schedule.cliffLedger
      schedule.endLedger ∧
    schedule.startLedger = j.1.sequence ∧ admin ∈ j.1.auths ∧
    ∃ s', exec (after exec s₀ earlier) j = .ok s'

/-- The call `j` is an accepted `create_vesting_v2` by `admin` that returned
`scheduleId` and stored the schedule (up to its end and what was claimed). -/
def CreatesVestingV2 (s₀ : Storage Address) (admin beneficiary : Address) (scheduleId : U32)
    (schedule : VestingScheduleV2 Address) (earlier : List (Env Address × Call Address))
    (j : Env Address × Call Address) : Prop :=
  ∃ endLedger, j.2 = .createVestingV2 admin beneficiary schedule.totalAmount schedule.cliffLedger
      endLedger schedule.vestingType schedule.stepCount ∧
    schedule.startLedger = j.1.sequence ∧ admin ∈ j.1.auths ∧
    ∃ s', createVestingV2 j.1 (after exec s₀ earlier) admin beneficiary schedule.totalAmount
      schedule.cliffLedger endLedger schedule.vestingType schedule.stepCount = .ok (scheduleId, s')

/-- The call `j` is an accepted `create_airdrop` by `admin` that returned
`campaignId` and stored the campaign (up to what was claimed since). -/
def CreatesAirdrop (s₀ : Storage Address) (admin : Address) (campaignId : U32)
    (campaign : AirdropCampaign) (earlier : List (Env Address × Call Address))
    (j : Env Address × Call Address) : Prop :=
  j.2 = .createAirdrop admin campaign.totalAmount campaign.expiryLedger campaign.merkleRoot ∧
    admin ∈ j.1.auths ∧
    ∃ s', createAirdrop j.1 (after exec s₀ earlier) admin campaign.totalAmount
      campaign.expiryLedger campaign.merkleRoot = .ok (campaignId, s')

/-- The call `i`, made after `earlier`, mints on the authority of `admin`: it
authorised the call, or the creation of what the call draws on. -/
def Backed (s₀ : Storage Address) (admin : Address) (earlier : List (Env Address × Call Address))
    (i : Env Address × Call Address) : Prop :=
  match i.2 with
  | .mint _ _ => admin ∈ i.1.auths
  | .mintReward _ _ _ => admin ∈ i.1.auths
  | .claimVesting beneficiary =>
    ∃ schedule, (after exec s₀ earlier).vesting.get beneficiary = some schedule ∧
      Occurs (CreatesVesting s₀ admin beneficiary schedule) earlier
  | .claimVestingV2 beneficiary scheduleId =>
    ∃ schedule, (after exec s₀ earlier).vestingV2.get (beneficiary, scheduleId) = some schedule ∧
      Occurs (CreatesVestingV2 s₀ admin beneficiary scheduleId schedule) earlier
  | .claimAirdrop campaignId _ _ _ =>
    ∃ campaign, (after exec s₀ earlier).airdropCampaign.get campaignId = some campaign ∧
      Occurs (CreatesAirdrop s₀ admin campaignId campaign) earlier
  | _ => False

/-- Every call of the run that increases the supply is backed, and a run that
`admin` authorises nothing of leaves the supply at zero. -/
def MintingAuthority (s₀ : Storage Address) (admin : Address)
    (past : List (Env Address × Call Address)) : Prop :=
  (∀ i earlier, i :: earlier <:+ past →
    (totalSupply (after exec s₀ earlier)).val < (totalSupply (after exec s₀ (i :: earlier))).val →
    Backed s₀ admin earlier i) ∧
  ((∀ i ∈ past, admin ∉ i.1.auths) → (totalSupply (after exec s₀ past)).val = 0)

/-- A `create_airdrop` that passes its checks with an `admin` argument other than
the stored admin. -/
def StrangerAirdrop (s : Storage Address) (i : Env Address × Call Address) : Prop :=
  ∃ creator totalAmount expiryLedger merkleRoot,
    i.2 = .createAirdrop creator totalAmount expiryLedger merkleRoot ∧ creator ∈ i.1.auths ∧
    0 < totalAmount ∧ i.1.sequence < expiryLedger ∧ s.admin ≠ some creator

/-! ## Provenance of entitlements -/

/-- Every stored entitlement was created by a call that `admin` authorised. -/
structure Provenance (s₀ : Storage Address) (admin : Address)
    (past : List (Env Address × Call Address)) (s : Storage Address) : Prop where
  vesting : ∀ beneficiary schedule, s.vesting.get beneficiary = some schedule →
    Occurs (CreatesVesting s₀ admin beneficiary schedule) past
  vestingV2 : ∀ key schedule, s.vestingV2.get key = some schedule →
    Occurs (CreatesVestingV2 s₀ admin key.1 key.2 schedule) past
  airdrop : ∀ campaignId campaign, s.airdropCampaign.get campaignId = some campaign →
    Occurs (CreatesAirdrop s₀ admin campaignId campaign) past

section Provenance

variable {s₀ s s' : Storage Address} {admin : Address} {past : List (Env Address × Call Address)}
  {i : Env Address × Call Address}

/-- A call that leaves the entitlements alone keeps their provenance. -/
theorem Provenance.cons (h : Provenance s₀ admin past s) (hv : s'.vesting = s.vesting)
    (hv2 : s'.vestingV2 = s.vestingV2) (ha : s'.airdropCampaign = s.airdropCampaign) :
    Provenance s₀ admin (i :: past) s' where
  vesting b sch hb := (h.vesting b sch (hv ▸ hb)).cons i
  vestingV2 k sch hk := (h.vestingV2 k sch (hv2 ▸ hk)).cons i
  airdrop k c hk := (h.airdrop k c (ha ▸ hk)).cons i

/-- A write to the V1 schedules keeps provenance when the written schedule has
one. -/
theorem Provenance.setVesting {b : Address} {schedule : VestingSchedule Address}
    (h : Provenance s₀ admin past s) (hv : s'.vesting = s.vesting.set b schedule)
    (hv2 : s'.vestingV2 = s.vestingV2) (ha : s'.airdropCampaign = s.airdropCampaign)
    (ho : Occurs (CreatesVesting s₀ admin b schedule) (i :: past)) :
    Provenance s₀ admin (i :: past) s' where
  vesting := by
    rw [hv]
    exact Table.forall_set (fun b' sch hb => (h.vesting b' sch hb).cons i) ho
  vestingV2 k sch hk := (h.vestingV2 k sch (hv2 ▸ hk)).cons i
  airdrop k c hk := (h.airdrop k c (ha ▸ hk)).cons i

theorem Provenance.setVestingV2 {key : Address × U32} {schedule : VestingScheduleV2 Address}
    (h : Provenance s₀ admin past s) (hv : s'.vesting = s.vesting)
    (hv2 : s'.vestingV2 = s.vestingV2.set key schedule)
    (ha : s'.airdropCampaign = s.airdropCampaign)
    (ho : Occurs (CreatesVestingV2 s₀ admin key.1 key.2 schedule) (i :: past)) :
    Provenance s₀ admin (i :: past) s' where
  vesting b sch hb := (h.vesting b sch (hv ▸ hb)).cons i
  vestingV2 := by
    rw [hv2]
    exact Table.forall_set (fun k sch hk => (h.vestingV2 k sch hk).cons i) ho
  airdrop k c hk := (h.airdrop k c (ha ▸ hk)).cons i

theorem Provenance.setAirdrop {campaignId : U32} {campaign : AirdropCampaign}
    (h : Provenance s₀ admin past s) (hv : s'.vesting = s.vesting)
    (hv2 : s'.vestingV2 = s.vestingV2)
    (ha : s'.airdropCampaign = s.airdropCampaign.set campaignId campaign)
    (ho : Occurs (CreatesAirdrop s₀ admin campaignId campaign) (i :: past)) :
    Provenance s₀ admin (i :: past) s' where
  vesting b sch hb := (h.vesting b sch (hv ▸ hb)).cons i
  vestingV2 k sch hk := (h.vestingV2 k sch (hv2 ▸ hk)).cons i
  airdrop := by
    rw [ha]
    exact Table.forall_set (fun k c hk => (h.airdrop k c hk).cons i) ho

end Provenance

theorem Initialised.provenance {s₀ : Storage Address} {admin : Address}
    (h : Initialised admin s₀) : Provenance s₀ admin [] s₀ := by
  obtain ⟨env, h⟩ := h
  obtain ⟨_, _, rfl⟩ := initializeContract_ok.mp h
  exact ⟨fun b sch hb => absurd hb Table.get_empty_ne_some,
    fun k sch hk => absurd hk Table.get_empty_ne_some,
    fun k c hk => absurd hk Table.get_empty_ne_some⟩

/-- One accepted call that is no stranger's airdrop keeps provenance. -/
theorem Provenance.step {s₀ s s' : Storage Address} {admin : Address}
    {past : List (Env Address × Call Address)} {i : Env Address × Call Address}
    (h : Provenance s₀ admin past s) (hs : s = after exec s₀ past) (ha : s.admin = some admin)
    (hg : ¬ StrangerAirdrop s i) (he : exec s i = .ok s') : Provenance s₀ admin (i :: past) s' := by
  have hframe := exec_frame he
  obtain ⟨env, call⟩ := i
  cases call with
  | createVesting admin' beneficiary totalAmount cliffLedger endLedger =>
    obtain ⟨hauth, hadmin, _, _, _, hs'⟩ := createVesting_ok he
    obtain rfl : admin' = admin := Option.some.inj (hadmin.symm.trans ha)
    subst hs'
    exact h.setVesting rfl rfl rfl (.head ⟨rfl, rfl, hauth, _, hs ▸ he⟩)
  | claimVesting beneficiary =>
    obtain ⟨_, schedule, vested, claimable, claimed, hget, _, _, _, _, v, w, _, rfl⟩ :=
      claimVesting_ok he
    exact h.setVesting rfl rfl rfl ((h.vesting beneficiary schedule hget).cons _)
  | createVestingV2 admin' beneficiary totalAmount cliffLedger endLedger vestingType stepCount =>
    obtain ⟨scheduleId, hc⟩ := map_snd_eq_ok.mp he
    obtain ⟨hauth, hadmin, _, _, _, _, _, nextId, _, hs'⟩ := createVestingV2_ok hc
    obtain rfl : admin' = admin := Option.some.inj (hadmin.symm.trans ha)
    subst hs'
    exact h.setVestingV2 rfl rfl rfl (.head ⟨endLedger, rfl, rfl, hauth, _, hs ▸ hc⟩)
  | claimVestingV2 beneficiary scheduleId =>
    obtain ⟨_, schedule, vested, claimable, claimed, hget, _, _, _, _, v, w, _, rfl⟩ :=
      claimVestingV2_ok he
    exact h.setVestingV2 rfl rfl rfl ((h.vestingV2 (beneficiary, scheduleId) schedule hget).cons _)
  | modifyVestingV2 admin' beneficiary scheduleId newEndLedger =>
    obtain ⟨_, _, schedule, hget, _, rfl⟩ := modifyVestingV2_ok he
    exact h.setVestingV2 rfl rfl rfl ((h.vestingV2 (beneficiary, scheduleId) schedule hget).cons _)
  | createAirdrop creator totalAmount expiryLedger merkleRoot =>
    obtain ⟨campaignId, hc⟩ := map_snd_eq_ok.mp he
    obtain ⟨hauth, hpos, hexp, _, nextId, _, hs'⟩ := createAirdrop_ok hc
    -- the guard is what the code does not check: the creator is the stored admin
    have hcreator : s.admin = some creator := by
      by_contra hne
      exact hg ⟨creator, totalAmount, expiryLedger, merkleRoot, rfl, hauth, hpos, hexp, hne⟩
    obtain rfl : creator = admin := Option.some.inj (hcreator.symm.trans ha)
    subst hs'
    exact h.setAirdrop rfl rfl rfl (.head ⟨rfl, hauth, _, hs ▸ hc⟩)
  | claimAirdrop campaignId recipient amount proof =>
    obtain ⟨claimed, hc⟩ := map_snd_eq_ok.mp he
    obtain ⟨_, _, _, campaign, claimedAmount, hget, _, _, _, _, _, v, w, _, rfl⟩ :=
      claimAirdrop_ok hc
    exact h.setAirdrop rfl rfl rfl ((h.airdrop campaignId campaign hget).cons _)
  | recoverUnclaimedAirdrop admin' campaignId =>
    obtain ⟨unclaimed, hc⟩ := map_snd_eq_ok.mp he
    obtain ⟨_, campaign, _, _, _, rfl⟩ := recoverUnclaimedAirdrop_ok hc
    exact h.cons rfl rfl rfl
  | _ =>
    -- the other calls write no entitlement
    obtain ⟨hvesting, hvestingV2, hairdrop, _⟩ := hframe
    exact h.cons (hvesting Part.noConfusion) (hvestingV2 Part.noConfusion).1
      (hairdrop Part.noConfusion).1

theorem provenance_after {s₀ : Storage Address} {admin : Address} (h : Initialised admin s₀)
    (past : List (Env Address × Call Address))
    (hg : Guarded (fun earlier i => ¬ StrangerAirdrop (after exec s₀ earlier) i) past) :
    Provenance s₀ admin past (after exec s₀ past) := by
  refine after_history_guarded (P := Provenance s₀ admin) h.provenance ?_ ?_ past hg
  · rintro past i s s' _ hgi rfl hp he
    exact hp.step rfl (conserved_after h past).admin hgi he
  · rintro past i s t _ _ rfl hp _
    exact hp.cons rfl rfl rfl

/-! ## Minting calls are backed -/

/-- The supply after an accepted call. -/
theorem exec_supply {s s' : Storage Address} {i : Env Address × Call Address} {admin : Address}
    (ha : s.admin = some admin) (he : exec s i = .ok s') :
    (totalSupply s').val = (totalSupply s).val + (effect s i).minted - (effect s i).burned := by
  have h := congrArg Ledger.supply (exec_refines ha he).ledger
  rw [Ledger.run_supply] at h
  exact h

/-- An accepted call that increases the supply is backed, given the provenance
of the entitlements stored before it. -/
theorem backed_of_increase {s₀ s' : Storage Address} {admin : Address}
    {earlier : List (Env Address × Call Address)} {i : Env Address × Call Address}
    (hp : Provenance s₀ admin earlier (after exec s₀ earlier))
    (ha : (after exec s₀ earlier).admin = some admin)
    (he : exec (after exec s₀ earlier) i = .ok s')
    (hlt : (totalSupply (after exec s₀ earlier)).val < (totalSupply s').val) :
    Backed s₀ admin earlier i := by
  have hs := exec_supply ha he
  have hne : (effect (after exec s₀ earlier) i).burned <
      (effect (after exec s₀ earlier) i).minted := by
    omega
  obtain ⟨env, call⟩ := i
  cases call with
  | mint to_ amount =>
    obtain ⟨_, ⟨admin', hadmin, hauth⟩, _⟩ := mint_ok he
    obtain rfl : admin' = admin := Option.some.inj (hadmin.symm.trans ha)
    exact hauth
  | mintReward caller recipient amount =>
    obtain ⟨_, hauth, hadmin, _⟩ := mintReward_ok he
    obtain rfl : caller = admin := Option.some.inj (hadmin.symm.trans ha)
    exact hauth
  | claimVesting beneficiary =>
    obtain ⟨_, schedule, _, _, _, hget, _⟩ := claimVesting_ok he
    exact ⟨schedule, hget, hp.vesting beneficiary schedule hget⟩
  | claimVestingV2 beneficiary scheduleId =>
    obtain ⟨_, schedule, _, _, _, hget, _⟩ := claimVestingV2_ok he
    exact ⟨schedule, hget, hp.vestingV2 (beneficiary, scheduleId) schedule hget⟩
  | claimAirdrop campaignId recipient amount proof =>
    obtain ⟨claimed, hc⟩ := map_snd_eq_ok.mp he
    obtain ⟨_, _, _, campaign, _, hget, _⟩ := claimAirdrop_ok hc
    exact ⟨campaign, hget, hp.airdrop campaignId campaign hget⟩
  | burn from_ amount =>
    -- the other calls mint nothing, and a burn takes a positive amount away
    exact absurd hne (not_lt.mpr (burn_ok he).1.le)
  | burnFrom spender from_ amount => exact absurd hne (not_lt.mpr (burnFrom_ok he).1.le)
  | _ => exact absurd hne (lt_irrefl _)

/-- Nothing `admin` did not authorise is backed. -/
theorem not_backed_of_silent {s₀ : Storage Address} {admin : Address}
    {earlier : List (Env Address × Call Address)} {i : Env Address × Call Address}
    (hsilent : ∀ j ∈ i :: earlier, admin ∉ j.1.auths) : ¬ Backed s₀ admin earlier i := by
  have hpast : ∀ {Q : List (Env Address × Call Address) → Env Address × Call Address → Prop},
      (∀ e j, Q e j → admin ∈ j.1.auths) → ¬ Occurs Q earlier := by
    rintro Q hQ ⟨j, e, hsuf, hq⟩
    exact hsilent j (List.mem_cons_of_mem i (hsuf.subset List.mem_cons_self)) (hQ e j hq)
  have hnow := hsilent i List.mem_cons_self
  obtain ⟨env, call⟩ := i
  cases call with
  | mint to_ amount => exact hnow
  | mintReward caller recipient amount => exact hnow
  | claimVesting beneficiary =>
    rintro ⟨schedule, _, ho⟩
    exact hpast (fun e j hq => hq.2.2.1) ho
  | claimVestingV2 beneficiary scheduleId =>
    rintro ⟨schedule, _, ho⟩
    exact hpast (fun e j ⟨_, hq⟩ => hq.2.2.1) ho
  | claimAirdrop campaignId recipient amount proof =>
    rintro ⟨campaign, _, ho⟩
    exact hpast (fun e j hq => hq.2.1) ho
  | _ => exact id

/-- A run in which no increase of the supply goes unbacked, and that `admin`
authorises nothing of, leaves the supply at zero. -/
theorem supply_zero_of_silent {s₀ : Storage Address} {admin : Address} (h : Initialised admin s₀)
    {past : List (Env Address × Call Address)}
    (hb : ∀ i earlier, i :: earlier <:+ past →
      (totalSupply (after exec s₀ earlier)).val <
        (totalSupply (after exec s₀ (i :: earlier))).val → Backed s₀ admin earlier i)
    (hsilent : ∀ i ∈ past, admin ∉ i.1.auths) : (totalSupply (after exec s₀ past)).val = 0 := by
  induction past with
  | nil =>
    obtain ⟨env, h⟩ := h
    obtain ⟨_, _, rfl⟩ := initializeContract_ok.mp h
    rfl
  | cons i past ih =>
    have hz := ih (fun j e hs => hb j e (hs.trans (List.suffix_cons i past)))
      (fun j hj => hsilent j (List.mem_cons_of_mem i hj))
    have hn := (conserved_after h (i :: past)).sound.supply_nonneg
    have hup := mt (hb i past (List.suffix_refl _)) (not_backed_of_silent hsilent)
    change 0 ≤ (totalSupply (after exec s₀ (i :: past))).val at hn
    omega

/-- In every run from `initialize` without a stranger's airdrop, every increase of
the supply is backed by an authorisation of the stored admin. -/
theorem minting_backed {s₀ : Storage Address} {admin : Address} (h : Initialised admin s₀)
    (past : List (Env Address × Call Address))
    (hg : Guarded (fun earlier i => ¬ StrangerAirdrop (after exec s₀ earlier) i) past) :
    MintingAuthority s₀ admin past := by
  have hb : ∀ i earlier, i :: earlier <:+ past →
      (totalSupply (after exec s₀ earlier)).val <
        (totalSupply (after exec s₀ (i :: earlier))).val → Backed s₀ admin earlier i := by
    intro i earlier hsuf hlt
    have hp := provenance_after h earlier (hg.suffix hsuf).2
    have ha := (conserved_after h earlier).admin
    cases he : exec (after exec s₀ earlier) i with
    | ok s' =>
      rw [after, apply_ok he] at hlt
      exact backed_of_increase hp ha he hlt
    | error t =>
      rw [after, apply_error he] at hlt
      exact absurd hlt (lt_irrefl _)
  exact ⟨hb, supply_zero_of_silent h hb⟩

/-- The admin mints, then a beneficiary claims a schedule the admin created. -/
theorem minting_backed_vesting :
    MintingAuthority exampleToken 1
      [(exampleEnv (.lit 20) [3], .claimVesting 3),
        (exampleEnv (.lit 10) [1], .createVesting 1 3 (.lit 1000) (.lit 10) (.lit 30))] := by
  refine minting_backed exampleToken_initialised _ ⟨?_, ?_, trivial⟩
  · rintro ⟨_, _, _, _, h, _⟩
    cases h
  · rintro ⟨_, _, _, _, h, _⟩
    cases h

/-- Contract 7, which is not the admin, opens a campaign whose root is the leaf
of its own claim, and claims. -/
def strangerRun : List (Env Nat × Call Nat) :=
  [(exampleEnv (.lit 10) [7], .claimAirdrop (.lit 0) 7 (.lit 50) []),
    (exampleEnv (.lit 10) [7],
      .createAirdrop 7 (.lit 100) (.lit 20) (Airdrop.computeLeaf 7 (.lit 50)))]

/-- The admin authorised nothing, and 50 tokens exist. -/
theorem stranger_airdrop_mints :
    Initialised 1 exampleToken ∧ ¬ MintingAuthority exampleToken 1 strangerRun := by
  refine ⟨exampleToken_initialised, fun h => ?_⟩
  have hzero := h.2 (by decide)
  have hfifty : (totalSupply (after exec exampleToken strangerRun)).val = 50 := by decide +kernel
  rw [hfifty] at hzero
  exact absurd hzero (by decide)

end Scoopdope.Token

import Scoopdope.Soroban.History
import Scoopdope.Soroban.Table
import Scoopdope.Token.Supply

/-!
# Token: airdrop accounting

What `create_airdrop`, `claim_airdrop` and `recover_unclaimed_airdrop` do to the
campaigns, the claim marks and the balances over whole runs. The proofs of
membership are not used here: the accounting holds whatever they let through.
-/

namespace Scoopdope.Token

open Soroban

variable {Address : Type} [DecidableEq Address]

/-! ## Reading -/

def getAirdropCampaign (s : Storage Address) (campaignId : U32) : Option AirdropCampaign :=
  s.airdropCampaign.get campaignId

def hasClaimedAirdrop (s : Storage Address) (campaignId : U32) (recipient : Address) : Bool :=
  s.airdropClaimed.has (campaignId, recipient)

/-- `AirdropCampaignCount`. -/
def airdropCampaignCount (s : Storage Address) : U32 := s.airdropCampaignCount.getD 0

/-! ## The stored campaigns -/

/-- The claimed amount is within the total. -/
def CampaignSound (campaign : AirdropCampaign) : Prop :=
  0 ≤ campaign.claimedAmount.val ∧ campaign.claimedAmount.val ≤ campaign.totalAmount.val

structure CampaignsSound (s : Storage Address) : Prop where
  ids : Numbered (getAirdropCampaign s) (airdropCampaignCount s)
  sound : ∀ id campaign, s.airdropCampaign.get id = some campaign → CampaignSound campaign

/-- What `create_airdrop` fixes for good. -/
def AirdropCampaign.terms (campaign : AirdropCampaign) : U32 × I128 × U32 × Bytes32 :=
  (campaign.id, campaign.totalAmount, campaign.expiryLedger, campaign.merkleRoot)

/-- What one call that credits `x` can make of the campaign under an id. -/
abbrev CampaignAdvance : Option AirdropCampaign → Option AirdropCampaign → Int → Prop :=
  Advance AirdropCampaign.terms fun campaign => campaign.claimedAmount.val

/-! ## One call -/

variable [Airdrop.XdrBytes Address]

/-- What a call credits as a claim on the campaign. -/
def creditedByClaim (campaignId : U32) (s : Storage Address) (i : Env Address × Call Address) :
    Int :=
  match i.2 with
  | .claimAirdrop campaignId' recipient _ _ =>
    if campaignId' = campaignId then credited s i recipient else 0
  | _ => 0

section Steps

variable {env : Env Address} {s s' : Storage Address} {i : Env Address × Call Address}

/-- An accepted claim: in time, not marked before, within what is left of the
campaign; it is booked, marked and credited. -/
structure ClaimEffect (env : Env Address) (s s' : Storage Address) (campaignId : U32)
    (recipient : Address) (amount : I128) (proof : List Bytes32) (campaign : AirdropCampaign)
    (claimedAmount : I128) : Prop where
  get : getAirdropCampaign s campaignId = some campaign
  in_time : env.sequence.val ≤ campaign.expiryLedger.val
  unmarked : hasClaimedAirdrop s campaignId recipient = false
  pos : 0 < amount.val
  booked : claimedAmount.val = campaign.claimedAmount.val + amount.val
  within : claimedAmount.val ≤ campaign.totalAmount.val
  campaigns : s'.airdropCampaign =
    s.airdropCampaign.set campaignId { campaign with claimedAmount }
  marks : s'.airdropClaimed = s.airdropClaimed.set (campaignId, recipient) true
  count : s'.airdropCampaignCount = s.airdropCampaignCount
  credited : credited s (env, .claimAirdrop campaignId recipient amount proof) recipient =
    amount.val

theorem claimAirdrop_effect {campaignId : U32} {recipient : Address} {amount : I128}
    {proof : List Bytes32}
    (h : exec s (env, .claimAirdrop campaignId recipient amount proof) = .ok s') :
    ∃ campaign claimedAmount,
      ClaimEffect env s s' campaignId recipient amount proof campaign claimedAmount := by
  obtain ⟨claimed, hc⟩ := map_snd_eq_ok.mp h
  obtain ⟨_, _, hpos, campaign, claimedAmount, hget, htime, hmark, _, hbooked, hwithin, v, w,
    hcredit, rfl⟩ := claimAirdrop_ok hc
  refine ⟨campaign, claimedAmount, hget, htime, Table.has_eq_false.mpr hmark, hpos, hbooked,
    hwithin, rfl, rfl, rfl, ?_⟩
  have hbal : (s.balance.set recipient v).amount recipient = v := Table.amount_set_self _ _ _
  rw [credited, apply_ok h]
  show ((s.balance.set recipient v).amount recipient).val - (balance s recipient).val = _
  rw [hbal, hcredit.bal_eq]
  omega

/-- The campaign that `create_airdrop` writes. -/
def newCampaign (id : U32) (totalAmount : I128) (expiryLedger : U32) (merkleRoot : Bytes32) :
    AirdropCampaign :=
  { id, totalAmount, claimedAmount := 0, expiryLedger, merkleRoot }

/-- An accepted creation: the next id is used, the counter goes up. -/
theorem createAirdrop_effect {admin : Address} {totalAmount : I128} {expiryLedger : U32}
    {merkleRoot : Bytes32}
    (h : exec s (env, .createAirdrop admin totalAmount expiryLedger merkleRoot) = .ok s') :
    0 < totalAmount.val ∧ ∃ nextId : U32, nextId.val = (airdropCampaignCount s).val + 1 ∧
      s'.airdropCampaign = s.airdropCampaign.set (airdropCampaignCount s)
        (newCampaign (airdropCampaignCount s) totalAmount expiryLedger merkleRoot) ∧
      s'.airdropClaimed = s.airdropClaimed ∧ s'.airdropCampaignCount = some nextId := by
  obtain ⟨campaignId, hc⟩ := map_snd_eq_ok.mp h
  obtain ⟨_, hpos, _, rfl, nextId, hnext, rfl⟩ := createAirdrop_ok hc
  exact ⟨hpos, nextId, hnext, rfl, rfl, rfl⟩

/-- Recovering writes nothing but its event. -/
theorem recoverUnclaimedAirdrop_effect {admin : Address} {campaignId : U32}
    (h : exec s (env, .recoverUnclaimedAirdrop admin campaignId) = .ok s') :
    s'.airdropCampaign = s.airdropCampaign ∧ s'.airdropClaimed = s.airdropClaimed ∧
      s'.airdropCampaignCount = s.airdropCampaignCount := by
  obtain ⟨unclaimed, hc⟩ := map_snd_eq_ok.mp h
  obtain ⟨_, campaign, _, _, _, rfl⟩ := recoverUnclaimedAirdrop_ok hc
  exact ⟨rfl, rfl, rfl⟩

omit [DecidableEq Address] [Airdrop.XdrBytes Address] in
theorem CampaignsSound.congr (hs : CampaignsSound s) (hc : s'.airdropCampaign = s.airdropCampaign)
    (hn : s'.airdropCampaignCount = s.airdropCampaignCount) : CampaignsSound s' := by
  refine ⟨?_, ?_⟩
  · show Numbered s'.airdropCampaign.get (s'.airdropCampaignCount.getD 0)
    rw [hc, hn]
    exact hs.ids
  · rw [hc]
    exact hs.sound

/-- Every accepted call keeps the campaigns sound. -/
theorem CampaignsSound.step (hs : CampaignsSound s) (h : exec s i = .ok s') :
    CampaignsSound s' := by
  have hframe := (exec_frame h).airdrop
  obtain ⟨env, call⟩ := i
  cases call with
  | createAirdrop admin totalAmount expiryLedger merkleRoot =>
    obtain ⟨hpos, nextId, hnext, hc, _, hn⟩ := createAirdrop_effect h
    refine ⟨?_, ?_⟩
    · show Numbered s'.airdropCampaign.get (s'.airdropCampaignCount.getD 0)
      rw [hc, hn, Table.get_set_eq]
      exact hs.ids.add hnext _
    · rw [hc]
      exact Table.forall_set (P := fun _ campaign => CampaignSound campaign) hs.sound
        ⟨le_refl 0, hpos.le⟩
  | claimAirdrop campaignId recipient amount proof =>
    obtain ⟨campaign, claimedAmount, hc⟩ := claimAirdrop_effect h
    have hcampaign : CampaignSound campaign := hs.sound _ _ hc.get
    have hnonneg : 0 ≤ claimedAmount.val := by
      have := hcampaign.1
      rw [hc.booked]
      exact Int.add_nonneg this hc.pos.le
    refine ⟨?_, ?_⟩
    · show Numbered s'.airdropCampaign.get (s'.airdropCampaignCount.getD 0)
      rw [hc.campaigns, hc.count, Table.get_set_eq]
      exact hs.ids.replace hc.get _
    · rw [hc.campaigns]
      exact Table.forall_set (P := fun _ campaign => CampaignSound campaign) hs.sound
        ⟨hnonneg, hc.within⟩
  | recoverUnclaimedAirdrop admin campaignId =>
    obtain ⟨hc, _, hn⟩ := recoverUnclaimedAirdrop_effect h
    exact hs.congr hc hn
  | _ =>
    obtain ⟨hc, _, hn⟩ := hframe Part.noConfusion
    exact hs.congr hc hn

/-- What every accepted call does to every campaign. -/
theorem exec_campaign (hs : CampaignsSound s) (h : exec s i = .ok s') (campaignId : U32) :
    CampaignAdvance (getAirdropCampaign s campaignId) (getAirdropCampaign s' campaignId)
      (creditedByClaim campaignId s i) := by
  have hframe := (exec_frame h).airdrop
  obtain ⟨env, call⟩ := i
  cases call with
  | createAirdrop admin totalAmount expiryLedger merkleRoot =>
    obtain ⟨_, nextId, _, hc, _, _⟩ := createAirdrop_effect h
    show CampaignAdvance _ _ 0
    rw [getAirdropCampaign, getAirdropCampaign, hc, Table.get_set]
    split
    · next heq =>
      rw [heq, ← getAirdropCampaign, hs.ids.fresh]
      exact .created _ rfl
    · exact .refl _
  | claimAirdrop id recipient amount proof =>
    obtain ⟨campaign, claimedAmount, hc⟩ := claimAirdrop_effect h
    show CampaignAdvance _ _ (if id = campaignId then _ else 0)
    rw [getAirdropCampaign, getAirdropCampaign, hc.campaigns, Table.get_set]
    by_cases heq : id = campaignId
    · subst heq
      rw [if_pos rfl, if_pos rfl, ← getAirdropCampaign, hc.get, hc.credited]
      exact .grown campaign _ amount.val rfl hc.booked hc.pos.le
    · rw [if_neg heq, if_neg fun he => heq he.symm]
      exact .refl _
  | recoverUnclaimedAirdrop admin id =>
    obtain ⟨hc, _, _⟩ := recoverUnclaimedAirdrop_effect h
    rw [getAirdropCampaign, getAirdropCampaign, hc]
    exact .refl _
  | _ =>
    obtain ⟨hc, _, _⟩ := hframe Part.noConfusion
    rw [getAirdropCampaign, getAirdropCampaign, hc]
    exact .refl _

/-- Claim marks stay. -/
theorem exec_marks (h : exec s i = .ok s') {campaignId : U32} {recipient : Address}
    (hm : hasClaimedAirdrop s campaignId recipient = true) :
    hasClaimedAirdrop s' campaignId recipient = true := by
  have hframe := (exec_frame h).airdrop
  obtain ⟨env, call⟩ := i
  cases call with
  | createAirdrop admin totalAmount expiryLedger merkleRoot =>
    obtain ⟨_, nextId, _, _, hmarks, _⟩ := createAirdrop_effect h
    rw [hasClaimedAirdrop, hmarks]
    exact hm
  | claimAirdrop id recipient' amount proof =>
    obtain ⟨campaign, claimedAmount, hc⟩ := claimAirdrop_effect h
    rw [hasClaimedAirdrop, Table.has, hc.marks, Table.get_set]
    split
    · rfl
    · exact hm
  | recoverUnclaimedAirdrop admin id =>
    obtain ⟨_, hmarks, _⟩ := recoverUnclaimedAirdrop_effect h
    rw [hasClaimedAirdrop, hmarks]
    exact hm
  | _ =>
    obtain ⟨_, hmarks, _⟩ := hframe Part.noConfusion
    rw [hasClaimedAirdrop, hmarks]
    exact hm

end Steps

/-! ## Runs -/

section Runs

variable {admin : Address} {s₀ : Storage Address}

omit [Airdrop.XdrBytes Address] in
theorem Initialised.campaignsSound (h : Initialised admin s₀) : CampaignsSound s₀ := by
  obtain ⟨env, h⟩ := h
  obtain ⟨_, _, rfl⟩ := initializeContract_ok.mp h
  exact ⟨numbered_empty, fun id campaign hget => absurd hget Table.get_empty_ne_some⟩

theorem campaignsSound_after (h : Initialised admin s₀)
    (past : List (Env Address × Call Address)) : CampaignsSound (after exec s₀ past) :=
  after_invariant h.campaignsSound (fun _ _ _ hs he => hs.step he) past

/-- The claimed amount is the sum of what the claims of the run credited. -/
theorem claimedAmount_eq (h : Initialised admin s₀) (past : List (Env Address × Call Address))
    {campaignId : U32} {campaign : AirdropCampaign}
    (hget : getAirdropCampaign (after exec s₀ past) campaignId = some campaign) :
    campaign.claimedAmount.val = accumulated exec s₀ (creditedByClaim campaignId) past := by
  have hstart : getAirdropCampaign s₀ campaignId = none := by
    obtain ⟨env, h⟩ := h
    obtain ⟨_, _, rfl⟩ := initializeContract_ok.mp h
    rfl
  have hrun := amount_after (fun s => getAirdropCampaign s campaignId) hstart
    (fun e i s' he => exec_campaign (campaignsSound_after h e) he campaignId) past
  simp only [hget] at hrun
  exact hrun

/-- From any point of a run on, a campaign keeps its terms. -/
theorem campaign_kept (h : Initialised admin s₀)
    {earlier past : List (Env Address × Call Address)} (hsuf : earlier <:+ past)
    {campaignId : U32} {campaign : AirdropCampaign}
    (hget : getAirdropCampaign (after exec s₀ earlier) campaignId = some campaign) :
    ∃ campaign', getAirdropCampaign (after exec s₀ past) campaignId = some campaign' ∧
      campaign'.terms = campaign.terms ∧
      campaign.claimedAmount.val ≤ campaign'.claimedAmount.val :=
  kept_after (fun s => getAirdropCampaign s campaignId)
    (fun e _ _ he => exec_campaign (campaignsSound_after h e) he campaignId) hsuf hget

/-- A recipient claims a campaign at most once. -/
theorem claimed_once {past e f : List (Env Address × Call Address)} {env env' : Env Address}
    {campaignId : U32} {recipient : Address} {amount amount' : I128} {proof proof' : List Bytes32}
    (hi : (env, .claimAirdrop campaignId recipient amount proof) :: e <:+ past)
    (hai : Accepted exec s₀ e (env, .claimAirdrop campaignId recipient amount proof))
    (hj : (env', .claimAirdrop campaignId recipient amount' proof') :: f <:+ past)
    (haj : Accepted exec s₀ f (env', .claimAirdrop campaignId recipient amount' proof')) :
    (env, Call.claimAirdrop campaignId recipient amount proof) :: e =
      (env', .claimAirdrop campaignId recipient amount' proof') :: f := by
  refine accepted_once
    (fun _ i => ∃ env amount proof, i = (env, Call.claimAirdrop campaignId recipient amount proof))
    (fun s => hasClaimedAirdrop s campaignId recipient = true) ?_ ?_ ?_ hi ⟨_, _, _, rfl⟩ hai hj
    ⟨_, _, _, rfl⟩ haj
  · rintro s _ s' ⟨env, amount, proof, rfl⟩ he
    obtain ⟨campaign, claimedAmount, hc⟩ := claimAirdrop_effect he
    rw [hasClaimedAirdrop, Table.has, hc.marks, Table.get_set_self]
    rfl
  · intro e i s' _ hm he
    exact exec_marks he hm
  · rintro s _ s' ⟨env, amount, proof, rfl⟩ hm he
    obtain ⟨campaign, claimedAmount, hc⟩ := claimAirdrop_effect he
    rw [hc.unmarked] at hm
    cases hm

/-- The accounting of every run. The ids in use are those below the count; a
campaign keeps its terms and its id is not given out again; claimed amounts are
what was credited and stay within the total; nobody is credited twice by a
campaign; nothing is claimed after the expiry; and a claim leaves the records and
marks of the other campaigns as they are. -/
theorem airdrops_accounted (h : Initialised admin s₀)
    (past : List (Env Address × Call Address)) :
    (∀ id, (getAirdropCampaign (after exec s₀ past) id).isSome ↔
      id.val < (airdropCampaignCount (after exec s₀ past)).val) ∧
    (∀ id earlier campaign, earlier <:+ past →
      getAirdropCampaign (after exec s₀ earlier) id = some campaign →
      (∃ campaign', getAirdropCampaign (after exec s₀ past) id = some campaign' ∧
        campaign'.terms = campaign.terms) ∧
      ∀ env admin' totalAmount expiryLedger merkleRoot id' s',
        createAirdrop env (after exec s₀ past) admin' totalAmount expiryLedger merkleRoot =
          .ok (id', s') → id' ≠ id) ∧
    (∀ id campaign, getAirdropCampaign (after exec s₀ past) id = some campaign →
      campaign.claimedAmount.val = accumulated exec s₀ (creditedByClaim id) past ∧
      campaign.claimedAmount.val ≤ campaign.totalAmount.val) ∧
    (∀ id recipient env amount proof e env' amount' proof' f,
      (env, .claimAirdrop id recipient amount proof) :: e <:+ past →
      Accepted exec s₀ e (env, .claimAirdrop id recipient amount proof) →
      (env', .claimAirdrop id recipient amount' proof') :: f <:+ past →
      Accepted exec s₀ f (env', .claimAirdrop id recipient amount' proof') →
      (env, Call.claimAirdrop id recipient amount proof) :: e =
        (env', .claimAirdrop id recipient amount' proof') :: f) ∧
    (∀ id campaign env recipient amount proof,
      getAirdropCampaign (after exec s₀ past) id = some campaign →
      campaign.expiryLedger.val < env.sequence.val →
      ¬ Accepted exec s₀ past (env, .claimAirdrop id recipient amount proof)) ∧
    (∀ id env recipient amount proof,
      Accepted exec s₀ past (env, .claimAirdrop id recipient amount proof) → ∀ id', id' ≠ id →
      getAirdropCampaign
          (after exec s₀ ((env, .claimAirdrop id recipient amount proof) :: past)) id' =
        getAirdropCampaign (after exec s₀ past) id' ∧
      ∀ a, hasClaimedAirdrop
          (after exec s₀ ((env, .claimAirdrop id recipient amount proof) :: past)) id' a =
        hasClaimedAirdrop (after exec s₀ past) id' a) := by
  have hs := campaignsSound_after h past
  refine ⟨hs.ids, ?_, ?_, ?_, ?_, ?_⟩
  · intro id earlier campaign hsuf hget
    obtain ⟨campaign', hget', hterms, _⟩ := campaign_kept h hsuf hget
    refine ⟨⟨campaign', hget', hterms⟩, ?_⟩
    rintro env admin' totalAmount expiryLedger merkleRoot id' s' hc rfl
    obtain ⟨_, _, _, hid, _⟩ := createAirdrop_ok hc
    rw [hid, ← airdropCampaignCount, hs.ids.fresh] at hget'
    cases hget'
  · intro id campaign hget
    exact ⟨claimedAmount_eq h past hget, (hs.sound id campaign hget).2⟩
  · intro id recipient env amount proof e env' amount' proof' f hi hai hj haj
    exact claimed_once hi hai hj haj
  · rintro id campaign env recipient amount proof hget hlate ⟨s', he⟩
    obtain ⟨campaign', claimedAmount, hc⟩ := claimAirdrop_effect he
    have hsame := hc.get
    rw [hget] at hsame
    cases hsame
    exact absurd hc.in_time (not_le.mpr hlate)
  · rintro id env recipient amount proof ⟨s', he⟩ id' hne
    obtain ⟨campaign, claimedAmount, hc⟩ := claimAirdrop_effect he
    rw [after, apply_ok he]
    refine ⟨?_, fun a => ?_⟩
    · rw [getAirdropCampaign, hc.campaigns, Table.get_set_ne hne]
      rfl
    · have hkey : (id', a) ≠ (id, recipient) := fun hk => hne (Prod.mk.inj hk).1
      rw [hasClaimedAirdrop, Table.has, hc.marks, Table.get_set_ne hkey]
      rfl

/-- A campaign of 1000 whose only entry is 300 for contract 2, claimed at ledger 5. -/
def exampleAirdropRun : List (Env Nat × Call Nat) :=
  [(exampleEnv (.lit 5) [2], .claimAirdrop 0 2 (.lit 300) []),
    (exampleEnv 0 [1],
      .createAirdrop 1 (.lit 1000) (.lit 10) (Airdrop.computeLeaf 2 (.lit 300)))]

theorem airdrops_accounted_claim :
    ∃ campaign, getAirdropCampaign (after exec exampleToken exampleAirdropRun) 0 = some campaign ∧
      campaign.claimedAmount.val = 300 := by
  obtain ⟨campaign, hget⟩ := Option.isSome_iff_exists.mp
    (show (getAirdropCampaign (after exec exampleToken exampleAirdropRun) 0).isSome = true by
      decide +kernel)
  obtain ⟨_, _, hsum, _⟩ := airdrops_accounted exampleToken_initialised exampleAirdropRun
  exact ⟨campaign, hget, (hsum 0 campaign hget).1.trans (by decide +kernel)⟩

end Runs

end Scoopdope.Token

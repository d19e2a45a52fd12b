import Scoopdope.Token.AirdropClaims

/-!
# Token: what airdrops pay out

Claims are taken until the expiry ledger of a campaign and recoveries after it, so in a run at
nondecreasing ledgers no claim follows a recovery. A recovery reports what is unclaimed and writes
nothing, neither a mark, as a claim leaves one, nor the campaign. The next one reports the same
amount again.

`recovered_once_iff`: claims and recoveries stay within the total of a campaign exactly while a
second recovery finds nothing unclaimed.
-/

namespace Scoopdope.Token

open Soroban

variable {Address : Type} [DecidableEq Address] [Airdrop.XdrBytes Address]

/-- What a call returns as recovered from the campaign. -/
def recoveredBy (campaignId : U32) (s : Storage Address) (i : Env Address × Call Address) : Int :=
  match i.2 with
  | .recoverUnclaimedAirdrop admin campaignId' =>
    if campaignId' = campaignId then
      match recoverUnclaimedAirdrop i.1 s admin campaignId with
      | .ok (unclaimed, _) => unclaimed.val
      | .error _ => 0
    else 0
  | _ => 0

/-- The call is an accepted recovery of the campaign. -/
def Recovers (s₀ : Storage Address) (campaignId : U32) (earlier : List (Env Address × Call Address))
    (i : Env Address × Call Address) : Prop :=
  (∃ admin, i.2 = .recoverUnclaimedAirdrop admin campaignId) ∧ Accepted exec s₀ earlier i

/-- What was claimed from the campaign and what was recovered are within its total. -/
def PaidWithinTotal (s₀ : Storage Address) (campaignId : U32)
    (past : List (Env Address × Call Address)) : Prop :=
  ∀ campaign, getAirdropCampaign (after exec s₀ past) campaignId = some campaign →
    accumulated exec s₀ (creditedByClaim campaignId) past +
      accumulated exec s₀ (recoveredBy campaignId) past ≤ campaign.totalAmount.val

/-- A recovery after another one finds nothing unclaimed. -/
def NothingLeftTwice (s₀ : Storage Address) (campaignId : U32)
    (earlier : List (Env Address × Call Address)) (i : Env Address × Call Address) : Prop :=
  Recovers s₀ campaignId earlier i → Occurs (Recovers s₀ campaignId) earlier →
    ∀ campaign, getAirdropCampaign (after exec s₀ earlier) campaignId = some campaign →
      campaign.claimedAmount = campaign.totalAmount

/-! ## One call -/

section Steps

variable {s s' : Storage Address} {i : Env Address × Call Address} {campaignId : U32}

/-- An accepted recovery is late, and returns what is unclaimed. -/
theorem recoveredBy_eq {admin : Address} (hi : i.2 = .recoverUnclaimedAirdrop admin campaignId)
    (h : exec s i = .ok s') :
    ∃ campaign, getAirdropCampaign s campaignId = some campaign ∧
      campaign.expiryLedger.val < i.1.sequence.val ∧
      recoveredBy campaignId s i = campaign.totalAmount.val - campaign.claimedAmount.val := by
  obtain ⟨env, call⟩ := i
  cases hi
  obtain ⟨unclaimed, hc⟩ := map_snd_eq_ok.mp h
  obtain ⟨_, campaign, hget, hlate, hunclaimed, _⟩ := recoverUnclaimedAirdrop_ok hc
  refine ⟨campaign, hget, hlate, ?_⟩
  show (if campaignId = campaignId then
    match recoverUnclaimedAirdrop env s admin campaignId with
    | .ok (unclaimed, _) => unclaimed.val
    | .error _ => 0
    else 0) = _
  rw [if_pos rfl, hc]
  exact hunclaimed

omit [Airdrop.XdrBytes Address] in
theorem recoveredBy_other (hi : ¬ ∃ admin, i.2 = .recoverUnclaimedAirdrop admin campaignId) :
    recoveredBy campaignId s i = 0 := by
  obtain ⟨env, call⟩ := i
  cases call with
  | recoverUnclaimedAirdrop admin campaignId' =>
    have hne : campaignId' ≠ campaignId := by
      rintro rfl
      exact hi ⟨admin, rfl⟩
    exact if_neg hne
  | _ => rfl

theorem creditedByClaim_of_late {campaign : AirdropCampaign}
    (hget : getAirdropCampaign s campaignId = some campaign)
    (hlate : campaign.expiryLedger.val < i.1.sequence.val) (h : exec s i = .ok s') :
    creditedByClaim campaignId s i = 0 := by
  obtain ⟨env, call⟩ := i
  cases call with
  | claimAirdrop campaignId' recipient amount proof =>
    refine if_neg ?_
    rintro rfl
    obtain ⟨campaign', _, hc⟩ := claimAirdrop_effect h
    have hsame := hc.get
    rw [hget] at hsame
    cases hsame
    exact absurd hc.in_time (not_le.mpr hlate)
  | _ => rfl

theorem recoveredBy_nonneg (hs : CampaignsSound s) (h : exec s i = .ok s') :
    0 ≤ recoveredBy campaignId s i := by
  by_cases hi : ∃ admin, i.2 = .recoverUnclaimedAirdrop admin campaignId
  · obtain ⟨admin, hi⟩ := hi
    obtain ⟨campaign, hget, _, hunclaimed⟩ := recoveredBy_eq hi h
    have hle := (hs.sound campaignId campaign hget).2
    omega
  · exact (recoveredBy_other hi).ge

end Steps

/-! ## Runs -/

section Runs

variable {admin : Address} {s₀ : Storage Address} {past e : List (Env Address × Call Address)}
  {campaignId : U32} {i : Env Address × Call Address}

/-- Nothing was recovered where no recovery was accepted. -/
theorem recovered_eq_zero (h : ¬ Occurs (Recovers s₀ campaignId) past) :
    accumulated exec s₀ (recoveredBy campaignId) past = 0 := by
  refine accumulated_of_guarded (guarded_iff.mpr fun i e hi hacc => recoveredBy_other ?_)
  exact fun hcall => h ⟨i, e, hi, hcall, hacc⟩

/-- From an accepted recovery on, the campaign is as the recovery found it. -/
theorem campaign_after_recovery (h : Initialised admin s₀)
    (hmono : Nondecreasing (fun i => i.1.sequence.val) past) (hi : i :: e <:+ past)
    (hrec : Recovers s₀ campaignId e i) :
    ∃ campaign campaign', getAirdropCampaign (after exec s₀ e) campaignId = some campaign ∧
      getAirdropCampaign (after exec s₀ past) campaignId = some campaign' ∧
      campaign'.totalAmount = campaign.totalAmount ∧
      campaign'.claimedAmount.val = campaign.claimedAmount.val ∧
      recoveredBy campaignId (after exec s₀ e) i =
        campaign.totalAmount.val - campaign.claimedAmount.val := by
  obtain ⟨⟨caller, hcall⟩, s', he⟩ := hrec
  obtain ⟨campaign, hget, hlate, hunclaimed⟩ := recoveredBy_eq hcall he
  have hsame : getAirdropCampaign s' campaignId = some campaign := by
    obtain ⟨env, call⟩ := i
    cases hcall
    rw [getAirdropCampaign, (recoverUnclaimedAirdrop_effect he).1]
    exact hget
  have hfrom : getAirdropCampaign (after exec s₀ (i :: e)) campaignId = some campaign := by
    rw [after, apply_ok he]
    exact hsame
  -- the ledgers do not go back behind the expiry
  have hnone : ∀ f j t, j :: f <:+ past → i :: e <:+ f → exec (after exec s₀ f) j = .ok t →
      creditedByClaim campaignId (after exec s₀ f) j = 0 := by
    intro f j t hj hbefore hf
    obtain ⟨campaign₁, hget₁, hterms₁, _⟩ := campaign_kept h hbefore hfrom
    have hexpiry : campaign₁.expiryLedger = campaign.expiryLedger :=
      (Prod.mk.inj (Prod.mk.inj (Prod.mk.inj hterms₁).2).2).1
    have hle : i.1.sequence.val ≤ j.1.sequence.val := hmono.le hj hbefore
    exact creditedByClaim_of_late hget₁ (hexpiry ▸ hlate.trans_le hle) hf
  obtain ⟨campaign', hget', hterms, hclaimed⟩ := unchanged_after
    (fun s => getAirdropCampaign s campaignId)
    (fun f _ _ hf => exec_campaign (campaignsSound_after h f) hf campaignId) hi hfrom hnone
  exact ⟨campaign, campaign', hget, hget', (Prod.mk.inj (Prod.mk.inj hterms).2).1, hclaimed,
    hunclaimed⟩

/-- Without a recovery, or with one that found nothing: what was claimed is within the total. -/
theorem paidWithinTotal_of_zero (h : Initialised admin s₀)
    (hzero : accumulated exec s₀ (recoveredBy campaignId) past = 0) :
    PaidWithinTotal s₀ campaignId past := by
  intro campaign hget
  have hsound := (campaignsSound_after h past).sound campaignId campaign hget
  rw [hzero, ← claimedAmount_eq h past hget, Int.add_zero]
  exact hsound.2

/-- After a recovery, the total is paid out. -/
theorem paid_after_recovery (h : Initialised admin s₀)
    (hmono : Nondecreasing (fun i => i.1.sequence.val) past)
    (hrec : Occurs (Recovers s₀ campaignId) past) (hpaid : PaidWithinTotal s₀ campaignId past) :
    ∃ campaign, getAirdropCampaign (after exec s₀ past) campaignId = some campaign ∧
      accumulated exec s₀ (creditedByClaim campaignId) past = campaign.claimedAmount.val ∧
      accumulated exec s₀ (recoveredBy campaignId) past =
        campaign.totalAmount.val - campaign.claimedAmount.val := by
  obtain ⟨i, e, hi, hrec⟩ := hrec
  obtain ⟨campaign, campaign', _, hget', htotal, hclaimed, hunclaimed⟩ :=
    campaign_after_recovery h hmono hi hrec
  have hle := le_accumulated (f := recoveredBy campaignId)
    (fun f _ _ _ hf => recoveredBy_nonneg (campaignsSound_after h f) hf) hi hrec.2
  have hsum := claimedAmount_eq h past hget'
  have hwithin := hpaid campaign' hget'
  refine ⟨campaign', hget', hsum.symm, ?_⟩
  rw [htotal] at hwithin ⊢
  omega

theorem recovered_cons_of_not (hrec : ¬ Recovers s₀ campaignId e i) :
    accumulated exec s₀ (recoveredBy campaignId) (i :: e) =
      accumulated exec s₀ (recoveredBy campaignId) e := by
  cases he : exec (after exec s₀ e) i with
  | ok s' =>
    rw [accumulated_ok he, recoveredBy_other fun hcall => hrec ⟨hcall, s', he⟩, Int.add_zero]
  | error t => rw [accumulated_error he]

/-- A recovery adds what is unclaimed, and leaves the campaign and its claims as they are. -/
theorem recovered_cons (hrec : Recovers s₀ campaignId e i) :
    ∃ campaign, getAirdropCampaign (after exec s₀ e) campaignId = some campaign ∧
      getAirdropCampaign (after exec s₀ (i :: e)) campaignId = some campaign ∧
      accumulated exec s₀ (creditedByClaim campaignId) (i :: e) =
        accumulated exec s₀ (creditedByClaim campaignId) e ∧
      accumulated exec s₀ (recoveredBy campaignId) (i :: e) =
        accumulated exec s₀ (recoveredBy campaignId) e +
          (campaign.totalAmount.val - campaign.claimedAmount.val) := by
  obtain ⟨⟨caller, hcall⟩, s', he⟩ := hrec
  obtain ⟨campaign, hget, hlate, hunclaimed⟩ := recoveredBy_eq hcall he
  refine ⟨campaign, hget, ?_, ?_, ?_⟩
  · obtain ⟨env, call⟩ := i
    cases hcall
    rw [after, apply_ok he, getAirdropCampaign, (recoverUnclaimedAirdrop_effect he).1]
    exact hget
  · rw [accumulated_ok he, creditedByClaim_of_late hget hlate he, Int.add_zero]
  · rw [accumulated_ok he, hunclaimed]

/-- One more call stays within the total exactly when it is no second recovery of
something left. -/
theorem paidWithinTotal_step (h : Initialised admin s₀)
    (hmono : Nondecreasing (fun i => i.1.sequence.val) (i :: e))
    (hpaid : PaidWithinTotal s₀ campaignId e) :
    PaidWithinTotal s₀ campaignId (i :: e) ↔ NothingLeftTwice s₀ campaignId e i := by
  have hmono' := hmono.of_suffix (List.suffix_cons i e)
  by_cases hocc : Occurs (Recovers s₀ campaignId) e
  · obtain ⟨campaign, hget, hclaimed, hrecovered⟩ := paid_after_recovery h hmono' hocc hpaid
    have hsound := (campaignsSound_after h e).sound campaignId campaign hget
    by_cases hrec : Recovers s₀ campaignId e i
    · obtain ⟨campaign', hsame, hget', hclaims, hmore⟩ := recovered_cons hrec
      rw [hget] at hsame
      cases hsame
      constructor
      · intro hp _ _ campaign' hsame
        rw [hget] at hsame
        cases hsame
        have hwithin := hp campaign hget'
        have hle := hsound.2
        exact BoundedInt.ext (by omega)
      · intro hg campaign' hsame
        rw [hget'] at hsame
        cases hsame
        have hall := congrArg BoundedInt.val (hg hrec hocc campaign hget)
        omega
    · refine iff_of_true ?_ fun hrec' => absurd hrec' hrec
      intro campaign' hget'
      obtain ⟨j, f, hj, hrecj⟩ := hocc
      -- the campaign is as the earlier recovery found it, before the call and after it
      obtain ⟨c, c₁, hc, hc₁, htotal₁, hclaimed₁, _⟩ := campaign_after_recovery h hmono' hj hrecj
      obtain ⟨c', c₂, hc', hc₂, htotal₂, hclaimed₂, _⟩ :=
        campaign_after_recovery h hmono (hj.trans (List.suffix_cons i e)) hrecj
      rw [hc] at hc'
      cases hc'
      rw [hget] at hc₁
      cases hc₁
      rw [hget'] at hc₂
      cases hc₂
      have hsum := claimedAmount_eq h (i :: e) hget'
      rw [recovered_cons_of_not hrec, hrecovered, ← hsum, htotal₂, ← htotal₁]
      omega
  · refine iff_of_true ?_ fun _ hocc' => absurd hocc' hocc
    have hzero := recovered_eq_zero hocc
    by_cases hrec : Recovers s₀ campaignId e i
    · obtain ⟨campaign, hget, hget', hclaims, hmore⟩ := recovered_cons hrec
      intro campaign' hsame
      rw [hget'] at hsame
      cases hsame
      have hsum := claimedAmount_eq h e hget
      omega
    · exact paidWithinTotal_of_zero h ((recovered_cons_of_not hrec).trans hzero)

/-- In every run at nondecreasing ledgers, what was claimed from a campaign and what was recovered
stay within its total at every point exactly when no recovery follows an earlier one while some
of the campaign is unclaimed. -/
theorem recovered_once_iff (h : Initialised admin s₀)
    (past : List (Env Address × Call Address))
    (hmono : Nondecreasing (fun i => i.1.sequence.val) past) (campaignId : U32) :
    (∀ earlier, earlier <:+ past → PaidWithinTotal s₀ campaignId earlier) ↔
      Guarded (NothingLeftTwice s₀ campaignId) past := by
  refine throughout_iff_guarded ?_ past fun e i hi hp =>
    paidWithinTotal_step h (hmono.of_suffix hi) hp
  exact paidWithinTotal_of_zero h rfl

end Runs

/-- A campaign of 1000 of which 300 are claimed, recovered twice after it expired. -/
def recoveredTwice : List (Env Nat × Call Nat) :=
  [(exampleEnv (.lit 12) [3], .recoverUnclaimedAirdrop 3 0),
    (exampleEnv (.lit 11) [3], .recoverUnclaimedAirdrop 3 0)] ++ exampleAirdropRun

/-- 300 are claimed and twice 700 recovered, of 1000. -/
theorem recoveredTwice_paid :
    ∃ campaign, getAirdropCampaign (after exec exampleToken recoveredTwice) 0 = some campaign ∧
      campaign.totalAmount.val = 1000 ∧
      accumulated exec exampleToken (creditedByClaim 0) recoveredTwice +
        accumulated exec exampleToken (recoveredBy 0) recoveredTwice = 1700 := by
  have htotal : (getAirdropCampaign (after exec exampleToken recoveredTwice) 0).map
      (fun campaign => campaign.totalAmount.val) = some 1000 := by decide +kernel
  obtain ⟨campaign, hget, htotal⟩ := Option.map_eq_some_iff.mp htotal
  exact ⟨campaign, hget, htotal, by decide +kernel⟩

theorem recovered_twice_exceeds :
    Initialised 1 exampleToken ∧ Nondecreasing (fun i => i.1.sequence.val) recoveredTwice ∧
      ¬ PaidWithinTotal exampleToken 0 recoveredTwice := by
  refine ⟨exampleToken_initialised, by decide, fun hp => ?_⟩
  obtain ⟨campaign, hget, htotal, hsum⟩ := recoveredTwice_paid
  have hle := hp campaign hget
  omega

theorem recovered_once_iff_recoveredTwice :
    ¬ Guarded (NothingLeftTwice exampleToken 0) recoveredTwice := by
  intro hg
  obtain ⟨campaign, hget, htotal, hsum⟩ := recoveredTwice_paid
  have hle := (recovered_once_iff exampleToken_initialised recoveredTwice (by decide) 0).mpr hg
    recoveredTwice (List.suffix_refl _) campaign hget
  omega

end Scoopdope.Token

import Scoopdope.Soroban.MerkleTree
import Scoopdope.Token.AirdropClaims

/-!
# Token: airdrop proofs

`verify_merkle_proof` folds the proof onto the leaf with `hash_pair`, which is
the exclusive or of the two digests. A listed recipient can always prove its
entry (`listed_claim_succeeds`). But so can everybody else: the one sibling
`hash_pair(leaf, root)` leads from any leaf to the root, and the proof check
excludes nobody (`airdrop_sound_iff`).
-/

namespace Scoopdope.Token

open Soroban

namespace Airdrop

theorem hashPair_comm (a b : Bytes32) : hashPair a b = hashPair b a := by
  refine Vector.ext fun i hi => ?_
  simp only [hashPair, Vector.getElem_zipWith]
  exact UInt8.xor_comm _ _

/-- The pair hash is its own inverse. -/
theorem hashPair_cancel (a root : Bytes32) : hashPair a (hashPair a root) = root := by
  refine Vector.ext fun i hi => ?_
  simp only [hashPair, Vector.getElem_zipWith]
  rw [← UInt8.xor_assoc, UInt8.xor_self, UInt8.zero_xor]

theorem verifyMerkleProof_iff {leaf root : Bytes32} {proof : List Bytes32} :
    verifyMerkleProof leaf root proof = true ↔ Merkle.climb hashPair leaf proof = root := by
  unfold verifyMerkleProof
  exact decide_eq_true_iff

variable {Address : Type} [XdrBytes Address]

/-- The leaf of an entry of the airdrop list. -/
def leafOf (entry : Address × I128) : Bytes32 := computeLeaf entry.1 entry.2

/-- The root of a list that was hashed as the tree `t`. -/
def merkleRoot (t : Merkle.Tree (Address × I128)) : Bytes32 := t.root leafOf hashPair

end Airdrop

open Airdrop (leafOf hashPair merkleRoot)

variable {Address : Type}

/-- The checks of `claim_airdrop` other than the proof. -/
structure Claimable (env : Env Address) (s : Storage Address) (campaignId : U32)
    (campaign : AirdropCampaign) (recipient : Address) (amount : I128) [DecidableEq Address] :
    Prop where
  auth : recipient ∈ env.auths
  pos : 0 < amount.val
  in_time : env.sequence.val ≤ campaign.expiryLedger.val
  unmarked : hasClaimedAirdrop s campaignId recipient = false
  within : campaign.claimedAmount.val + amount.val ≤ campaign.totalAmount.val
  fits : (totalSupply s).val + amount.val ≤ maxSupply.val

variable [DecidableEq Address] [Airdrop.XdrBytes Address] {env : Env Address}
  {s : Storage Address} {campaignId : U32} {campaign : AirdropCampaign} {recipient : Address}
  {amount : I128}

/-- With the other checks passed, a claim is accepted for every proof that leads to the
root. -/
theorem claimAirdrop_succeeds {admin : Address} {minted : Int} (hc : Conserved admin minted s)
    (hget : getAirdropCampaign s campaignId = some campaign)
    (hsound : CampaignSound campaign)
    (hchecks : Claimable env s campaignId campaign recipient amount) {proof : List Bytes32}
    (hproof : Merkle.climb hashPair (leafOf (recipient, amount)) proof = campaign.merkleRoot) :
    ∃ s', claimAirdrop env s campaignId recipient amount proof = .ok (true, s') := by
  have hpos := hchecks.pos
  have hwithin := hchecks.within
  have hmax := campaign.totalAmount.le_hi
  have hlo := amount.lo_le
  have hnonneg := hsound.1
  have hclaimed : (⟨campaign.claimedAmount.val + amount.val, by omega, by omega⟩ : I128).val =
      campaign.claimedAmount.val + amount.val := rfl
  generalize (⟨campaign.claimedAmount.val + amount.val, _, _⟩ : I128) = claimedAmount at hclaimed
  let s₁ : Storage Address := { s with
    airdropCampaign := s.airdropCampaign.set campaignId { campaign with claimedAmount }
    airdropClaimed := s.airdropClaimed.set (campaignId, recipient) true }.publish
      [.symbol "airdrop", .symbol "claimed"] [.u32 campaignId, .address recipient, .i128 amount]
  have hbooked : Airdrop.claimAirdrop env s campaignId recipient amount proof =
      .ok (true, s₁) := by
    simp only [Airdrop.claimAirdrop, bind_eq_ok, assert_eq_ok, expect_eq_ok,
      Env.requireAuth_eq_ok, pure_eq_ok, exists_const, BoundedInt.checkedAdd_eq_some]
    exact ⟨hchecks.auth, hpos, campaign, hget, hchecks.in_time, hchecks.unmarked,
      Airdrop.verifyMerkleProof_iff.mpr hproof, claimedAmount, hclaimed, by
        rw [BoundedInt.le_def, hclaimed]; exact hwithin, rfl⟩
  have hc₁ : Conserved admin minted s₁ := ⟨hc.admin, hc.sound, hc.cap, hc.flow⟩
  obtain ⟨s₂, s₃, h₂, h₃⟩ := credit_succeeds recipient hc₁ hpos hchecks.fits
  refine ⟨s₃, ?_⟩
  simp only [claimAirdrop, hbooked, ok_bind, if_true, bind_eq_ok, pure_eq_ok]
  exact ⟨s₂, h₂, s₃, h₃, rfl⟩

/-- An accepted claim passed the checks. -/
theorem claimable_of_ok {claimed : Bool} {s' : Storage Address} {proof : List Bytes32}
    (hget : getAirdropCampaign s campaignId = some campaign)
    (h : claimAirdrop env s campaignId recipient amount proof = .ok (claimed, s')) :
    Claimable env s campaignId campaign recipient amount := by
  obtain ⟨_, hauth, hpos, campaign', claimedAmount, hget', htime, hmark, _, hbooked, hwithin, v, w,
    hcredit, _⟩ := claimAirdrop_ok h
  have hsame := hget.symm.trans hget'
  cases hsame
  have hfits : (totalSupply s).val + amount.val ≤ maxSupply.val := by
    rw [← hcredit.supply_eq]
    exact hcredit.cap
  rw [hbooked] at hwithin
  exact ⟨hauth, hpos, htime, Table.has_eq_false.mpr hmark, hwithin, hfits⟩

section Runs

variable {admin : Address} {s₀ : Storage Address}

/-- A listed recipient can claim with the siblings on the path of its entry. -/
theorem listed_claim_succeeds (h : Initialised admin s₀)
    (past : List (Env Address × Call Address)) {t : Merkle.Tree (Address × I128)}
    (hget : getAirdropCampaign (after exec s₀ past) campaignId = some campaign)
    (hroot : campaign.merkleRoot = merkleRoot t) (hin : (recipient, amount) ∈ t.entries)
    (hchecks : Claimable env (after exec s₀ past) campaignId campaign recipient amount) :
    ∃ proof s', ((recipient, amount), proof) ∈ t.openings leafOf hashPair ∧
      claimAirdrop env (after exec s₀ past) campaignId recipient amount proof =
        .ok (true, s') := by
  have hopened : (recipient, amount) ∈ (t.openings leafOf hashPair).map Prod.fst := by
    rw [Merkle.Tree.openings_entries]
    exact hin
  obtain ⟨⟨_, proof⟩, ho, rfl⟩ := List.mem_map.mp hopened
  have hproof : Merkle.climb hashPair (leafOf (recipient, amount)) proof =
      campaign.merkleRoot := by
    rw [hroot]
    exact Merkle.climb_opening Airdrop.hashPair_comm ho
  obtain ⟨s', hs'⟩ := claimAirdrop_succeeds (conserved_after h past) hget
    ((campaignsSound_after h past).sound _ _ hget) hchecks hproof
  exact ⟨proof, s', ho, hs'⟩

/-- For a campaign whose root is that of a list: only an entry of the list can be
claimed, whatever the proof, exactly when the claim is one of an entry or one that
another check refuses. -/
theorem airdrop_sound_iff (h : Initialised admin s₀) (past : List (Env Address × Call Address))
    {t : Merkle.Tree (Address × I128)}
    (hget : getAirdropCampaign (after exec s₀ past) campaignId = some campaign)
    (_hroot : campaign.merkleRoot = merkleRoot t) (env : Env Address) (recipient : Address)
    (amount : I128) :
    (∀ proof, Accepted exec s₀ past (env, .claimAirdrop campaignId recipient amount proof) →
      (recipient, amount) ∈ t.entries) ↔
    ((recipient, amount) ∈ t.entries ∨
      ¬ Claimable env (after exec s₀ past) campaignId campaign recipient amount) := by
  constructor
  · intro hsound
    by_contra hnot
    rw [not_or, not_not] at hnot
    obtain ⟨hout, hchecks⟩ := hnot
    have hsteer : ∀ a root, ∃ b, hashPair a b = root :=
      fun a root => ⟨hashPair a root, Airdrop.hashPair_cancel a root⟩
    obtain ⟨proof, hproof⟩ :=
      Merkle.climb_reaches hsteer (leafOf (recipient, amount)) campaign.merkleRoot
    obtain ⟨s', hs'⟩ := claimAirdrop_succeeds (conserved_after h past) hget
      ((campaignsSound_after h past).sound _ _ hget) hchecks hproof
    exact hout (hsound proof ⟨s', map_snd_eq_ok.mpr ⟨true, hs'⟩⟩)
  · rintro (hin | hrefused) proof ⟨s', he⟩
    · exact hin
    · obtain ⟨claimed, hc⟩ := map_snd_eq_ok.mp he
      exact absurd (claimable_of_ok hget hc) hrefused

end Runs

/-- The list with 300 for contract 2 and 200 for contract 4, and a campaign of 1000
for it. -/
def exampleList : Merkle.Tree (Nat × I128) := .node (.leaf (2, .lit 300)) (.leaf (4, .lit 200))

def exampleCampaignRun : List (Env Nat × Call Nat) :=
  [(exampleEnv 0 [1], .createAirdrop 1 (.lit 1000) (.lit 10) (merkleRoot exampleList))]

theorem airdrop_sound_iff_unlisted :
    ¬ ∀ proof, Accepted exec exampleToken exampleCampaignRun
      (exampleEnv (.lit 5) [3], .claimAirdrop 0 3 (.lit 400) proof) →
      ((3, .lit 400) : Nat × I128) ∈ exampleList.entries := by
  obtain ⟨campaign, hget⟩ := Option.isSome_iff_exists.mp
    (show (getAirdropCampaign (after exec exampleToken exampleCampaignRun) 0).isSome = true by
      decide +kernel)
  have hcampaign : campaign = newCampaign 0 (.lit 1000) (.lit 10) (merkleRoot exampleList) :=
    Option.some.inj (hget.symm.trans (by rfl))
  subst hcampaign
  rw [airdrop_sound_iff exampleToken_initialised exampleCampaignRun hget rfl]
  rintro (hin | hrefused)
  · exact absurd hin (by decide +kernel)
  · exact hrefused ⟨by decide +kernel, by decide +kernel, by decide +kernel, by decide +kernel,
      by decide +kernel, by decide +kernel⟩

/-- Contract 3, which is not on the list, claims 400 with one forged sibling. -/
def forgedProof : List Bytes32 := [hashPair (leafOf (3, .lit 400)) (merkleRoot exampleList)]

theorem forged_claim_accepted :
    (getAirdropCampaign (after exec exampleToken exampleCampaignRun) 0).map
      AirdropCampaign.merkleRoot = some (merkleRoot exampleList) ∧
    ((3, .lit 400) : Nat × I128) ∉ exampleList.entries ∧
    Accepted exec exampleToken exampleCampaignRun
      (exampleEnv (.lit 5) [3], .claimAirdrop 0 3 (.lit 400) forgedProof) :=
  ⟨by decide +kernel, by decide +kernel, by decide +kernel⟩

end Scoopdope.Token

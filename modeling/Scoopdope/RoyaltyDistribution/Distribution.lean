import Scoopdope.RoyaltyDistribution.Solvency
import Scoopdope.Soroban.Table

/-!
# Royalty distribution: what a distribution pays out

A distribution always pays the creator and the platform, the last recipient. The
contributor is paid only when there is a second recipient: with one recipient the
platform's part falls back to that recipient, the contributor's part to nobody.
`distribution_adds` has what one distribution adds to the balances; what is cut off the
parts comes to less than three units (`cutOff_le_two_iff`).

The recipients of a course are numbered from 0 in every reachable storage, so a
distribution finds each recipient it looks for and traps only when a sum or a product
overflows.
-/

namespace Scoopdope.RoyaltyDistribution

open Soroban

variable {Address : Type} [DecidableEq Address]

/-- What a distribution pays to `count` recipients. -/
def paidOut (split : RoyaltySplit) (totalAmount : I128) (count : U32) : Int :=
  ProportionalSplit.part totalAmount.val 100 split.creatorPercentage.val +
    (if (.lit 1 : U32) < count then
      ProportionalSplit.part totalAmount.val 100 split.contributorPercentage.val
    else 0) +
    ProportionalSplit.part totalAmount.val 100 split.platformPercentage.val

/-- The contributor's part and what is cut off the two others, in hundredths, come to at
most two units. -/
def DustOnly (split : RoyaltySplit) (totalAmount : I128) : Prop :=
  totalAmount.val * split.contributorPercentage.val +
    totalAmount.val * split.creatorPercentage.val % 100 +
    totalAmount.val * split.platformPercentage.val % 100 ≤ 200

/-- Every course numbers its recipients from 0. -/
def RecipientsNumbered (s : Storage Address) : Prop :=
  ∀ courseId, Numbered (fun k => s.royaltyRecipient.get (courseId, k)) (recipientCount s courseId)

/-! ## One distribution -/

/-- All but at most two units are paid when all three parts are, and otherwise exactly
when the part left out is dust. -/
theorem cutOff_le_two_iff {split : RoyaltySplit} {totalAmount : I128} (hpos : 0 < totalAmount.val)
    (hwhole : split.creatorPercentage.val + split.contributorPercentage.val +
      split.platformPercentage.val = 100) (count : U32) :
    (totalAmount.val - 2 ≤ paidOut split totalAmount count ∧
        paidOut split totalAmount count ≤ totalAmount.val) ↔
      2 ≤ count.val ∨ DustOnly split totalAmount := by
  have hcreator := @ProportionalSplit.part_mul_add_emod totalAmount.val 100 _ hpos.le
    split.creatorPercentage.lo_le
  have hcontributor := @ProportionalSplit.part_mul_add_emod totalAmount.val 100 _ hpos.le
    split.contributorPercentage.lo_le
  have hplatform := @ProportionalSplit.part_mul_add_emod totalAmount.val 100 _ hpos.le
    split.platformPercentage.lo_le
  have hcontributor₀ : 0 ≤ totalAmount.val * split.contributorPercentage.val :=
    Int.mul_nonneg hpos.le split.contributorPercentage.lo_le
  -- Hundred times the amount, as the three weights share it.
  have hshared : totalAmount.val * split.creatorPercentage.val +
      totalAmount.val * split.contributorPercentage.val +
      totalAmount.val * split.platformPercentage.val = totalAmount.val * 100 := by
    rw [← Int.mul_add, ← Int.mul_add, hwhole]
  have hcount : (.lit 1 : U32) < count ↔ 2 ≤ count.val :=
    BoundedInt.lt_def.trans Int.lt_iff_add_one_le
  simp only [paidOut, DustOnly, hcount]
  split <;> omega

section Steps

variable {env : Env Address} {s s' : Storage Address} {caller : Address} {courseId : U64}

theorem credit_balances {recipient : Address} {amount : I128}
    (h : credit s recipient amount = .ok s') : balances s' = balances s + amount.val := by
  obtain ⟨balance, hbalance, rfl⟩ := credit_ok.mp h
  rw [balances_set rfl, hbalance]
  omega

/-- What a distribution adds, whichever recipients coincide. -/
theorem distribution_adds {totalAmount : I128} {split : RoyaltySplit}
    (hsplit : getRoyaltySplit s courseId = some split)
    (h : distributeRoyalties env s caller courseId totalAmount = .ok s') :
    0 < totalAmount.val ∧
      balances s' = balances s + paidOut split totalAmount (recipientCount s courseId) := by
  obtain ⟨_, creatorAmount, contributorAmount, platformAmount, _, _, _, s₁, s₂, s₃, hpos, hget,
    hcreator, hcontributor, hplatform, h₁, h₂, h₃, _, hbalances, _⟩ := distributeRoyalties_ok h
  cases hsplit.symm.trans hget
  have hsum₂ : balances s₂ = balances s₁ +
      if (.lit 1 : U32) < recipientCount s courseId then contributorAmount.val else 0 := by
    split at h₂
    · next hsecond =>
      rw [if_pos hsecond]
      exact credit_balances h₂
    · next hsole => rw [h₂, if_neg hsole, Int.add_zero]
  refine ⟨hpos, ?_⟩
  calc balances s' = balances s₃ := by rw [balances, hbalances]; rfl
    _ = balances s + creatorAmount.val +
        (if (.lit 1 : U32) < recipientCount s courseId then contributorAmount.val else 0) +
        platformAmount.val := by rw [credit_balances h₃, hsum₂, credit_balances h₁]
    _ = balances s + paidOut split totalAmount (recipientCount s courseId) := by
      rw [hcreator, hcontributor, hplatform, paidOut, ProportionalSplit.part,
        ProportionalSplit.part, ProportionalSplit.part]
      omega

omit [DecidableEq Address] in
theorem RecipientsNumbered.of_same (hs : RecipientsNumbered s) (h : SameRecipients s s') :
    RecipientsNumbered s' := by
  intro courseId
  rw [recipientCount, h.1, h.2]
  exact hs courseId

theorem RecipientsNumbered.step {i : Env Address × Call Address} (hs : RecipientsNumbered s)
    (h : exec s i = .ok s') : RecipientsNumbered s' := by
  obtain ⟨env, call⟩ := i
  cases call with
  | initializeContract admin =>
    obtain ⟨_, _, rfl⟩ := initializeContract_ok.mp h
    exact hs
  | setRoyaltySplit admin courseId creatorPct contributorPct platformPct =>
    exact hs.of_same (setRoyaltySplit_ok h).2.2.2
  | addRoyaltyRecipient admin courseId recipient =>
    obtain ⟨_, _, next, hnext, hrecipients, hcounts⟩ := addRoyaltyRecipient_ok h
    intro courseId'
    rw [recipientCount, hrecipients, hcounts, Table.get_set_eq]
    by_cases hcourse : courseId' = courseId
    · rw [hcourse, Table.get_set_self]
      have hadd := (hs courseId).add hnext recipient
      simpa only [Prod.mk.injEq, true_and, Option.getD_some] using hadd
    · rw [Table.get_set_ne hcourse]
      simpa only [Prod.mk.injEq, hcourse, false_and, if_false, recipientCount] using hs courseId'
  | distributeRoyalties admin courseId totalAmount =>
    obtain ⟨_, _, _, _, _, _, _, _, _, _, _, _, _, _, _, _, _, _, _, _, hsame⟩ :=
      distributeRoyalties_ok h
    exact hs.of_same hsame
  | withdrawRoyalties recipient =>
    obtain ⟨_, hc⟩ := map_snd_eq_ok.mp h
    exact hs.of_same (withdrawRoyalties_ok hc).2.2.2

theorem credit_traps (recipient : Address) (amount : I128) :
    TrapsOnly .overflow (credit s recipient amount) :=
  (BoundedInt.orOverflow_traps _).bind fun _ _ => .of_ok rfl

theorem percentage_traps (totalAmount : I128) (pct : U32) :
    TrapsOnly .overflow (percentage totalAmount pct) :=
  BoundedInt.mulDiv_traps (by decide)

/-- The admin's distribution of a positive amount to a course with a split and a
recipient is not refused. -/
theorem distribution_traps {totalAmount : I128} (hs : RecipientsNumbered s)
    (hsplit : (getRoyaltySplit s courseId).isSome) (hcount : 0 < (recipientCount s courseId).val)
    (hauth : caller ∈ env.auths) (hadmin : s.admin = some caller) (hpos : 0 < totalAmount.val) :
    TrapsOnly .overflow (distributeRoyalties env s caller courseId totalAmount) := by
  obtain ⟨split, hsplit⟩ := Option.isSome_iff_exists.mp hsplit
  have hrecipient : ∀ {s₁ : Storage Address} (k : U32), k.val < (recipientCount s courseId).val →
      s₁.royaltyRecipient = s.royaltyRecipient →
      ∃ recipient, s₁.royaltyRecipient.get (courseId, k) = some recipient := by
    intro s₁ k hk hsame
    rw [hsame]
    exact Option.isSome_iff_exists.mp ((hs courseId k).mpr hk)
  refine (TrapsOnly.of_ok (a := ()) (Env.requireAuth_eq_ok.mpr hauth)).bind fun _ _ => ?_
  refine (TrapsOnly.of_ok (unwrap_eq_ok.mpr hadmin)).bind fun storedAdmin h => ?_
  cases hadmin.symm.trans (unwrap_eq_ok.mp h)
  refine (TrapsOnly.of_ok (a := ()) (assert_eq_ok.mpr rfl)).bind fun _ _ => ?_
  have hamount : (0 : I128) < totalAmount := BoundedInt.lt_def.mpr hpos
  refine (TrapsOnly.of_ok (a := ()) (assert_eq_ok.mpr hamount)).bind fun _ _ => ?_
  refine (TrapsOnly.of_ok (expect_eq_ok.mpr hsplit)).bind fun split _ => ?_
  refine (percentage_traps _ _).bind fun creatorAmount _ => ?_
  refine (percentage_traps _ _).bind fun contributorAmount _ => ?_
  refine (percentage_traps _ _).bind fun platformAmount _ => ?_
  obtain ⟨creator, hcreator⟩ := hrecipient 0 hcount rfl
  refine (TrapsOnly.of_ok (expect_eq_ok.mpr hcreator)).bind fun creator _ => ?_
  refine (credit_traps _ _).bind fun s₁ h₁ => ?_
  obtain ⟨_, hrecipients₁, hcounts₁⟩ := credit_keeps h₁
  have hcount₁ : recipientCount s₁ courseId = recipientCount s courseId := by
    rw [recipientCount, hcounts₁]
    rfl
  refine TrapsOnly.bind ?_ fun s₂ h₂ => ?_
  · split
    · next hsecond =>
      rw [hcount₁] at hsecond
      obtain ⟨contributor, hcontributor⟩ :=
        hrecipient (.lit 1) (BoundedInt.lt_def.mp hsecond) hrecipients₁
      exact (TrapsOnly.of_ok (expect_eq_ok.mpr hcontributor)).bind fun _ _ => credit_traps _ _
    · exact .of_ok rfl
  · have hrecipients₂ : s₂.royaltyRecipient = s.royaltyRecipient := by
      split at h₂
      · obtain ⟨_, _, h₂⟩ := bind_eq_ok.mp h₂
        exact (credit_keeps h₂).2.1.trans hrecipients₁
      · rw [← pure_eq_ok.mp h₂, hrecipients₁]
    have hlast : ((recipientCount s₁ courseId).saturatingSub (.lit 1)).val <
        (recipientCount s courseId).val := by
      rw [hcount₁, BoundedInt.saturatingSub_val, BoundedInt.lit_val]
      omega
    obtain ⟨platform, hplatform⟩ := hrecipient _ hlast hrecipients₂
    refine (TrapsOnly.of_ok (expect_eq_ok.mpr hplatform)).bind fun platform _ => ?_
    exact (credit_traps _ _).bind fun _ _ => .of_ok rfl

end Steps

/-! ## Runs -/

section Runs

variable {admin : Address} {s₀ : Storage Address}

theorem recipientsNumbered_after (h : Initialised admin s₀)
    (past : List (Env Address × Call Address)) : RecipientsNumbered (after exec s₀ past) := by
  refine after_invariant ?_ (fun _ _ _ hs he => hs.step he) past
  obtain ⟨env, h⟩ := h
  obtain ⟨_, _, rfl⟩ := initializeContract_ok.mp h
  exact fun _ => numbered_empty

/-- After every run, a distribution to a course with a split and a recipient pays all but
at most two units, and never more than there is, exactly when the course has a second
recipient or the contributor's part is dust; and the admin's distribution of a positive
amount traps only when a sum or a product overflows. -/
theorem royalties_paid_out_iff (h : Initialised admin s₀) (past : List (Env Address × Call Address))
    {env : Env Address} {caller : Address} {courseId : U64} {totalAmount : I128}
    {split : RoyaltySplit} (hsplit : getRoyaltySplit (after exec s₀ past) courseId = some split)
    (hcount : 0 < (recipientCount (after exec s₀ past) courseId).val) :
    (∀ s', distributeRoyalties env (after exec s₀ past) caller courseId totalAmount = .ok s' →
      ((totalAmount.val - 2 ≤ balances s' - balances (after exec s₀ past) ∧
          balances s' - balances (after exec s₀ past) ≤ totalAmount.val) ↔
        2 ≤ (recipientCount (after exec s₀ past) courseId).val ∨ DustOnly split totalAmount)) ∧
      (caller ∈ env.auths → (after exec s₀ past).admin = some caller → 0 < totalAmount.val →
        TrapsOnly .overflow
          (distributeRoyalties env (after exec s₀ past) caller courseId totalAmount)) := by
  constructor
  · intro s' hd
    obtain ⟨hpos, hadds⟩ := distribution_adds hsplit hd
    have hwhole := splitsWhole_after h past courseId split hsplit
    rw [hadds, add_sub_cancel_left]
    exact cutOff_le_two_iff hpos hwhole _
  · exact distribution_traps (recipientsNumbered_after h past) (hsplit ▸ rfl) hcount

/-- Course 3 with a split of 50, 30 and 20 and contract 7 as its sole recipient. -/
def exampleSoleRecipient : List (Env Nat × Call Nat) :=
  [(exampleEnv 0 [1], .addRoyaltyRecipient 1 (.lit 3) 7),
    (exampleEnv 0 [1], .setRoyaltySplit 1 (.lit 3) (.lit 50) (.lit 30) (.lit 20))]

/-- The contributor's 30 of 100 go to nobody. -/
theorem sole_recipient_underpaid :
    Initialised 1 exampleRoyalties ∧
      ∃ split s', getRoyaltySplit (after exec exampleRoyalties exampleSoleRecipient) (.lit 3) =
          some split ∧
        0 < (recipientCount (after exec exampleRoyalties exampleSoleRecipient) (.lit 3)).val ∧
        distributeRoyalties (exampleEnv 0 [1]) (after exec exampleRoyalties exampleSoleRecipient) 1
          (.lit 3) (.lit 100) = .ok s' ∧
        balances s' - balances (after exec exampleRoyalties exampleSoleRecipient) = 70 ∧
        ¬ (100 : Int) - 2 ≤ balances s' -
          balances (after exec exampleRoyalties exampleSoleRecipient) := by
  refine ⟨exampleRoyalties_initialised, ⟨.lit 3, .lit 50, .lit 30, .lit 20⟩, _, rfl, ?_, rfl, ?_,
    ?_⟩
  · decide +kernel
  · decide +kernel
  · decide +kernel

/-- The same with contract 8 as a second recipient. -/
def exampleSecondRecipient : List (Env Nat × Call Nat) :=
  (exampleEnv 0 [1], .addRoyaltyRecipient 1 (.lit 3) 8) :: exampleSoleRecipient

theorem royalties_paid_out_iff_second :
    ∃ s', distributeRoyalties (exampleEnv 0 [1])
        (after exec exampleRoyalties exampleSecondRecipient) 1 (.lit 3) (.lit 101) = .ok s' ∧
      (101 : Int) - 2 ≤
          balances s' - balances (after exec exampleRoyalties exampleSecondRecipient) ∧
        balances s' - balances (after exec exampleRoyalties exampleSecondRecipient) ≤ 101 := by
  have hsplit : getRoyaltySplit (after exec exampleRoyalties exampleSecondRecipient) (.lit 3) =
      some ⟨.lit 3, .lit 50, .lit 30, .lit 20⟩ := rfl
  have hd : ∃ s', distributeRoyalties (exampleEnv 0 [1])
      (after exec exampleRoyalties exampleSecondRecipient) 1 (.lit 3) (.lit 101) = .ok s' :=
    ⟨_, rfl⟩
  obtain ⟨s', hd⟩ := hd
  exact ⟨s', hd, ((royalties_paid_out_iff exampleRoyalties_initialised exampleSecondRecipient hsplit
    (by decide +kernel)).1 s' hd).mpr (.inl (by decide +kernel))⟩

end Runs

end Scoopdope.RoyaltyDistribution

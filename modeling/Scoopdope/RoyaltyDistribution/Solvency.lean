import Scoopdope.Market.Proportions
import Scoopdope.RoyaltyDistribution.Contract
import Scoopdope.Soroban.History

/-!
# Royalty distribution: solvency

The percentages of a stored split are of 100 (`SplitsWhole`), so the three amounts of a
distribution come to at most what is distributed, and each credit reads the balances
that the credit before it wrote, whichever recipients coincide. So what is stored and
what was withdrawn never comes to more than what was distributed
(`royalties_solvent`).
-/

namespace Scoopdope.RoyaltyDistribution

open Soroban

variable {Address : Type} [DecidableEq Address]

/-- All balances together. -/
def balances (s : Storage Address) : Int := Table.total BoundedInt.val s.royaltyBalance

/-- What a call distributes. -/
def distributed (_ : Storage Address) (i : Env Address × Call Address) : Int :=
  match i.2 with
  | .distributeRoyalties _ _ totalAmount => totalAmount.val
  | _ => 0

/-- What a call returns as withdrawn. -/
def withdrawn (s : Storage Address) (i : Env Address × Call Address) : Int :=
  match i.2 with
  | .withdrawRoyalties recipient =>
    match withdrawRoyalties i.1 s recipient with
    | .ok (balance, _) => balance.val
    | .error _ => 0
  | _ => 0

/-- The percentages of every stored split sum to 100. -/
def SplitsWhole (s : Storage Address) : Prop :=
  ∀ courseId split, s.royaltySplit.get courseId = some split →
    split.creatorPercentage.val + split.contributorPercentage.val +
      split.platformPercentage.val = 100

/-- No balance is negative. -/
def BalancesNonneg (s : Storage Address) : Prop :=
  ∀ recipient, 0 ≤ (getRoyaltyBalance s recipient).val

section Steps

variable {s s' : Storage Address} {i : Env Address × Call Address}

theorem BalancesNonneg.set (hs : BalancesNonneg s) {recipient : Address} {balance : I128}
    (hbalance : 0 ≤ balance.val)
    (h : s'.royaltyBalance = s.royaltyBalance.set recipient balance) : BalancesNonneg s' := by
  intro a
  rw [getRoyaltyBalance, h]
  by_cases ha : a = recipient
  · rw [ha, Table.amount_set_self]
    exact hbalance
  · rw [Table.amount_set_ne ha]
    exact hs a

theorem balances_set {recipient : Address} {balance : I128}
    (h : s'.royaltyBalance = s.royaltyBalance.set recipient balance) :
    balances s' = balances s - (getRoyaltyBalance s recipient).val + balance.val := by
  rw [balances, h, Table.total_set, Table.share_val]
  rfl

/-- A credit adds its amount to the balances, whoever gets it. -/
theorem credit_adds {recipient : Address} {amount : I128} (hs : BalancesNonneg s)
    (hamount : 0 ≤ amount.val) (h : credit s recipient amount = .ok s') :
    BalancesNonneg s' ∧ balances s' = balances s + amount.val := by
  obtain ⟨balance, hbalance, rfl⟩ := credit_ok.mp h
  have hrecipient := hs recipient
  have hset : BalancesNonneg
      { s with royaltyBalance := s.royaltyBalance.set recipient balance } :=
    hs.set (by omega) rfl
  refine ⟨hset, ?_⟩
  rw [balances_set rfl, hbalance]
  omega

/-- The three amounts of a distribution. -/
theorem amounts_within {split : RoyaltySplit} {totalAmount : I128} (hpos : 0 < totalAmount.val)
    (hwhole : split.creatorPercentage.val + split.contributorPercentage.val +
      split.platformPercentage.val = 100) :
    (totalAmount.val * split.creatorPercentage.val).tdiv 100 +
        (totalAmount.val * split.contributorPercentage.val).tdiv 100 +
        (totalAmount.val * split.platformPercentage.val).tdiv 100 ≤ totalAmount.val := by
  have hweights : ∀ w ∈ [split.creatorPercentage.val, split.contributorPercentage.val,
      split.platformPercentage.val], 0 ≤ w := by
    intro w hw
    simp only [List.mem_cons, List.not_mem_nil, or_false] at hw
    rcases hw with rfl | rfl | rfl
    · exact split.creatorPercentage.lo_le
    · exact split.contributorPercentage.lo_le
    · exact split.platformPercentage.lo_le
  have hsum : [split.creatorPercentage.val, split.contributorPercentage.val,
      split.platformPercentage.val].sum = 100 := by
    simp only [List.sum_cons, List.sum_nil]
    omega
  have h := ProportionalSplit.sum_parts_le hpos.le (by decide) hweights hsum
  simp only [List.map_cons, List.map_nil, List.sum_cons, List.sum_nil,
    ProportionalSplit.part] at h
  omega

theorem percentage_nonneg {totalAmount : I128} (hpos : 0 < totalAmount.val) (pct : U32) :
    0 ≤ (totalAmount.val * pct.val).tdiv 100 :=
  ProportionalSplit.part_nonneg hpos.le (by decide) pct.lo_le

/-- A distribution adds at most what is distributed. -/
theorem distribution_within {env : Env Address} {admin : Address} {courseId : U64}
    {totalAmount : I128} (hs : BalancesNonneg s) (hsplits : SplitsWhole s)
    (h : distributeRoyalties env s admin courseId totalAmount = .ok s') :
    BalancesNonneg s' ∧ balances s' ≤ balances s + totalAmount.val := by
  obtain ⟨split, creatorAmount, contributorAmount, platformAmount, creator, contributor, platform,
    s₁, s₂, s₃, hpos, hget, hcreator, hcontributor, hplatform, h₁, h₂, h₃, _, hbalances, _⟩ :=
    distributeRoyalties_ok h
  have hwithin := amounts_within hpos (hsplits courseId split hget)
  have hcreator₀ := percentage_nonneg hpos split.creatorPercentage
  have hcontributor₀ := percentage_nonneg hpos split.contributorPercentage
  have hplatform₀ := percentage_nonneg hpos split.platformPercentage
  rw [← hcreator, ← hcontributor, ← hplatform] at hwithin
  rw [← hcreator] at hcreator₀
  rw [← hcontributor] at hcontributor₀
  rw [← hplatform] at hplatform₀
  obtain ⟨hs₁, hsum₁⟩ := credit_adds hs hcreator₀ h₁
  have hstep₂ : BalancesNonneg s₂ ∧ balances s₂ ≤ balances s₁ + contributorAmount.val := by
    split at h₂
    · obtain ⟨hs₂, hsum₂⟩ := credit_adds hs₁ hcontributor₀ h₂
      exact ⟨hs₂, hsum₂.le⟩
    · rw [h₂]
      exact ⟨hs₁, by omega⟩
  obtain ⟨hs₂, hsum₂⟩ := hstep₂
  obtain ⟨hs₃, hsum₃⟩ := credit_adds hs₂ hplatform₀ h₃
  have hbal : ∀ a, getRoyaltyBalance s' a = getRoyaltyBalance s₃ a := fun a => by
    rw [getRoyaltyBalance, hbalances]
    rfl
  refine ⟨fun a => hbal a ▸ hs₃ a, ?_⟩
  have hsum : balances s' = balances s₃ := by rw [balances, hbalances]; rfl
  omega

theorem SplitsWhole.step (hs : SplitsWhole s) (h : exec s i = .ok s') : SplitsWhole s' := by
  obtain ⟨env, call⟩ := i
  cases call with
  | initializeContract admin =>
    obtain ⟨_, _, rfl⟩ := initializeContract_ok.mp h
    exact hs
  | setRoyaltySplit admin courseId creatorPct contributorPct platformPct =>
    obtain ⟨hwhole, hsplits, _⟩ := setRoyaltySplit_ok h
    rw [SplitsWhole, hsplits]
    exact Table.forall_set (P := fun _ (split : RoyaltySplit) => split.creatorPercentage.val +
      split.contributorPercentage.val + split.platformPercentage.val = 100) hs hwhole
  | addRoyaltyRecipient admin courseId recipient =>
    rw [SplitsWhole, (addRoyaltyRecipient_ok h).1]
    exact hs
  | distributeRoyalties admin courseId totalAmount =>
    obtain ⟨_, _, _, _, _, _, _, _, _, _, _, _, _, _, _, _, _, _, hsplits, _⟩ :=
      distributeRoyalties_ok h
    rw [SplitsWhole, hsplits]
    exact hs
  | withdrawRoyalties recipient =>
    obtain ⟨_, hc⟩ := map_snd_eq_ok.mp h
    rw [SplitsWhole, (withdrawRoyalties_ok hc).2.2.1]
    exact hs

/-- What one accepted call does to the balances. -/
theorem exec_balances (hs : BalancesNonneg s) (hsplits : SplitsWhole s) (h : exec s i = .ok s') :
    BalancesNonneg s' ∧ balances s' + withdrawn s i ≤ balances s + distributed s i := by
  have hsame : ∀ {s' : Storage Address}, s'.royaltyBalance = s.royaltyBalance →
      BalancesNonneg s' ∧ balances s' + 0 ≤ balances s + 0 := by
    intro s' heq
    rw [balances, heq]
    refine ⟨fun a => ?_, le_refl _⟩
    rw [getRoyaltyBalance, heq]
    exact hs a
  obtain ⟨env, call⟩ := i
  cases call with
  | initializeContract admin =>
    obtain ⟨_, _, rfl⟩ := initializeContract_ok.mp h
    exact hsame rfl
  | setRoyaltySplit admin courseId creatorPct contributorPct platformPct =>
    exact hsame (setRoyaltySplit_ok h).2.2.1
  | addRoyaltyRecipient admin courseId recipient => exact hsame (addRoyaltyRecipient_ok h).2.1
  | distributeRoyalties admin courseId totalAmount =>
    obtain ⟨hs', hsum⟩ := distribution_within hs hsplits h
    exact ⟨hs', by rw [withdrawn, distributed, Int.add_zero]; exact hsum⟩
  | withdrawRoyalties recipient =>
    obtain ⟨balance, hc⟩ := map_snd_eq_ok.mp h
    have hcall : withdrawRoyalties env s recipient = .ok (balance, s') := hc
    obtain ⟨rfl, hbalances, _⟩ := withdrawRoyalties_ok hc
    refine ⟨hs.set (le_refl 0) hbalances, ?_⟩
    have hpaid : withdrawn s (env, .withdrawRoyalties recipient) =
        (getRoyaltyBalance s recipient).val := by
      simp only [withdrawn, hcall]
    rw [hpaid, balances_set hbalances]
    show _ + 0 + _ ≤ _ + 0
    omega

end Steps

/-! ## Runs -/

section Runs

variable {admin : Address} {s₀ : Storage Address}

theorem Initialised.start (h : Initialised admin s₀) :
    SplitsWhole s₀ ∧ BalancesNonneg s₀ ∧ balances s₀ = 0 := by
  obtain ⟨env, h⟩ := h
  obtain ⟨_, _, rfl⟩ := initializeContract_ok.mp h
  exact ⟨fun _ _ hget => absurd hget Table.get_empty_ne_some, fun _ => le_refl 0, rfl⟩

theorem splitsWhole_after (h : Initialised admin s₀) (past : List (Env Address × Call Address)) :
    SplitsWhole (after exec s₀ past) :=
  after_invariant h.start.1 (fun _ _ _ hs he => hs.step he) past

/-- In every run no balance is negative, and what is stored and what was withdrawn come
to at most what was distributed. -/
theorem royalties_solvent (h : Initialised admin s₀) (past : List (Env Address × Call Address)) :
    (∀ recipient, 0 ≤ (getRoyaltyBalance (after exec s₀ past) recipient).val) ∧
      Table.total BoundedInt.val (after exec s₀ past).royaltyBalance +
        accumulated exec s₀ withdrawn past ≤ accumulated exec s₀ distributed past := by
  obtain ⟨_, hnonneg, hzero⟩ := h.start
  refine after_history (P := fun past s => BalancesNonneg s ∧
    balances s + accumulated exec s₀ withdrawn past ≤ accumulated exec s₀ distributed past)
    ⟨hnonneg, by rw [hzero]; exact le_refl 0⟩ ?_ ?_ past
  · rintro past i s s' rfl ⟨hs, hsum⟩ he
    obtain ⟨hs', hstep⟩ := exec_balances hs (splitsWhole_after h past) he
    rw [accumulated_ok he, accumulated_ok he]
    exact ⟨hs', by omega⟩
  · rintro past i s t rfl hp he
    rw [accumulated_error he, accumulated_error he]
    exact hp

/-- Contract 7 is the creator and the platform of course 3, contract 8 contributes; of
101 distributed, 7 withdraws its part. -/
def exampleRoyaltyRun : List (Env Nat × Call Nat) :=
  [(exampleEnv 0 [7], .withdrawRoyalties 7),
    (exampleEnv 0 [1], .distributeRoyalties 1 (.lit 3) (.lit 101)),
    (exampleEnv 0 [1], .setRoyaltySplit 1 (.lit 3) (.lit 50) (.lit 30) (.lit 20)),
    (exampleEnv 0 [1], .addRoyaltyRecipient 1 (.lit 3) 7),
    (exampleEnv 0 [1], .addRoyaltyRecipient 1 (.lit 3) 8),
    (exampleEnv 0 [1], .addRoyaltyRecipient 1 (.lit 3) 7)]

theorem royalties_solvent_aliased :
    Table.total BoundedInt.val (after exec exampleRoyalties exampleRoyaltyRun).royaltyBalance +
        accumulated exec exampleRoyalties withdrawn exampleRoyaltyRun ≤ 101 :=
  (royalties_solvent exampleRoyalties_initialised exampleRoyaltyRun).2.trans
    (by decide +kernel)

end Runs

end Scoopdope.RoyaltyDistribution

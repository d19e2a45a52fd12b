import Scoopdope.Token.Supply

/-!
# Token: allowances

The stored allowance of a pair is what was last approved minus what was spent
since, and a balance only falls with its owner's authorisation or within an
allowance (`allowance_safe`).
-/

namespace Scoopdope.Token

open Soroban

variable {Address : Type} [DecidableEq Address]

/-- The amount a call approves for the pair, if it is an `approve` of it. -/
def approval (call : Call Address) (owner spender : Address) : Option I128 :=
  match call with
  | .approve owner' spender' amount =>
    if owner' = owner ∧ spender' = spender then some amount else none
  | _ => none

/-- The amount a call spends of the allowance of the pair. -/
def spending (call : Call Address) (owner spender : Address) : Int :=
  match call with
  | .transferFrom spender' from_ _ amount =>
    if from_ = owner ∧ spender' = spender then amount.val else 0
  | .burnFrom spender' from_ amount =>
    if from_ = owner ∧ spender' = spender then amount.val else 0
  | _ => 0

variable [Airdrop.XdrBytes Address]

/-- The amount of the last accepted `approve` of the pair, 0 before any. -/
def lastApproved (s₀ : Storage Address) (owner spender : Address) :
    List (Env Address × Call Address) → Int
  | [] => 0
  | i :: past =>
    match exec (after exec s₀ past) i with
    | .error _ => lastApproved s₀ owner spender past
    | .ok _ =>
      match approval i.2 owner spender with
      | some amount => amount.val
      | none => lastApproved s₀ owner spender past

/-- The amounts spent of the pair's allowance since that `approve`. -/
def spentSince (s₀ : Storage Address) (owner spender : Address) :
    List (Env Address × Call Address) → Int
  | [] => 0
  | i :: past =>
    match exec (after exec s₀ past) i with
    | .error _ => spentSince s₀ owner spender past
    | .ok _ =>
      match approval i.2 owner spender with
      | some _ => 0
      | none => spentSince s₀ owner spender past + spending i.2 owner spender

/-- The call `i` may lower the balance of `a`: `a` burns or sends itself, or a
spender does within an allowance that covers the amount and shrinks by it. -/
def MayDecrease (s s' : Storage Address) (i : Env Address × Call Address) (a : Address) : Prop :=
  (∃ amount, i.2 = .burn a amount ∧ a ∈ i.1.auths) ∨
  (∃ to_ amount, i.2 = .transfer a to_ amount ∧ a ∈ i.1.auths) ∨
  (∃ spender amount,
    (i.2 = .burnFrom spender a amount ∨ ∃ to_, i.2 = .transferFrom spender a to_ amount) ∧
    spender ∈ i.1.auths ∧ amount.val ≤ (allowance s a spender).val ∧
    (allowance s' a spender).val = (allowance s a spender).val - amount.val)

section Steps

variable {s s' : Storage Address} {i : Env Address × Call Address}

omit [Airdrop.XdrBytes Address] in
theorem amount_set_pair (t : Table (Address × Address) I128) (o sp owner spender : Address)
    (v : I128) : ((t.set (o, sp) v).amount (owner, spender)) =
      if o = owner ∧ sp = spender then v else t.amount (owner, spender) := by
  split
  · next h =>
    obtain ⟨rfl, rfl⟩ := h
    exact Table.amount_set_self t (o, sp) v
  · next h =>
    refine Table.amount_set_ne ?_
    rintro he
    cases he
    exact h ⟨rfl, rfl⟩

omit [Airdrop.XdrBytes Address] in
/-- What a pair has left after its allowance, or another pair's, shrank. -/
theorem allowance_spent {from_ spender' : Address} {rest amount : I128}
    (hs : s'.allowance = s.allowance.set (from_, spender') rest)
    (hrest : rest.val = (allowance s from_ spender').val - amount.val) (owner spender : Address) :
    (allowance s' owner spender).val = (allowance s owner spender).val -
      if from_ = owner ∧ spender' = spender then amount.val else 0 := by
  rw [allowance, hs, amount_set_pair]
  split
  · next hp =>
    obtain ⟨rfl, rfl⟩ := hp
    exact hrest
  · exact (Int.sub_zero _).symm

/-- The allowance of a pair after an accepted call. -/
theorem exec_allowance (h : exec s i = .ok s') (owner spender : Address) :
    (allowance s' owner spender).val =
      match approval i.2 owner spender with
      | some amount => amount.val
      | none => (allowance s owner spender).val - spending i.2 owner spender := by
  obtain ⟨env, call⟩ := i
  have hframe : s'.allowance = s.allowance → (allowance s' owner spender).val =
      (allowance s owner spender).val - 0 := by
    intro ha
    rw [allowance, allowance, ha, Int.sub_zero]
  cases call with
  | approve owner' spender' amount =>
    obtain ⟨_, _, rfl⟩ := approve_ok h
    show ((s.allowance.set (owner', spender') amount).amount (owner, spender)).val = _
    rw [amount_set_pair, approval]
    split
    · rfl
    · exact (Int.sub_zero _).symm
  | transferFrom spender' from_ to_ amount =>
    obtain ⟨_, _, _, _, rest, t, hrest, _, rfl⟩ := transferFrom_ok h
    exact allowance_spent rfl hrest owner spender
  | burnFrom spender' from_ amount =>
    obtain ⟨_, _, _, _, rest, v, w, stats, hrest, _, rfl⟩ := burnFrom_ok h
    exact allowance_spent rfl hrest owner spender
  | initializeContract admin =>
    obtain ⟨_, _, rfl⟩ := initializeContract_ok.mp h
    exact hframe rfl
  | mint to_ amount =>
    obtain ⟨_, _, v, w, _, rfl⟩ := mint_ok h
    exact hframe rfl
  | burn from_ amount =>
    obtain ⟨_, _, _, v, w, stats, _, rfl⟩ := burn_ok h
    exact hframe rfl
  | transfer from_ to_ amount =>
    obtain ⟨_, _, _, t, _, rfl⟩ := transfer_ok h
    exact hframe rfl
  | createVesting admin beneficiary totalAmount cliffLedger endLedger =>
    obtain ⟨_, _, _, _, _, rfl⟩ := createVesting_ok h
    exact hframe rfl
  | claimVesting beneficiary =>
    obtain ⟨_, schedule, vested, claimable, claimed, _, _, _, _, _, v, w, _, rfl⟩ :=
      claimVesting_ok h
    exact hframe rfl
  | createVestingV2 admin beneficiary totalAmount cliffLedger endLedger vestingType stepCount =>
    obtain ⟨scheduleId, hc⟩ := map_snd_eq_ok.mp h
    obtain ⟨_, _, _, _, _, _, _, nextId, _, rfl⟩ := createVestingV2_ok hc
    exact hframe rfl
  | claimVestingV2 beneficiary scheduleId =>
    obtain ⟨_, schedule, vested, claimable, claimed, _, _, _, _, _, v, w, _, rfl⟩ :=
      claimVestingV2_ok h
    exact hframe rfl
  | modifyVestingV2 admin beneficiary scheduleId newEndLedger =>
    obtain ⟨_, _, schedule, _, _, rfl⟩ := modifyVestingV2_ok h
    exact hframe rfl
  | createAirdrop admin totalAmount expiryLedger merkleRoot =>
    obtain ⟨campaignId, hc⟩ := map_snd_eq_ok.mp h
    obtain ⟨_, _, _, _, nextId, _, rfl⟩ := createAirdrop_ok hc
    exact hframe rfl
  | claimAirdrop campaignId recipient amount proof =>
    obtain ⟨claimed, hc⟩ := map_snd_eq_ok.mp h
    obtain ⟨_, _, _, campaign, claimedAmount, _, _, _, _, _, _, v, w, _, rfl⟩ := claimAirdrop_ok hc
    exact hframe rfl
  | recoverUnclaimedAirdrop admin campaignId =>
    obtain ⟨unclaimed, hc⟩ := map_snd_eq_ok.mp h
    obtain ⟨_, campaign, _, _, _, rfl⟩ := recoverUnclaimedAirdrop_ok hc
    exact hframe rfl
  | mintReward caller recipient amount =>
    obtain ⟨_, _, _, _, v, w, _, rfl⟩ := mintReward_ok h
    exact hframe rfl

/-- An accepted call never approves a negative amount, and never spends more
than the allowance. -/
theorem exec_allowance_nonneg (h : exec s i = .ok s') {owner spender : Address}
    (hn : 0 ≤ (allowance s owner spender).val) : 0 ≤ (allowance s' owner spender).val := by
  have hs := exec_allowance h owner spender
  rw [hs]
  obtain ⟨env, call⟩ := i
  cases call with
  | approve owner' spender' amount =>
    have hpos := (approve_ok h).1
    by_cases hp : owner' = owner ∧ spender' = spender
    · simpa [approval, hp] using hpos
    · simpa [approval, hp, spending] using hn
  | transferFrom spender' from_ to_ amount =>
    have hle := (transferFrom_ok h).2.2.1
    by_cases hp : from_ = owner ∧ spender' = spender
    · obtain ⟨rfl, rfl⟩ := hp
      simpa [approval, spending] using hle
    · simpa [approval, hp, spending] using hn
  | burnFrom spender' from_ amount =>
    have hle := (burnFrom_ok h).2.2.1
    by_cases hp : from_ = owner ∧ spender' = spender
    · obtain ⟨rfl, rfl⟩ := hp
      simpa [approval, spending] using hle
    · simpa [approval, hp, spending] using hn
  | _ => simpa [approval, spending] using hn

/-- A balance that an accepted call lowers was taken with authority. -/
theorem exec_decrease {admin a : Address} (ha : s.admin = some admin) (h : exec s i = .ok s')
    (hlt : (balance s' a).val < (balance s a).val) : MayDecrease s s' i a := by
  have hr := exec_refines ha h
  have hd : (s.ledger.run (effect s i)).balance a < s.ledger.balance a := by
    rw [← hr.ledger, ledger_balance, ledger_balance]
    exact hlt
  have htaken := Ledger.decrease hr.allowed hd
  have hspent := exec_allowance h
  obtain ⟨env, call⟩ := i
  cases call with
  | burn from_ amount =>
    rcases htaken with ⟨x, hx⟩ | ⟨_, _, hx⟩
    · cases hx
      exact .inl ⟨amount, rfl, (burn_ok h).2.1⟩
    · cases hx
  | transfer from_ to_ amount =>
    rcases htaken with ⟨_, hx⟩ | ⟨b, x, hx⟩
    · cases hx
    · cases hx
      exact .inr (.inl ⟨to_, amount, rfl, (transfer_ok h).2.1⟩)
  | burnFrom spender from_ amount =>
    rcases htaken with ⟨x, hx⟩ | ⟨_, _, hx⟩
    · cases hx
      obtain ⟨_, hauth, hallow, _⟩ := burnFrom_ok h
      refine .inr (.inr ⟨spender, amount, .inl rfl, hauth, hallow, ?_⟩)
      have := hspent a spender
      simpa [approval, spending] using this
    · cases hx
  | transferFrom spender from_ to_ amount =>
    rcases htaken with ⟨_, hx⟩ | ⟨b, x, hx⟩
    · cases hx
    · cases hx
      obtain ⟨_, hauth, hallow, _⟩ := transferFrom_ok h
      refine .inr (.inr ⟨spender, amount, .inr ⟨to_, rfl⟩, hauth, hallow, ?_⟩)
      have := hspent a spender
      simpa [approval, spending] using this
  | _ =>
    -- every other call mints or leaves the ledger alone
    rcases htaken with ⟨_, hx⟩ | ⟨_, _, hx⟩ <;> cases hx

end Steps

/-- In every run from `initialize`, each allowance is what was last approved minus
what was spent since and is not negative, and each fall of a balance is
authorised. -/
theorem allowance_safe {admin : Address} {s₀ : Storage Address} (h : Initialised admin s₀)
    (past : List (Env Address × Call Address)) :
    (∀ owner spender,
      (allowance (after exec s₀ past) owner spender).val =
        lastApproved s₀ owner spender past - spentSince s₀ owner spender past ∧
      0 ≤ (allowance (after exec s₀ past) owner spender).val) ∧
    (∀ i earlier a, i :: earlier <:+ past →
      (balance (after exec s₀ (i :: earlier)) a).val < (balance (after exec s₀ earlier) a).val →
      MayDecrease (after exec s₀ earlier) (after exec s₀ (i :: earlier)) i a) := by
  constructor
  · intro owner spender
    refine after_history (P := fun past s => (allowance s owner spender).val =
      lastApproved s₀ owner spender past - spentSince s₀ owner spender past ∧
      0 ≤ (allowance s owner spender).val) ?_ ?_ ?_ past
    · obtain ⟨env, h⟩ := h
      obtain ⟨_, _, rfl⟩ := initializeContract_ok.mp h
      exact ⟨rfl, le_refl 0⟩
    · rintro past i s s' rfl ⟨heq, hn⟩ he
      refine ⟨?_, exec_allowance_nonneg he hn⟩
      rw [exec_allowance he owner spender]
      simp only [lastApproved, spentSince, he]
      cases approval i.2 owner spender with
      | some amount => exact (Int.sub_zero _).symm
      | none =>
        show (allowance (after exec s₀ past) owner spender).val - spending i.2 owner spender = _
        rw [heq]
        exact Int.sub_sub _ _ _
    · rintro past i s t rfl hp he
      simp only [lastApproved, spentSince, he]
      exact hp
  · intro i earlier a _ hlt
    cases he : exec (after exec s₀ earlier) i with
    | ok s' =>
      rw [after, apply_ok he] at hlt ⊢
      exact exec_decrease (conserved_after h earlier).admin he hlt
    | error t =>
      rw [after, apply_error he] at hlt
      exact absurd hlt (lt_irrefl _)

/-- Owner 2 approves 300 for spender 3, who sends 100 of it to itself. -/
theorem allowance_safe_transfer :
    (allowance (after exec exampleToken
      [(exampleEnv 0 [3], .transferFrom 3 2 3 (.lit 100)),
        (exampleEnv 0 [2], .approve 2 3 (.lit 300)),
        (exampleEnv 0 [1], .mint 2 (.lit 500))]) 2 3).val = 200 :=
  ((allowance_safe exampleToken_initialised _).1 2 3).1.trans (by decide +kernel)

end Scoopdope.Token

import Scoopdope.Token.Supply
import Scoopdope.Token.VestedAmount

/-!
# Token: vesting schedules, version 1

A beneficiary has one schedule, and `create_vesting` writes it whether or not
there is one already. What was granted is then what was paid, plus what the
stored schedule still owes, plus what was lost in overwritten schedules
(`granted_eq`). Nothing is lost exactly when every grant finds no schedule or
one that is paid in full (`entitlement_kept_iff`).
-/

namespace Scoopdope.Token

open Soroban

variable {Address : Type} [DecidableEq Address]

def getVesting (s : Storage Address) (beneficiary : Address) : Option (VestingSchedule Address) :=
  s.vesting.get beneficiary

/-- What the stored schedule still owes. -/
def outstanding (s : Storage Address) (beneficiary : Address) : Int :=
  match getVesting s beneficiary with
  | some schedule => schedule.totalAmount.val - schedule.claimed.val
  | none => 0

/-- The checks of `create_vesting`. -/
structure Grantable (env : Env Address) (s : Storage Address) (admin : Address)
    (totalAmount : I128) (cliffLedger endLedger : U32) : Prop where
  auth : admin ∈ env.auths
  admin : s.admin = some admin
  pos : 0 < totalAmount.val
  cliff : env.sequence.val ≤ cliffLedger.val
  end_ : cliffLedger.val < endLedger.val

/-- What a call grants to the beneficiary. -/
def granted (beneficiary : Address) (_ : Storage Address) (i : Env Address × Call Address) : Int :=
  match i.2 with
  | .createVesting _ beneficiary' totalAmount _ _ =>
    if beneficiary' = beneficiary then totalAmount.val else 0
  | _ => 0

/-- What a call takes away by overwriting the beneficiary's schedule. -/
def lost (beneficiary : Address) (s : Storage Address) (i : Env Address × Call Address) : Int :=
  match i.2 with
  | .createVesting _ beneficiary' _ _ _ =>
    if beneficiary' = beneficiary then outstanding s beneficiary else 0
  | _ => 0

variable [Airdrop.XdrBytes Address]

/-- What a call mints to the beneficiary as a claim. -/
def mintedByClaim (beneficiary : Address) (s : Storage Address) (i : Env Address × Call Address) :
    Int :=
  match i.2 with
  | .claimVesting beneficiary' =>
    if beneficiary' = beneficiary then credited s i beneficiary else 0
  | _ => 0

/-- The call is a `create_vesting` that passes its checks and finds a schedule of
the beneficiary that is not paid in full. -/
def Overwrites (s₀ : Storage Address) (beneficiary : Address)
    (earlier : List (Env Address × Call Address)) (i : Env Address × Call Address) : Prop :=
  ∃ admin totalAmount cliffLedger endLedger schedule,
    i.2 = .createVesting admin beneficiary totalAmount cliffLedger endLedger ∧
    Grantable i.1 (after exec s₀ earlier) admin totalAmount cliffLedger endLedger ∧
    getVesting (after exec s₀ earlier) beneficiary = some schedule ∧
    schedule.claimed ≠ schedule.totalAmount

/-- The claimed amount is within the total. -/
def ClaimedWithin (schedule : VestingSchedule Address) : Prop :=
  0 ≤ schedule.claimed.val ∧ schedule.claimed.val ≤ schedule.totalAmount.val

def VestingSound (s : Storage Address) : Prop :=
  ∀ beneficiary schedule, s.vesting.get beneficiary = some schedule → ClaimedWithin schedule

section Steps

variable {s s' : Storage Address} {i : Env Address × Call Address}

omit [Airdrop.XdrBytes Address] in
theorem VestingSound.outstanding_nonneg (hs : VestingSound s) (beneficiary : Address) :
    0 ≤ outstanding s beneficiary := by
  unfold outstanding
  split
  · next schedule hget =>
    obtain ⟨_, hle⟩ := hs beneficiary schedule hget
    omega
  · exact le_refl 0

omit [Airdrop.XdrBytes Address] in
theorem outstanding_congr (h : s'.vesting = s.vesting) (beneficiary : Address) :
    outstanding s' beneficiary = outstanding s beneficiary := by
  rw [outstanding, outstanding, getVesting, getVesting, h]

omit [Airdrop.XdrBytes Address] in
theorem outstanding_set {beneficiary' : Address} {schedule : VestingSchedule Address}
    (h : s'.vesting = s.vesting.set beneficiary' schedule) (beneficiary : Address) :
    outstanding s' beneficiary =
      if beneficiary' = beneficiary then schedule.totalAmount.val - schedule.claimed.val
      else outstanding s beneficiary := by
  rw [outstanding, getVesting, h, Table.get_set]
  by_cases hb : beneficiary' = beneficiary
  · rw [if_pos hb, if_pos hb.symm]
  · rw [if_neg hb, if_neg fun he => hb he.symm]
    rfl

omit [Airdrop.XdrBytes Address] in
theorem createVesting_succeeds {env : Env Address} {admin : Address} {totalAmount : I128}
    {cliffLedger endLedger : U32}
    (h : Grantable env s admin totalAmount cliffLedger endLedger) (beneficiary : Address) :
    ∃ s', createVesting env s admin beneficiary totalAmount cliffLedger endLedger = .ok s' := by
  simp only [createVesting, bind_eq_ok, assert_eq_ok, unwrap_eq_ok, Env.requireAuth_eq_ok,
    pure_eq_ok, exists_const]
  exact ⟨_, h.auth, admin, h.admin, rfl, h.pos, h.cliff, h.end_, rfl⟩

/-- An accepted claim pays a positive amount out of what is outstanding. -/
theorem claimVesting_pays {env : Env Address} {beneficiary : Address} (hs : VestingSound s)
    (h : claimVesting env s beneficiary = .ok s') :
    ∃ schedule vested claimed : _, ∃ claimable : Int, getVesting s beneficiary = some schedule ∧
      vestedAmount schedule env.sequence = .ok vested ∧
      claimed.val = schedule.claimed.val + claimable ∧ claimed.val = vested.val ∧ 0 < claimable ∧
      claimed.val ≤ schedule.totalAmount.val ∧
      s'.vesting = s.vesting.set beneficiary { schedule with claimed } ∧
      credited s (env, .claimVesting beneficiary) beneficiary = claimable := by
  have he : exec s (env, .claimVesting beneficiary) = .ok s' := h
  obtain ⟨_, schedule, vested, claimable, claimed, hget, hvested, hclaimable, hpos, hclaimed,
    v, w, hcredit, rfl⟩ := claimVesting_ok h
  obtain ⟨hnonneg, hle⟩ := hs beneficiary schedule hget
  have hvle := vestedAmount_le (hnonneg.trans hle) hvested
  refine ⟨schedule, vested, claimed, claimable.val, hget, hvested, hclaimed, by omega, hpos,
    by omega, rfl, ?_⟩
  have hbal : (s.balance.set beneficiary v).amount beneficiary = v := Table.amount_set_self _ _ _
  rw [credited, apply_ok he]
  show ((s.balance.set beneficiary v).amount beneficiary).val - (balance s beneficiary).val = _
  rw [hbal, hcredit.bal_eq]
  omega

theorem VestingSound.step (hs : VestingSound s) (h : exec s i = .ok s') : VestingSound s' := by
  have hframe := (exec_frame h).vesting
  obtain ⟨env, call⟩ := i
  cases call with
  | createVesting admin beneficiary totalAmount cliffLedger endLedger =>
    obtain ⟨_, _, hpos, _, _, rfl⟩ := createVesting_ok h
    exact Table.forall_set (P := fun _ schedule => ClaimedWithin schedule) hs
      ⟨le_refl 0, hpos.le⟩
  | claimVesting beneficiary =>
    obtain ⟨schedule, _, claimed, claimable, hget, _, hclaimed, _, hpos, hle, hv, _⟩ :=
      claimVesting_pays hs h
    obtain ⟨hnonneg, _⟩ := hs beneficiary schedule hget
    rw [VestingSound, hv]
    refine Table.forall_set (P := fun _ schedule => ClaimedWithin schedule) hs ⟨?_, hle⟩
    show 0 ≤ claimed.val
    omega
  | _ =>
    rw [VestingSound, hframe Part.noConfusion]
    exact hs

/-- What a call grants is paid, added to what is outstanding, or makes up for what it
overwrites. -/
theorem exec_outstanding (hs : VestingSound s) (h : exec s i = .ok s') (beneficiary : Address) :
    outstanding s' beneficiary + mintedByClaim beneficiary s i + lost beneficiary s i =
      outstanding s beneficiary + granted beneficiary s i := by
  have hframe := (exec_frame h).vesting
  obtain ⟨env, call⟩ := i
  cases call with
  | createVesting admin beneficiary' totalAmount cliffLedger endLedger =>
    obtain ⟨_, _, _, _, _, rfl⟩ := createVesting_ok h
    rw [outstanding_set rfl]
    show (if beneficiary' = beneficiary then totalAmount.val - 0 else _) + 0 +
      (if beneficiary' = beneficiary then _ else 0) =
      _ + if beneficiary' = beneficiary then totalAmount.val else 0
    split <;> omega
  | claimVesting beneficiary' =>
    obtain ⟨schedule, _, claimed, claimable, hget, _, hclaimed, _, _, _, hv, hpaid⟩ :=
      claimVesting_pays hs h
    rw [outstanding_set hv]
    show (if beneficiary' = beneficiary then schedule.totalAmount.val - claimed.val else _) +
      (if beneficiary' = beneficiary then _ else 0) + 0 = _ + 0
    split
    · next hb =>
      subst hb
      rw [hpaid, outstanding, hget]
      show _ = schedule.totalAmount.val - schedule.claimed.val + 0
      omega
    · omega
  | _ =>
    rw [outstanding_congr (hframe Part.noConfusion)]
    exact Int.add_zero _

end Steps

/-! ## Runs -/

variable {admin : Address} {s₀ : Storage Address}

omit [Airdrop.XdrBytes Address] in
theorem Initialised.vestingSound (h : Initialised admin s₀) : VestingSound s₀ := by
  obtain ⟨env, h⟩ := h
  obtain ⟨_, _, rfl⟩ := initializeContract_ok.mp h
  intro beneficiary schedule hget
  exact absurd hget Table.get_empty_ne_some

theorem vestingSound_after (h : Initialised admin s₀) (past : List (Env Address × Call Address)) :
    VestingSound (after exec s₀ past) :=
  after_invariant h.vestingSound (fun _ _ _ hs he => hs.step he) past

/-- What was granted in a run is paid, outstanding or lost. -/
theorem granted_eq (h : Initialised admin s₀) (past : List (Env Address × Call Address))
    (beneficiary : Address) :
    accumulated exec s₀ (granted beneficiary) past =
      accumulated exec s₀ (mintedByClaim beneficiary) past +
        outstanding (after exec s₀ past) beneficiary +
        accumulated exec s₀ (lost beneficiary) past := by
  refine after_history
    (P := fun past s => accumulated exec s₀ (granted beneficiary) past =
      accumulated exec s₀ (mintedByClaim beneficiary) past + outstanding s beneficiary +
        accumulated exec s₀ (lost beneficiary) past) ?_ ?_ ?_ past
  · obtain ⟨env, h⟩ := h
    obtain ⟨_, _, rfl⟩ := initializeContract_ok.mp h
    rfl
  · rintro past i s s' rfl hp he
    have hstep := exec_outstanding (vestingSound_after h past) he beneficiary
    rw [accumulated_ok he, accumulated_ok he, accumulated_ok he, hp]
    omega
  · rintro past i s t rfl hp he
    rw [accumulated_error he, accumulated_error he, accumulated_error he]
    exact hp

omit [Airdrop.XdrBytes Address] in
theorem lost_nonneg {s : Storage Address} (hs : VestingSound s) (beneficiary : Address)
    (i : Env Address × Call Address) : 0 ≤ lost beneficiary s i := by
  unfold lost
  split
  · split
    · exact hs.outstanding_nonneg beneficiary
    · exact le_refl 0
  · exact le_refl 0

/-- An accepted call loses nothing exactly when it does not overwrite. -/
theorem lost_eq_zero_iff (earlier : List (Env Address × Call Address))
    (i : Env Address × Call Address) (beneficiary : Address) :
    (Accepted exec s₀ earlier i → lost beneficiary (after exec s₀ earlier) i = 0) ↔
      ¬ Overwrites s₀ beneficiary earlier i := by
  constructor
  · rintro hlost ⟨admin', totalAmount, cliffLedger, endLedger, schedule, hi, hcheck, hget, hne⟩
    obtain ⟨s', hs'⟩ := createVesting_succeeds hcheck beneficiary
    have hzero := hlost ⟨s', by rw [exec, hi]; exact hs'⟩
    rw [lost, hi] at hzero
    simp only [if_true, outstanding, hget] at hzero
    exact hne (BoundedInt.ext (by omega))
  · rintro hkept ⟨s', he⟩
    unfold lost
    split
    · next admin' beneficiary' totalAmount cliffLedger endLedger hi =>
      split
      · next hb =>
        subst hb
        rw [exec, hi] at he
        obtain ⟨hauth, hadmin, hpos, hcliff, hend, _⟩ := createVesting_ok he
        unfold outstanding
        split
        · next schedule hget =>
          by_contra hne
          refine hkept ⟨admin', totalAmount, cliffLedger, endLedger, schedule, hi,
            ⟨hauth, hadmin, hpos, hcliff, hend⟩, hget, fun heq => hne ?_⟩
          rw [heq]
          exact Int.sub_self _
        · rfl
      · rfl
    · rfl

/-- A run keeps the beneficiary's entitlement, paid amounts and what is outstanding
adding up to what was granted, exactly when none of its calls overwrites a schedule
of the beneficiary that is not paid in full. -/
theorem entitlement_kept_iff (h : Initialised admin s₀)
    (past : List (Env Address × Call Address)) (beneficiary : Address) :
    accumulated exec s₀ (mintedByClaim beneficiary) past +
        outstanding (after exec s₀ past) beneficiary =
      accumulated exec s₀ (granted beneficiary) past ↔
    Guarded (fun earlier i => ¬ Overwrites s₀ beneficiary earlier i) past := by
  have hgranted := granted_eq h past beneficiary
  have hzero : accumulated exec s₀ (lost beneficiary) past = 0 ↔ _ :=
    accumulated_eq_zero past
      fun e i _ _ _ => lost_nonneg (vestingSound_after h e) beneficiary i
  simp only [lost_eq_zero_iff] at hzero
  rw [← hzero]
  constructor
  · intro hlaw
    omega
  · intro hlost
    omega

/-- Contract 2 is granted 1000 until ledger 100. -/
def exampleGrant : Env Nat × Call Nat :=
  (exampleEnv 0 [1], .createVesting 1 2 (.lit 1000) 0 (.lit 100))

/-- Half of the grant is claimed at ledger 50. -/
theorem entitlement_kept_claim :
    accumulated exec exampleToken (mintedByClaim 2)
        [(exampleEnv (.lit 50) [2], .claimVesting 2), exampleGrant] +
      outstanding (after exec exampleToken
        [(exampleEnv (.lit 50) [2], .claimVesting 2), exampleGrant]) 2 = 1000 := by
  refine ((entitlement_kept_iff exampleToken_initialised
    [(exampleEnv (.lit 50) [2], .claimVesting 2), exampleGrant] 2).mpr ⟨?_, ?_, trivial⟩).trans
    (by decide +kernel)
  · rintro ⟨_, _, _, _, _, hi, _⟩
    cases hi
  · rintro ⟨_, _, _, _, schedule, _, _, hget, _⟩
    exact absurd hget Table.get_empty_ne_some

/-- The second grant erases the first: 1000 of the 2000 granted are gone. -/
theorem second_grant_erases :
    accumulated exec exampleToken (mintedByClaim 2) [exampleGrant, exampleGrant] +
        outstanding (after exec exampleToken [exampleGrant, exampleGrant]) 2 = 1000 ∧
    accumulated exec exampleToken (granted 2) [exampleGrant, exampleGrant] = 2000 :=
  ⟨by decide +kernel, by decide +kernel⟩

end Scoopdope.Token

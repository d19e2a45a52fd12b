import Scoopdope.Token.Supply

/-!
# Token: the re-entrancy lock

`mint_reward` takes the lock and nothing gives it back: `release_lock` has no
caller. So the lock is free after a run exactly when no `mint_reward` of the run
got past its checks (`lock_free_iff`); the first one that does is the last.
-/

namespace Scoopdope.Token

open Soroban

variable {Address : Type}

/-- The lock is absent or false. -/
def LockFree (s : Storage Address) : Prop := s.locked.getD false = false

instance (s : Storage Address) : Decidable (LockFree s) :=
  inferInstanceAs (Decidable (s.locked.getD false = false))

/-- `mint_reward` of `amount` by `caller` is one that the contract should accept:
by the stored admin, authorised, positive and under the cap. -/
structure Rewards (env : Env Address) (s : Storage Address) (caller : Address) (amount : I128) :
    Prop where
  admin : s.admin = some caller
  auth : caller ∈ env.auths
  pos : 0 < amount.val
  fits : (totalSupply s).val + amount.val ≤ maxSupply.val

variable [DecidableEq Address]

/-- The lock is free, and the admin can mint a reward to anybody. -/
def RewardsOpen (s : Storage Address) : Prop :=
  LockFree s ∧ ∀ env caller recipient amount, Rewards env s caller amount →
    ∃ s', mintReward env s caller recipient amount = .ok s'

/-- The call is such a `mint_reward`, in the storage after the calls before it. -/
def IsReward [Airdrop.XdrBytes Address] (s₀ : Storage Address)
    (earlier : List (Env Address × Call Address)) (i : Env Address × Call Address) : Prop :=
  ∃ caller recipient amount, i.2 = .mintReward caller recipient amount ∧
    Rewards i.1 (after exec s₀ earlier) caller amount

section Steps

variable {env : Env Address} {s s' : Storage Address}

/-- With the lock free, the contract accepts every reward that it should. -/
theorem mintReward_succeeds {admin : Address} {minted : Int} {caller : Address} {amount : I128}
    (hc : Conserved admin minted s) (hfree : LockFree s) (hr : Rewards env s caller amount)
    (recipient : Address) : ∃ s', mintReward env s caller recipient amount = .ok s' := by
  have hlocked : acquireLock s = .ok { s with locked := some true } :=
    acquireLock_ok.mpr ⟨hfree, rfl⟩
  have hc' : Conserved admin minted { s with locked := some true } :=
    ⟨hc.admin, hc.sound, hc.cap, hc.flow⟩
  obtain ⟨s₁, s₂, h₁, h₂⟩ := credit_succeeds recipient hc' hr.pos hr.fits
  refine ⟨s₂.publish [.symbol "mint", .symbol "to", .address recipient] [.i128 amount], ?_⟩
  simp only [mintReward, bind_eq_ok, assert_eq_ok, unwrap_eq_ok, Env.requireAuth_eq_ok, pure_eq_ok,
    exists_const]
  exact ⟨_, hlocked, hr.auth, caller, hr.admin, rfl, hr.pos, s₁, h₁, s₂, h₂, rfl⟩

end Steps

variable [Airdrop.XdrBytes Address] {s s' : Storage Address} {i : Env Address × Call Address}

/-- An accepted `mint_reward` leaves the lock taken. -/
theorem lock_taken {caller recipient : Address} {amount : I128}
    (h : exec s i = .ok s') (hi : i.2 = .mintReward caller recipient amount) : ¬ LockFree s' := by
  rw [exec, hi] at h
  obtain ⟨_, _, _, _, v, w, _, rfl⟩ := mintReward_ok h
  exact Bool.noConfusion

/-- Every other call leaves the lock as it is. -/
theorem lock_kept (h : exec s i = .ok s')
    (hi : ∀ caller recipient amount, i.2 ≠ .mintReward caller recipient amount) :
    s'.locked = s.locked := by
  refine (exec_frame h).lock ?_
  obtain ⟨env, call⟩ := i
  cases call with
  | mintReward caller recipient amount => exact absurd rfl (hi caller recipient amount)
  | _ => exact Part.noConfusion

omit [Airdrop.XdrBytes Address] in
/-- An accepted `mint_reward` is one that the contract should accept. -/
theorem rewards_of_ok {env : Env Address} {caller recipient : Address} {amount : I128}
    (h : mintReward env s caller recipient amount = .ok s') : Rewards env s caller amount := by
  obtain ⟨_, hauth, hadmin, hpos, v, w, hcredit, _⟩ := mintReward_ok h
  have hcap := hcredit.cap
  rw [hcredit.supply_eq] at hcap
  exact ⟨hadmin, hauth, hpos, hcap⟩

variable {admin : Address} {s₀ : Storage Address}

omit [Airdrop.XdrBytes Address] in
theorem Initialised.lockFree (h : Initialised admin s₀) : LockFree s₀ := by
  obtain ⟨env, h⟩ := h
  obtain ⟨_, _, rfl⟩ := initializeContract_ok.mp h
  rfl

/-- With the lock free, rewards are open after any run. -/
theorem rewardsOpen_of_lockFree (h : Initialised admin s₀)
    (past : List (Env Address × Call Address)) (hfree : LockFree (after exec s₀ past)) :
    RewardsOpen (after exec s₀ past) :=
  ⟨hfree, fun _ _ recipient _ hr => mintReward_succeeds (conserved_after h past) hfree hr recipient⟩

/-- A call that is no reward leaves the lock free. -/
theorem lockFree_next {past : List (Env Address × Call Address)}
    (hfree : LockFree (after exec s₀ past)) (hi : ¬ IsReward s₀ past i) :
    LockFree (after exec s₀ (i :: past)) := by
  cases he : exec (after exec s₀ past) i with
  | ok s' =>
    have hother : ∀ caller recipient amount, i.2 ≠ .mintReward caller recipient amount := by
      intro caller recipient amount hc
      refine hi ⟨caller, recipient, amount, hc, ?_⟩
      rw [exec, hc] at he
      exact rewards_of_ok he
    rw [after, apply_ok he, LockFree, lock_kept he hother]
    exact hfree
  | error t =>
    rw [after, apply_error he]
    exact hfree

/-- In a run from `initialize`, the lock is free and the admin's rewards are
accepted at every point exactly when no call of the run is such a reward. -/
theorem lock_free_iff (h : Initialised admin s₀) (past : List (Env Address × Call Address)) :
    (∀ earlier, earlier <:+ past → RewardsOpen (after exec s₀ earlier)) ↔
      Guarded (fun earlier i => ¬ IsReward s₀ earlier i) past := by
  refine throughout_iff_guarded (P := fun earlier => RewardsOpen (after exec s₀ earlier))
    (rewardsOpen_of_lockFree h [] h.lockFree) past fun e i _ hopen => ?_
  constructor
  · rintro ⟨hfree, _⟩ ⟨caller, recipient, amount, hi, hr⟩
    obtain ⟨s', hs'⟩ := hopen.2 _ _ recipient _ hr
    have he : exec (after exec s₀ e) i = .ok s' := by
      rw [exec, hi]
      exact hs'
    rw [after, apply_ok he] at hfree
    exact lock_taken he hi hfree
  · intro hi
    exact rewardsOpen_of_lockFree h (i :: e) (lockFree_next hopen.1 hi)

/-- The run that mints 500 to contract 2 with no reward in it. -/
theorem lock_free_iff_mint :
    RewardsOpen (after exec exampleToken [(exampleEnv 0 [1], .mint 2 (.lit 500))]) := by
  refine (lock_free_iff exampleToken_initialised [(exampleEnv 0 [1], .mint 2 (.lit 500))]).mpr
    ⟨?_, trivial⟩ _ (List.suffix_refl _)
  rintro ⟨caller, recipient, amount, hi, _⟩
  cases hi

/-- The admin, contract 1, rewards contract 2 with 100. -/
def exampleReward : Env Nat × Call Nat := (exampleEnv 0 [1], .mintReward 1 2 (.lit 100))

/-- After the reward the lock stays taken, and the same reward is refused. -/
theorem second_reward_refused :
    ¬ LockFree (after exec exampleToken [exampleReward]) ∧
    Rewards (exampleEnv 0 [1]) (after exec exampleToken [exampleReward]) 1 (.lit 100) ∧
    (exec (after exec exampleToken [exampleReward]) exampleReward).isOk = false :=
  ⟨by decide +kernel, ⟨by decide +kernel, by decide +kernel, by decide +kernel, by decide +kernel⟩,
    by decide +kernel⟩

end Scoopdope.Token

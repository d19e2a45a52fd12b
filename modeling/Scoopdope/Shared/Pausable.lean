import Scoopdope.Shared.Contract
import Scoopdope.Soroban.History

/-!
# Shared: pausing for a time

A pause has an end. `check_not_paused` looks at it, and clears the flag of a pause that is over;
`is_paused`, `get_pause_state` and `pause` look at the flag only. So between the end of a pause
and the next `check_not_paused` or `unpause` they take the contract for paused and the guard does
not.

`Lapsed`: the last accepted call of a run is a pause that is over. `indicators_agree_iff`: at these
points of a run the indicators and the guard disagree, and at no others.
-/

namespace Scoopdope.Shared

open Soroban

variable {Address : Type} [DecidableEq Address]

/-! ## Runs of `pausable.rs` -/

inductive PauseCall (Address : Type)
  | pause (admin : Address) (autoUnpauseLedgers : U32)
  | unpause (admin : Address)
  | checkNotPaused

/-- One call in its environment. -/
def execPausable (s : Storage Address) (i : Env Address × PauseCall Address) :
    Outcome (Storage Address) :=
  match i.2 with
  | .pause admin autoUnpauseLedgers => pause i.1 s admin autoUnpauseLedgers
  | .unpause admin => unpause i.1 s admin
  | .checkNotPaused => checkNotPaused i.1 s

/-- The last call of the run that was accepted. -/
def lastAccepted (s₀ : Storage Address) (past : List (Env Address × PauseCall Address)) :
    Option (Env Address × PauseCall Address) :=
  traced execPausable s₀ (fun _ _ i => some i) none past

/-- The end of a pause, in seconds. -/
def pauseEnd (env : Env Address) (autoUnpauseLedgers : U32) : Int :=
  env.timestamp.val + autoUnpauseLedgers.val * 5

/-- The last accepted call is a pause that is over at the time `now`. -/
def Lapsed (s₀ : Storage Address) (past : List (Env Address × PauseCall Address)) (now : U64) :
    Prop :=
  ∃ env admin autoUnpauseLedgers,
    lastAccepted s₀ past = some (env, .pause admin autoUnpauseLedgers) ∧
      pauseEnd env autoUnpauseLedgers ≤ now.val

/-! ## What the guard says -/

/-- The guard panics: the contract is effectively paused. -/
def EffectivelyPaused (env : Env Address) (s : Storage Address) : Prop :=
  checkNotPaused env s = .error (.panic "Contract is paused")

/-- The indicators say what the guard says, and an authorised `pause` without overflow is accepted
exactly when the guard lets pass. -/
structure IndicatorsAgree (env : Env Address) (s : Storage Address) : Prop where
  isPaused : Shared.isPaused s = true ↔ EffectivelyPaused env s
  state : (getPauseState s).isPaused = true ↔ EffectivelyPaused env s
  contract : isContractPaused s = true ↔ EffectivelyPaused env s
  pause : ∀ admin autoUnpauseLedgers,
    (∃ s', Shared.pause env s admin autoUnpauseLedgers = .ok s') ↔
      admin ∈ env.auths ∧ pauseEnd env autoUnpauseLedgers ≤ 18446744073709551615 ∧
        ¬ EffectivelyPaused env s

section Guard

variable {env : Env Address} {s s' : Storage Address} {admin : Address} {autoUnpauseLedgers : U32}

omit [DecidableEq Address] in
theorem effectivelyPaused_iff :
    EffectivelyPaused env s ↔
      isPaused s = true ∧ env.timestamp.val < (s.autoUnpauseTime.getD 0).val := by
  unfold EffectivelyPaused checkNotPaused isPaused
  split
  · next hflag =>
    dsimp only
    split
    · next hover => exact iff_of_false nofun fun h => absurd hover (not_le.mpr h.2)
    · next hnot => exact iff_of_true rfl ⟨hflag, not_le.mp hnot⟩
  · next hflag => exact iff_of_false nofun fun h => hflag h.1

/-- `pause` goes by the flag. -/
theorem pause_accepted_iff :
    (∃ s', pause env s admin autoUnpauseLedgers = .ok s') ↔
      admin ∈ env.auths ∧ pauseEnd env autoUnpauseLedgers ≤ 18446744073709551615 ∧
        isPaused s = false := by
  simp only [pause, bind_eq_ok, assert_eq_ok, Env.requireAuth_eq_ok, exists_const, pure_eq_ok,
    BoundedInt.mul_eq_ok, BoundedInt.add_eq_ok]
  unfold pauseEnd
  constructor
  · rintro ⟨s', hauth, hflag, delay, hdelay, end_, hend, -⟩
    have hfits := end_.le_hi
    have hledgers : delay.val = autoUnpauseLedgers.val * 5 := hdelay
    exact ⟨hauth, by omega, hflag⟩
  · rintro ⟨hauth, hfits, hflag⟩
    have hledgers := autoUnpauseLedgers.lo_le
    have htime := env.timestamp.lo_le
    exact ⟨_, hauth, hflag, ⟨autoUnpauseLedgers.val * 5, by omega, by omega⟩, rfl,
      ⟨env.timestamp.val + autoUnpauseLedgers.val * 5, by omega, hfits⟩, rfl, rfl⟩

/-- Indicators and guard agree unless the flag is set for a pause that is over. -/
theorem indicatorsAgree_iff :
    IndicatorsAgree env s ↔
      ¬ (isPaused s = true ∧ (s.autoUnpauseTime.getD 0).val ≤ env.timestamp.val) := by
  constructor
  · rintro h ⟨hflag, hover⟩
    have hlate := (effectivelyPaused_iff.mp (h.isPaused.mp hflag)).2
    omega
  · intro hnot
    have hflag : isPaused s = true ↔ EffectivelyPaused env s := by
      rw [effectivelyPaused_iff]
      refine ⟨fun hflag => ⟨hflag, ?_⟩, And.left⟩
      by_contra hover
      exact hnot ⟨hflag, not_lt.mp hover⟩
    refine ⟨hflag, hflag, hflag, fun admin autoUnpauseLedgers => ?_⟩
    rw [pause_accepted_iff, ← hflag, Bool.not_eq_true]

end Guard

/-! ## The flag along a run -/

section Runs

variable {s₀ : Storage Address}

/-- What the last accepted call says of the flag. -/
def FlagOf (s : Storage Address) : Option (Env Address × PauseCall Address) → Prop
  | some (env, .pause _ autoUnpauseLedgers) =>
    isPaused s = true ∧ (s.autoUnpauseTime.getD 0).val = pauseEnd env autoUnpauseLedgers
  | _ => isPaused s = false

/-- An accepted call sets the flag if it is a pause, and clears it otherwise. -/
theorem execPausable_flagOf {s s' : Storage Address} {i : Env Address × PauseCall Address}
    (h : execPausable s i = .ok s') : FlagOf s' (some i) := by
  obtain ⟨env, call⟩ := i
  cases call with
  | pause admin autoUnpauseLedgers =>
    simp only [execPausable, pause, bind_eq_ok, pure_eq_ok, BoundedInt.mul_eq_ok,
      BoundedInt.add_eq_ok] at h
    obtain ⟨_, _, _, _, delay, hdelay, end_, hend, rfl⟩ := h
    refine ⟨rfl, ?_⟩
    show end_.val = env.timestamp.val + autoUnpauseLedgers.val * 5
    rw [hend, hdelay]
    rfl
  | unpause admin =>
    simp only [execPausable, unpause, bind_eq_ok, pure_eq_ok] at h
    obtain ⟨_, _, _, _, rfl⟩ := h
    rfl
  | checkNotPaused =>
    change checkNotPaused env s = .ok s' at h
    unfold checkNotPaused at h
    split at h
    · dsimp only at h
      split at h
      · cases pure_eq_ok.mp h
        rfl
      · cases h
    · next hflag =>
      cases pure_eq_ok.mp h
      exact Bool.eq_false_iff.mpr hflag

theorem flagOf_after (h : isPaused s₀ = false)
    (past : List (Env Address × PauseCall Address)) :
    FlagOf (after execPausable s₀ past) (lastAccepted s₀ past) := by
  have hstart : FlagOf s₀ none := h
  exact after_traced (R := FlagOf) hstart past fun _ _ _ _ _ he => execPausable_flagOf he

/-- After every run of a contract that starts unpaused, and at every time: the indicators agree
with the guard, and a pause is accepted where the guard lets pass, exactly unless the last
accepted call is a pause that is over. -/
theorem indicators_agree_iff (h : isPaused s₀ = false)
    (past : List (Env Address × PauseCall Address)) (env : Env Address) :
    IndicatorsAgree env (after execPausable s₀ past) ↔ ¬ Lapsed s₀ past env.timestamp := by
  have hflag := flagOf_after h past
  rw [indicatorsAgree_iff, not_iff_not]
  unfold Lapsed
  constructor
  · rintro ⟨hset, hover⟩
    revert hflag
    cases hlast : lastAccepted s₀ past with
    | none =>
      intro hflag
      exact absurd hset (Bool.eq_false_iff.mp hflag)
    | some i =>
      obtain ⟨env', call⟩ := i
      cases call with
      | pause admin autoUnpauseLedgers =>
        intro hflag
        exact ⟨env', admin, autoUnpauseLedgers, rfl, hflag.2 ▸ hover⟩
      | unpause admin =>
        intro hflag
        exact absurd hset (Bool.eq_false_iff.mp hflag)
      | checkNotPaused =>
        intro hflag
        exact absurd hset (Bool.eq_false_iff.mp hflag)
  · rintro ⟨env', admin, autoUnpauseLedgers, hlast, hover⟩
    rw [hlast] at hflag
    exact ⟨hflag.1, hflag.2.trans_le hover⟩

end Runs

/-- The contract with contract 1 as admin, never paused. -/
def examplePausable : Storage Nat :=
  { Storage.fresh Nat (Vector.replicate 32 0) with admin := some 1 }

/-- Contract 1 pauses it for one ledger at time 0. -/
def pausedOnce : List (Env Nat × PauseCall Nat) := [(exampleEnv 0 [1], .pause 1 (.lit 1))]

/-- The environment of contract 1 at a time. -/
def exampleAt (timestamp : U64) : Env Nat := { exampleEnv 0 [1] with timestamp }

theorem indicators_agree_iff_during :
    IndicatorsAgree (exampleAt (.lit 4)) (after execPausable examplePausable pausedOnce) := by
  refine (indicators_agree_iff rfl pausedOnce (exampleAt (.lit 4))).mpr ?_
  rintro ⟨env, admin, autoUnpauseLedgers, hlast, hover⟩
  cases hlast
  exact absurd hover (by decide)

/-- At second 5 the guard lets pass, while the indicators are true and a new pause is refused. -/
theorem lapsed_pause_disagrees :
    isPaused (after execPausable examplePausable pausedOnce) = true ∧
      (getPauseState (after execPausable examplePausable pausedOnce)).isPaused = true ∧
      (checkNotPaused (exampleAt (.lit 5)) (after execPausable examplePausable pausedOnce)).isOk =
        true ∧
      pause (exampleAt (.lit 5)) (after execPausable examplePausable pausedOnce) 1 (.lit 1) =
        .error (.panic "Already paused") :=
  ⟨rfl, rfl, rfl, rfl⟩

end Scoopdope.Shared

import Mathlib.Data.Nat.Find
import Scoopdope.Soroban.Env
import Scoopdope.Soroban.Pages
import Scoopdope.Soroban.Table

/-!
# Reputation: storage and entry points

`ReputationContract` (`contracts/reputation/src/lib.rs`). A field of the storage is one
storage key, or a table for a family of keys. Symbols are strings here, since two event
names have more characters than `symbol_short!` takes, and the time of a
`ReputationUpdate`, declared `u32`, has the type of the ledger time that is written
into it.

The second half has, for each call that returned, the checks that passed and what it
wrote.
-/

namespace Scoopdope.Reputation

open Soroban

structure ReputationUpdate where
  timestamp : U64
  scoreChange : I128
  reason : String
  courseId : Option U64

structure DecayConfig where
  enabled : Bool
  decayRate : I128
  decayInterval : U32

section Types

variable (Address : Type)

structure ReputationRecord where
  user : Address
  score : I128
  level : U8
  lastUpdated : U32
  totalUpdates : U32
deriving DecidableEq

structure Storage where
  /- Instance storage. -/
  admin : Option Address
  decayConfig : Option DecayConfig
  totalReputation : Option I128
  /- Persistent storage. -/
  reputation : Table Address (ReputationRecord Address)
  /-- `ReputationHistory(user, index)`. -/
  reputationHistory : Table (Address × U32) ReputationUpdate
  reputationHistoryCount : Table Address U32
  /-- The events published so far, newest first. -/
  events : List (Event Address)

/-- The storage of a contract just deployed. -/
def Storage.fresh : Storage Address where
  admin := none
  decayConfig := none
  totalReputation := none
  reputation := ∅
  reputationHistory := ∅
  reputationHistoryCount := ∅
  events := []

end Types

variable {Address : Type}

/-- `env.events().publish(topics, data)`. -/
def Storage.publish (s : Storage Address) (topics data : List (Val Address)) : Storage Address :=
  { s with events := ⟨topics, data⟩ :: s.events }

/-! ## Readers -/

def getTotalReputation (s : Storage Address) : I128 := s.totalReputation.getD 0

def getDecayConfig (s : Storage Address) : DecayConfig :=
  s.decayConfig.getD { enabled := false, decayRate := 0, decayInterval := .lit 1000 }

/-- `(n as f64).sqrt() as u8` of a number that is not negative. Up to 65024 the square root
lies below 255 and `f64` does not round it up to the next whole number; from there on the
cast saturates. -/
def sqrtAsU8 (n : I128) : U8 :=
  ⟨Nat.findGreatest (fun k => (k : Int) * k ≤ n.val) 255, Int.natCast_nonneg _,
    Int.ofNat_le.mpr (Nat.findGreatest_le 255)⟩

def calculateLevel (score : I128) : Outcome U8 := do
  if score ≤ 0 then pure (.lit 1)
  else
    let normalized ← score.div (.lit 100)
    (sqrtAsU8 normalized).add (.lit 1)

/-- The record after the decay that is due, if decay is enabled and an interval is over. -/
def applyDecayIfNeeded (s : Storage Address) (reputation : ReputationRecord Address)
    (currentLedger : U32) : Outcome (ReputationRecord Address) := do
  let config := getDecayConfig s
  if config.enabled = false then pure reputation else
  let ledgersSinceUpdate := currentLedger.saturatingSub reputation.lastUpdated
  if config.decayInterval ≤ ledgersSinceUpdate then
    let decayPeriods ← ledgersSinceUpdate.div config.decayInterval
    let rate ← config.decayRate.neg
    let decayAmount ← rate.mul decayPeriods.u32AsI128
    pure { reputation with
      score := reputation.score.saturatingSub decayAmount, lastUpdated := currentLedger }
  else pure reputation

variable [DecidableEq Address]

def getReputationRecord (s : Storage Address) (user : Address) :
    Option (ReputationRecord Address) :=
  s.reputation.get user

def getReputation (env : Env Address) (s : Storage Address) (user : Address) : Outcome I128 :=
  match getReputationRecord s user with
  | some record => do
    let record ← applyDecayIfNeeded s record env.sequence
    pure record.score
  | none => pure 0

def getReputationLevel (env : Env Address) (s : Storage Address) (user : Address) :
    Outcome U8 := do
  let score ← getReputation env s user
  calculateLevel score

def historyCount (s : Storage Address) (user : Address) : U32 :=
  (s.reputationHistoryCount.get user).getD 0

def getReputationHistory (s : Storage Address) (user : Address) (startIndex limit : U32) :
    Outcome (List ReputationUpdate) :=
  readPage (fun i => s.reputationHistory.get (user, i)) (historyCount s user) startIndex limit

/-! ## Entry points -/

def initializeContract (env : Env Address) (s : Storage Address) (admin : Address) :
    Outcome (Storage Address) := do
  assert (s.admin.isSome = false) "Already initialized"
  env.requireAuth admin
  let decayConfig : DecayConfig :=
    { enabled := true, decayRate := .lit (-1), decayInterval := .lit 1000 }
  pure { s with
    admin := some admin, decayConfig := some decayConfig, totalReputation := some 0 }

/-- The stored record, or that of a user without one. -/
def recordOrNew (env : Env Address) (s : Storage Address) (user : Address) :
    ReputationRecord Address :=
  (getReputationRecord s user).getD
    { user, score := 0, level := .lit 1, lastUpdated := env.sequence, totalUpdates := 0 }

/-- Both writers of a score append to the history of the user. -/
def addHistory (s : Storage Address) (user : Address) (update : ReputationUpdate) :
    Outcome (Storage Address) := do
  let historyCount := (s.reputationHistoryCount.get user).getD 0
  let s := { s with reputationHistory := s.reputationHistory.set (user, historyCount) update }
  let next ← historyCount.add (.lit 1)
  pure { s with reputationHistoryCount := s.reputationHistoryCount.set user next }

/-- Both writers of a score add to the total. -/
def addToTotal (s : Storage Address) (change : I128) : Outcome (Storage Address) := do
  let total ← expect ((getTotalReputation s).checkedAdd change) "arithmetic overflow"
  pure { s with totalReputation := some total }

def updateReputation (env : Env Address) (s : Storage Address) (admin user : Address)
    (scoreChange : I128) (reason : String) (courseId : Option U64) :
    Outcome (Storage Address) := do
  env.requireAuth admin
  let storedAdmin ← unwrap s.admin
  assert (admin = storedAdmin) "Only admin can update reputation"
  let reputation ← applyDecayIfNeeded s (recordOrNew env s user) env.sequence
  let score ← expect (reputation.score.checkedAdd scoreChange) "arithmetic overflow"
  let score := max score 0
  let totalUpdates ← expect (reputation.totalUpdates.checkedAdd (.lit 1)) "arithmetic overflow"
  let level ← calculateLevel score
  let reputation :=
    { reputation with score, level, lastUpdated := env.sequence, totalUpdates }
  let s := { s with reputation := s.reputation.set user reputation }
  let s ← addHistory s user { timestamp := env.timestamp, scoreChange, reason, courseId }
  let s ← addToTotal s scoreChange
  pure (s.publish [.symbol "rep_update", .symbol "user"]
    [.address user, .i128 scoreChange, .symbol reason])

def applyDecay (env : Env Address) (s : Storage Address) (admin user : Address) :
    Outcome (Storage Address) := do
  env.requireAuth admin
  let storedAdmin ← unwrap s.admin
  assert (admin = storedAdmin) "Only admin can apply decay"
  let old ← expect (getReputationRecord s user) "User has no reputation record"
  let reputation ← applyDecayIfNeeded s old env.sequence
  if old.score = reputation.score then pure s
  else
    let s := { s with reputation := s.reputation.set user reputation }
    let decayAmount ← reputation.score.sub old.score
    let s ← addHistory s user
      { timestamp := env.timestamp, scoreChange := decayAmount, reason := "decay",
        courseId := none }
    let s ← addToTotal s decayAmount
    pure (s.publish [.symbol "rep_decay", .symbol "user"] [.address user, .i128 decayAmount])

def setDecayConfig (env : Env Address) (s : Storage Address) (admin : Address) (enabled : Bool)
    (decayRate : I128) (decayInterval : U32) : Outcome (Storage Address) := do
  env.requireAuth admin
  let storedAdmin ← unwrap s.admin
  assert (admin = storedAdmin) "Only admin can set decay config"
  pure { s with decayConfig := some { enabled, decayRate, decayInterval } }

/-- The reward is only published. -/
def claimReputationReward (env : Env Address) (s : Storage Address) (user : Address) :
    Outcome (Storage Address) := do
  env.requireAuth user
  let reputation ← getReputation env s user
  let level ← calculateLevel reputation
  let rewardAmount ← level.u8AsI128.mul (.lit 10)
  pure (s.publish [.symbol "reward_claim", .symbol "user"] [.address user, .i128 rewardAmount])

/-- A call of an entry point that can write, with its arguments. -/
inductive Call (Address : Type)
  | initializeContract (admin : Address)
  | updateReputation (admin user : Address) (scoreChange : I128) (reason : String)
      (courseId : Option U64)
  | applyDecay (admin user : Address)
  | setDecayConfig (admin : Address) (enabled : Bool) (decayRate : I128) (decayInterval : U32)
  | claimReputationReward (user : Address)

/-- One call in its environment. -/
def exec (s : Storage Address) (i : Env Address × Call Address) : Outcome (Storage Address) :=
  match i.2 with
  | .initializeContract admin => initializeContract i.1 s admin
  | .updateReputation admin user scoreChange reason courseId =>
    updateReputation i.1 s admin user scoreChange reason courseId
  | .applyDecay admin user => applyDecay i.1 s admin user
  | .setDecayConfig admin enabled decayRate decayInterval =>
    setDecayConfig i.1 s admin enabled decayRate decayInterval
  | .claimReputationReward user => claimReputationReward i.1 s user

/-! ## What an accepted call does -/

section Steps

variable {env : Env Address} {s s' : Storage Address} {admin user : Address}

theorem getReputation_none (h : getReputationRecord s user = none) :
    getReputation env s user = .ok 0 := by
  rw [getReputation, h]
  rfl

theorem getReputation_eq_ok {record : ReputationRecord Address} {score : I128}
    (h : getReputationRecord s user = some record) :
    getReputation env s user = .ok score ↔
      ∃ decayed, applyDecayIfNeeded s record env.sequence = .ok decayed ∧
        decayed.score = score := by
  simp only [getReputation, h, bind_eq_ok, pure_eq_ok]

theorem initializeContract_ok (h : initializeContract env s admin = .ok s') :
    s.admin.isSome = false ∧ s'.admin = some admin ∧ s'.reputation = s.reputation ∧
      s'.totalReputation = some 0 ∧ s'.decayConfig = some ⟨true, .lit (-1), .lit 1000⟩ := by
  simp only [initializeContract, bind_eq_ok, assert_eq_ok, Env.requireAuth_eq_ok, exists_const,
    pure_eq_ok] at h
  obtain ⟨hnone, _, rfl⟩ := h
  exact ⟨hnone, rfl, rfl, rfl, rfl⟩

theorem addHistory_ok {update : ReputationUpdate} (h : addHistory s user update = .ok s') :
    s'.admin = s.admin ∧ s'.decayConfig = s.decayConfig ∧ s'.reputation = s.reputation ∧
      getTotalReputation s' = getTotalReputation s := by
  simp only [addHistory, bind_eq_ok, pure_eq_ok] at h
  obtain ⟨_, _, rfl⟩ := h
  exact ⟨rfl, rfl, rfl, rfl⟩

omit [DecidableEq Address] in
theorem addToTotal_ok {change : I128} (h : addToTotal s change = .ok s') :
    s'.admin = s.admin ∧ s'.decayConfig = s.decayConfig ∧ s'.reputation = s.reputation ∧
      (getTotalReputation s').val = (getTotalReputation s).val + change.val := by
  simp only [addToTotal, bind_eq_ok, expect_eq_ok, BoundedInt.checkedAdd_eq_some, pure_eq_ok] at h
  obtain ⟨total, htotal, rfl⟩ := h
  exact ⟨rfl, rfl, rfl, htotal⟩

/-- An update stores the decayed score plus the change, cut off at 0, counts from its own
ledger whether a decay was due or not, and adds the whole change to the total. -/
theorem updateReputation_ok {scoreChange : I128} {reason : String} {courseId : Option U64}
    (h : updateReputation env s admin user scoreChange reason courseId = .ok s') :
    ∃ decayed record : ReputationRecord Address,
      applyDecayIfNeeded s (recordOrNew env s user) env.sequence = .ok decayed ∧
      record.score.val = max (decayed.score.val + scoreChange.val) 0 ∧
      calculateLevel record.score = .ok record.level ∧ record.lastUpdated = env.sequence ∧
      s'.admin = s.admin ∧ s'.decayConfig = s.decayConfig ∧
      s'.reputation = s.reputation.set user record ∧
      (getTotalReputation s').val = (getTotalReputation s).val + scoreChange.val := by
  simp only [updateReputation, bind_eq_ok, assert_eq_ok, Env.requireAuth_eq_ok, unwrap_eq_ok,
    expect_eq_ok, BoundedInt.checkedAdd_eq_some, exists_const, pure_eq_ok] at h
  obtain ⟨_, _, _, _, decayed, hdecayed, score, hscore, totalUpdates, _, level, hlevel, s₁, h₁,
    s₂, h₂, rfl⟩ := h
  obtain ⟨hadmin₁, hconfig₁, hreputation₁, htotal₁⟩ := addHistory_ok h₁
  obtain ⟨hadmin₂, hconfig₂, hreputation₂, htotal₂⟩ := addToTotal_ok h₂
  refine ⟨decayed, _, hdecayed, ?_, hlevel, rfl, hadmin₂.trans hadmin₁,
    hconfig₂.trans hconfig₁, hreputation₂.trans hreputation₁, ?_⟩
  · rw [BoundedInt.max_val, hscore, BoundedInt.i128_zero_val]
  · have hread : getTotalReputation s₁ = getTotalReputation s := htotal₁
    rw [← hread]
    exact htotal₂

/-- A decay that changes the score stores it and adds the difference to the total. -/
theorem applyDecay_ok (h : applyDecay env s admin user = .ok s') :
    ∃ old decayed : ReputationRecord Address, getReputationRecord s user = some old ∧
      applyDecayIfNeeded s old env.sequence = .ok decayed ∧
      (old.score = decayed.score ∧ s' = s ∨
        s'.admin = s.admin ∧ s'.decayConfig = s.decayConfig ∧
        s'.reputation = s.reputation.set user decayed ∧
        (getTotalReputation s').val =
          (getTotalReputation s).val + (decayed.score.val - old.score.val)) := by
  simp only [applyDecay, bind_eq_ok, assert_eq_ok, Env.requireAuth_eq_ok, unwrap_eq_ok,
    expect_eq_ok, exists_const] at h
  obtain ⟨_, _, _, _, old, hold, decayed, hdecayed, h⟩ := h
  refine ⟨old, decayed, hold, hdecayed, ?_⟩
  split at h
  · next hsame => exact .inl ⟨hsame, (pure_eq_ok.mp h).symm⟩
  · simp only [bind_eq_ok, BoundedInt.sub_eq_ok, pure_eq_ok] at h
    obtain ⟨amount, hamount, s₁, h₁, s₂, h₂, rfl⟩ := h
    obtain ⟨hadmin₁, hconfig₁, hreputation₁, htotal₁⟩ := addHistory_ok h₁
    obtain ⟨hadmin₂, hconfig₂, hreputation₂, htotal₂⟩ := addToTotal_ok h₂
    refine .inr ⟨hadmin₂.trans hadmin₁, hconfig₂.trans hconfig₁,
      hreputation₂.trans hreputation₁, ?_⟩
    have hread : getTotalReputation s₁ = getTotalReputation s := htotal₁
    rw [← hread, ← hamount]
    exact htotal₂

theorem setDecayConfig_ok {enabled : Bool} {decayRate : I128} {decayInterval : U32} :
    setDecayConfig env s admin enabled decayRate decayInterval = .ok s' ↔
      admin ∈ env.auths ∧ s.admin = some admin ∧
      s' = { s with decayConfig := some ⟨enabled, decayRate, decayInterval⟩ } := by
  simp only [setDecayConfig, bind_eq_ok, assert_eq_ok, Env.requireAuth_eq_ok, unwrap_eq_ok,
    exists_const, pure_eq_ok]
  constructor
  · rintro ⟨hauth, storedAdmin, hadmin, rfl, rfl⟩
    exact ⟨hauth, hadmin, rfl⟩
  · rintro ⟨hauth, hadmin, rfl⟩
    exact ⟨hauth, admin, hadmin, rfl, rfl⟩

theorem claimReputationReward_ok (h : claimReputationReward env s user = .ok s') :
    ∃ events, s' = { s with events := events } := by
  simp only [claimReputationReward, bind_eq_ok, Env.requireAuth_eq_ok, exists_const,
    pure_eq_ok] at h
  obtain ⟨_, _, _, _, _, _, _, rfl⟩ := h
  exact ⟨_, rfl⟩

end Steps

/-! ## Initialised storages -/

/-- The storage after `initialize`. -/
def Initialised (admin : Address) (s : Storage Address) : Prop :=
  ∃ env, initializeContract env (Storage.fresh Address) admin = .ok s

/-- The contract with contract 1 as admin. -/
def exampleReputation : Storage Nat :=
  { Storage.fresh Nat with
    admin := some 1
    decayConfig := some { enabled := true, decayRate := .lit (-1), decayInterval := .lit 1000 }
    totalReputation := some 0 }

theorem exampleReputation_initialised : Initialised 1 exampleReputation :=
  ⟨exampleEnv 0 [1], rfl⟩

end Scoopdope.Reputation

import Scoopdope.Reputation.Scores

/-!
# Reputation: reads that trap

The readers compute the decay that is due with whatever `set_decay_config` stored: an
interval of 0 is divided by, the least rate has no negation, and a large rate times the
intervals is no `i128`. A positive rate adds to the score, and a score of 6502500 has
level 256, which is no `u8`. `reads_return_iff` has the condition; configurations with a
positive interval and a rate from -2^95 to 0 meet it at every ledger (`Moderate`).
-/

namespace Scoopdope.Reputation

open Soroban

variable {Address : Type}

/-- Of a decay that is due, the interval is not 0, and the negated rate and the amount are
`i128`. -/
def DecayComputes (config : DecayConfig) (lastUpdated now : U32) : Prop :=
  (config.enabled = true ∧ config.decayInterval ≤ now.saturatingSub lastUpdated →
    config.decayInterval.val ≠ 0 ∧ config.decayRate.val ≠ -2 ^ 127) ∧
  -2 ^ 127 ≤ decayDue config lastUpdated now ∧ decayDue config lastUpdated now < 2 ^ 127

/-- A configuration that every ledger can compute with. -/
def Moderate (config : DecayConfig) : Prop :=
  config.enabled = true →
    0 < config.decayInterval.val ∧ -2 ^ 95 ≤ config.decayRate.val ∧ config.decayRate.val ≤ 0

/-! ## One read -/

theorem sqrtAsU8_lt_iff {n : I128} : (sqrtAsU8 n).val < 255 ↔ n.val < 65025 := by
  have hcast : (sqrtAsU8 n).val = (Nat.findGreatest (fun k => (k : Int) * k ≤ n.val) 255 : Nat) :=
    rfl
  rw [hcast]
  constructor
  · intro hlt
    by_contra hge
    have hroot : ((255 : Nat) : Int) * (255 : Nat) ≤ n.val := not_lt.mp hge
    rw [Nat.findGreatest_eq hroot] at hlt
    exact absurd hlt (lt_irrefl 255)
  · intro hlt
    by_contra hge
    have hle := Nat.findGreatest_le (P := fun k : Nat => (k : Int) * k ≤ n.val) 255
    have heq : Nat.findGreatest (fun k : Nat => (k : Int) * k ≤ n.val) 255 = 255 := by omega
    have hroot := Nat.findGreatest_of_ne_zero heq (by decide)
    omega

/-- Only a score below 6502500 has a level. -/
theorem calculateLevel_isOk_iff {score : I128} :
    (∃ level, calculateLevel score = .ok level) ↔ score.val < 6502500 := by
  have hlo := score.lo_le
  have hhi := score.le_hi
  unfold calculateLevel
  split
  · next hnonpos =>
    have hle : score.val ≤ 0 := hnonpos
    exact iff_of_true ⟨_, rfl⟩ (by omega)
  · next hpos =>
    have hscore : 0 < score.val := not_le.mp hpos
    have htdiv : score.val.tdiv 100 = score.val / 100 := Int.tdiv_eq_ediv_of_nonneg hscore.le
    simp only [bind_eq_ok, BoundedInt.div_eq_ok, BoundedInt.add_eq_ok, BoundedInt.lit_val, htdiv]
    constructor
    · rintro ⟨level, normalized, ⟨_, hnormalized⟩, hlevel⟩
      have hroot := level.le_hi
      have hlt := sqrtAsU8_lt_iff.mp (show (sqrtAsU8 normalized).val < 255 by omega)
      omega
    · intro hlt
      have hlt' : (sqrtAsU8 ⟨score.val / 100, by omega, by omega⟩).val < 255 :=
        sqrtAsU8_lt_iff.mpr (by show score.val / 100 < 65025; omega)
      have hroot := (sqrtAsU8 ⟨score.val / 100, by omega, by omega⟩).lo_le
      exact ⟨⟨_, by omega, by omega⟩, ⟨score.val / 100, by omega, by omega⟩, ⟨by decide, rfl⟩, rfl⟩

section Reads

variable {s : Storage Address} {record : ReputationRecord Address} {now : U32}

theorem applyDecayIfNeeded_isOk_iff :
    (∃ decayed, applyDecayIfNeeded s record now = .ok decayed) ↔
      DecayComputes (getDecayConfig s) record.lastUpdated now := by
  by_cases hdue : (getDecayConfig s).enabled = true ∧
      (getDecayConfig s).decayInterval ≤ now.saturatingSub record.lastUpdated
  · simp only [applyDecayIfNeeded_due hdue, DecayComputes, imp_iff_right hdue]
    constructor
    · rintro ⟨_, hinterval, hrate, amount, hamount, _⟩
      have hlo := amount.lo_le
      have hhi := amount.le_hi
      exact ⟨⟨hinterval, hrate⟩, by omega, by omega⟩
    · rintro ⟨⟨hinterval, hrate⟩, hlo, hhi⟩
      exact ⟨_, hinterval, hrate, ⟨_, hlo, Int.le_of_lt_add_one hhi⟩, rfl, rfl⟩
  · rw [applyDecayIfNeeded_early hdue, DecayComputes, decayDue, if_neg hdue]
    exact iff_of_true ⟨record, rfl⟩ ⟨fun h => absurd h hdue, by decide, by decide⟩

variable [DecidableEq Address] {env : Env Address} {user : Address}

/-- The decay that is due to the user's record computes, and the score it leaves has a
level. -/
def ReadComputes (env : Env Address) (s : Storage Address) (user : Address) : Prop :=
  ∀ record, getReputationRecord s user = some record →
    DecayComputes (getDecayConfig s) record.lastUpdated env.sequence ∧
      record.score.val - decayDue (getDecayConfig s) record.lastUpdated env.sequence < 6502500

theorem level_read_iff :
    (∃ level, getReputationLevel env s user = .ok level) ↔ ReadComputes env s user := by
  rw [ReadComputes]
  cases hget : getReputationRecord s user with
  | none =>
    rw [getReputationLevel, getReputation_none hget]
    exact iff_of_true ⟨.lit 1, rfl⟩ fun _ hnone => by cases hnone
  | some record =>
    have hlo := record.score.lo_le
    have hhi := record.score.le_hi
    simp only [getReputationLevel, bind_eq_ok, getReputation_eq_ok hget, Option.some.injEq,
      forall_eq', ← applyDecayIfNeeded_isOk_iff]
    constructor
    · rintro ⟨level, _, ⟨decayed, hdecayed, rfl⟩, hlevel⟩
      have hscore := (applyDecayIfNeeded_ok hdecayed).2.2
      have hlt := calculateLevel_isOk_iff.mp ⟨level, hlevel⟩
      exact ⟨⟨decayed, hdecayed⟩, by omega⟩
    · rintro ⟨⟨decayed, hdecayed⟩, hlt⟩
      have hscore := (applyDecayIfNeeded_ok hdecayed).2.2
      have hleveled : decayed.score.val < 6502500 := by omega
      obtain ⟨level, hlevel⟩ := calculateLevel_isOk_iff.mpr hleveled
      exact ⟨level, decayed.score, ⟨decayed, hdecayed, rfl⟩, hlevel⟩

/-- Where the level can be read, a claim is refused only to who did not authorise it. -/
theorem claimReputationReward_traps (h : ∃ level, getReputationLevel env s user = .ok level) :
    TrapsOnly .unauthorized (claimReputationReward env s user) := by
  obtain ⟨level, h⟩ := h
  obtain ⟨score, hscore, hlevel⟩ := bind_eq_ok.mp h
  have hlo := level.lo_le
  have hhi := level.le_hi
  have hreward : level.u8AsI128.mul (.lit 10) = .ok ⟨level.val * 10, by omega, by omega⟩ :=
    BoundedInt.mul_eq_ok.mpr rfl
  refine TrapsOnly.bind (fun _ he => (Env.requireAuth_eq_error.mp he).2) fun _ _ => ?_
  refine (TrapsOnly.of_ok hscore).bind fun _ h₁ => ?_
  cases hscore.symm.trans h₁
  refine (TrapsOnly.of_ok hlevel).bind fun _ h₂ => ?_
  cases hlevel.symm.trans h₂
  exact (TrapsOnly.of_ok hreward).bind fun _ _ => .of_ok rfl

/-- The three readers trap on no arithmetic exactly when the read computes. -/
theorem readers_return_iff :
    (∃ score, getReputation env s user = .ok score) ∧
      (∃ level, getReputationLevel env s user = .ok level) ∧
      TrapsOnly .unauthorized (claimReputationReward env s user) ↔
    ReadComputes env s user := by
  rw [← level_read_iff]
  constructor
  · rintro ⟨_, hlevel, _⟩
    exact hlevel
  · intro hlevel
    obtain ⟨level, h⟩ := hlevel
    obtain ⟨score, hscore, _⟩ := bind_eq_ok.mp h
    exact ⟨⟨score, hscore⟩, ⟨level, h⟩, claimReputationReward_traps ⟨level, h⟩⟩

end Reads

/-! ## Moderate configurations -/

section Moderation

variable {s s' : Storage Address}

/-- A moderate decay takes nothing away from nobody's computation, and adds no score. -/
theorem Moderate.computes {config : DecayConfig} (h : Moderate config) (lastUpdated now : U32) :
    0 ≤ decayDue config lastUpdated now ∧ DecayComputes config lastUpdated now := by
  by_cases hdue : config.enabled = true ∧ config.decayInterval ≤ now.saturatingSub lastUpdated
  · obtain ⟨hinterval, hlow, hhigh⟩ := h hdue.1
    have helapsed := (now.saturatingSub lastUpdated).lo_le
    have hperiods := Int.tdiv_nonneg helapsed config.decayInterval.lo_le
    have hle := (Int.tdiv_le_self config.decayInterval.val helapsed).trans
      (now.saturatingSub lastUpdated).le_hi
    have hrate : 0 ≤ -config.decayRate.val := by omega
    have hnonneg : 0 ≤ decayDue config lastUpdated now := by
      rw [decayDue, if_pos hdue]
      exact Int.mul_nonneg hrate hperiods
    have hmax : decayDue config lastUpdated now ≤ 2 ^ 95 * 4294967295 := by
      rw [decayDue, if_pos hdue]
      exact Int.mul_le_mul (by omega) hle hperiods (by decide)
    exact ⟨hnonneg, fun _ => ⟨by omega, by omega⟩, by omega, by omega⟩
  · rw [DecayComputes, decayDue, if_neg hdue]
    exact ⟨le_refl 0, fun h => absurd h hdue, by decide, by decide⟩

variable [DecidableEq Address]

/-- The configuration is moderate, and the stored scores have levels. -/
structure Leveled (s : Storage Address) : Prop where
  config : Moderate (getDecayConfig s)
  scores : ∀ user record, getReputationRecord s user = some record → record.score.val < 6502500

/-- A call that configures a moderate decay, or none. -/
def ConfiguresModerately (i : Env Address × Call Address) : Prop :=
  ∀ admin enabled decayRate decayInterval,
    i.2 = .setDecayConfig admin enabled decayRate decayInterval →
    Moderate ⟨enabled, decayRate, decayInterval⟩

theorem Leveled.readComputes (hs : Leveled s) (env : Env Address) (user : Address) :
    ReadComputes env s user := by
  intro record hget
  obtain ⟨hdue, hcomputes⟩ := hs.config.computes record.lastUpdated env.sequence
  have hscore := hs.scores user record hget
  exact ⟨hcomputes, by omega⟩

theorem Leveled.set (hs : Leveled s) {user : Address} {record : ReputationRecord Address}
    (hconfig : s'.decayConfig = s.decayConfig)
    (hreputation : s'.reputation = s.reputation.set user record)
    (hscore : record.score.val < 6502500) : Leveled s' := by
  constructor
  · rw [getDecayConfig, hconfig]
    exact hs.config
  · simp only [getReputationRecord, hreputation]
    exact Table.forall_set (P := fun _ (record : ReputationRecord Address) =>
      record.score.val < 6502500) hs.scores hscore

theorem Leveled.initialize {env : Env Address} {admin : Address}
    (hscores : ∀ user record, getReputationRecord s user = some record →
      record.score.val < 6502500)
    (h : initializeContract env s admin = .ok s') : Leveled s' := by
  constructor
  · rw [getDecayConfig, (initializeContract_ok h).2.2.2.2]
    exact fun _ => by decide
  · simp only [getReputationRecord, (initializeContract_ok h).2.2.1]
    exact hscores

theorem Leveled.step (hs : Leveled s) {i : Env Address × Call Address}
    (hi : ConfiguresModerately i) (h : exec s i = .ok s') : Leveled s' := by
  obtain ⟨env, call⟩ := i
  cases call with
  | initializeContract admin => exact Leveled.initialize hs.scores h
  | updateReputation admin user scoreChange reason courseId =>
    obtain ⟨_, record, _, _, hlevel, _, _, hconfig, hreputation, _⟩ := updateReputation_ok h
    exact hs.set hconfig hreputation (calculateLevel_isOk_iff.mp ⟨_, hlevel⟩)
  | applyDecay admin user =>
    have hcall : applyDecay env s admin user = .ok s' := h
    obtain ⟨old, decayed, hold, hdecayed, hcases⟩ := applyDecay_ok hcall
    rcases hcases with ⟨_, rfl⟩ | ⟨_, hconfig, hreputation, _⟩
    · exact hs
    · obtain ⟨hdue, _⟩ := hs.config.computes old.lastUpdated env.sequence
      have hscore := (applyDecayIfNeeded_ok hdecayed).2.2
      have hold' := hs.scores user old hold
      exact hs.set hconfig hreputation (by omega)
  | setDecayConfig admin enabled decayRate decayInterval =>
    obtain ⟨_, _, rfl⟩ := setDecayConfig_ok.mp h
    exact ⟨hi admin enabled decayRate decayInterval rfl, hs.scores⟩
  | claimReputationReward user =>
    obtain ⟨events, rfl⟩ := claimReputationReward_ok h
    exact ⟨hs.config, hs.scores⟩

end Moderation

/-! ## Runs -/

section Runs

variable [DecidableEq Address] {admin : Address} {s₀ : Storage Address}

theorem Initialised.leveled (h : Initialised admin s₀) : Leveled s₀ := by
  obtain ⟨env, h⟩ := h
  refine Leveled.initialize (fun user record hget => ?_) h
  rw [getReputationRecord] at hget
  cases hget

theorem leveled_after (h : Initialised admin s₀) (past : List (Env Address × Call Address))
    (hmoderate : Guarded (fun earlier i => Accepted exec s₀ earlier i → ConfiguresModerately i)
      past) : Leveled (after exec s₀ past) := by
  refine after_history_guarded (P := fun _ s => Leveled s) h.leveled ?_ ?_ past hmoderate
  · rintro past i s s' _ hi rfl hs he
    exact hs.step (hi ⟨s', he⟩) he
  · rintro past i s t _ _ _ hs _
    exact hs

/-- After every run, the three readers trap on no arithmetic exactly when the decay due to
the user computes and what it leaves has a level; and after a run that configures moderate
decays only they never do. -/
theorem reads_return_iff (h : Initialised admin s₀) (past : List (Env Address × Call Address)) :
    (∀ env user,
      ((∃ score, getReputation env (after exec s₀ past) user = .ok score) ∧
        (∃ level, getReputationLevel env (after exec s₀ past) user = .ok level) ∧
        TrapsOnly .unauthorized (claimReputationReward env (after exec s₀ past) user)) ↔
      ReadComputes env (after exec s₀ past) user) ∧
    (Guarded (fun earlier i => Accepted exec s₀ earlier i → ConfiguresModerately i) past →
      ∀ env user, ReadComputes env (after exec s₀ past) user) := by
  refine ⟨fun env user => readers_return_iff, fun hmoderate env user => ?_⟩
  exact (leveled_after h past hmoderate).readComputes env user

/-- A configuration set by the admin. -/
def exampleConfig (decayRate : I128) (decayInterval : U32) : Env Nat × Call Nat :=
  (exampleEnv 0 [1], .setDecayConfig 1 true decayRate decayInterval)

/-- An interval of 0 is divided by, the least rate has no negation, half of it twice is no
`i128`, and a rate of 7000000 leads to a score without a level. -/
theorem reads_trap :
    getReputation (exampleEnv (.lit 1000) []) (after exec exampleReputation
      [exampleConfig (.lit (-1)) 0, exampleScore]) 5 = .error .divisionByZero ∧
    getReputation (exampleEnv (.lit 1000) []) (after exec exampleReputation
      [exampleConfig (.lit (-170141183460469231731687303715884105728)) (.lit 1000),
        exampleScore]) 5 = .error .overflow ∧
    getReputation (exampleEnv (.lit 2000) []) (after exec exampleReputation
      [exampleConfig (.lit (-85070591730234615865843651857942052864)) (.lit 1000),
        exampleScore]) 5 = .error .overflow ∧
    getReputationLevel (exampleEnv (.lit 1000) []) (after exec exampleReputation
      [exampleConfig (.lit 7000000) (.lit 1000), exampleScore]) 5 = .error .overflow ∧
    (claimReputationReward (exampleEnv (.lit 1000) [5]) (after exec exampleReputation
      [exampleConfig (.lit (-1)) 0, exampleScore]) 5).map (fun _ => ()) =
        .error .divisionByZero := by
  refine ⟨by decide +kernel, by decide +kernel, by decide +kernel, by decide +kernel,
    by decide +kernel⟩

/-- Contract 5 reads its level under the first configuration at the last ledger. -/
theorem reads_return_iff_first :
    ∃ level, getReputationLevel (exampleEnv (.lit 4294967295) []) (after exec exampleReputation
      [exampleScore]) 5 = .ok level := by
  have hreads := reads_return_iff exampleReputation_initialised [exampleScore]
  have hmoderate : Guarded (fun earlier i => Accepted exec exampleReputation earlier i →
      ConfiguresModerately i) [exampleScore] := by
    refine ⟨fun _ admin enabled decayRate decayInterval hcall => ?_, trivial⟩
    cases hcall
  exact ((hreads.1 _ 5).mpr (hreads.2 hmoderate _ 5)).2.1

end Runs

end Scoopdope.Reputation

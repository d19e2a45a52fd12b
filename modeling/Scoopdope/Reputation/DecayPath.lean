import Scoopdope.Market.Proportions
import Scoopdope.Reputation.Scores

/-!
# Reputation: the path of a decay

A decay counts the whole intervals since the last update and moves the last update to the
present ledger, so what is left of an interval is lost. Decay in two steps therefore takes
off less than decay in one, unless the two rests make up no interval
(`decay_path_independent_iff`). An update by 0 moves the last update too, also where no
interval is over, and cuts the score off at 0.
-/

namespace Scoopdope.Reputation

open Soroban PeriodicAccrual

variable {Address : Type}

/-- What is left over of the ledgers before and after `t₁` makes up no interval. -/
def RestsFit (config : DecayConfig) (t₀ t₁ t₂ : U32) : Prop :=
  (t₁.val - t₀.val) % config.decayInterval.val + (t₂.val - t₁.val) % config.decayInterval.val <
    config.decayInterval.val

instance (config : DecayConfig) (t₀ t₁ t₂ : U32) : Decidable (RestsFit config t₀ t₁ t₂) :=
  inferInstanceAs (Decidable (_ < _))

section Config

variable {config : DecayConfig} {t₀ t₁ t₂ : U32}

theorem saturatingSub_of_le (h : t₀.val ≤ t₁.val) :
    (t₁.saturatingSub t₀).val = t₁.val - t₀.val := by
  have hlo := t₀.lo_le
  have hhi := t₁.le_hi
  rw [BoundedInt.saturatingSub_val]
  omega

/-- The decay that is due is what accrued since the last update. -/
theorem decayDue_eq (hon : config.enabled = true) (h : t₀.val ≤ t₁.val) :
    decayDue config t₀ t₁ =
      accrued (-config.decayRate.val) config.decayInterval.val (t₁.val - t₀.val) := by
  have helapsed : 0 ≤ t₁.val - t₀.val := Int.sub_nonneg_of_le h
  simp only [decayDue, BoundedInt.le_def, saturatingSub_of_le h, accrued,
    Int.tdiv_eq_ediv_of_nonneg helapsed]
  split
  · rfl
  · next hearly =>
    rw [Int.ediv_eq_zero_of_lt helapsed (not_le.mp fun hdue => hearly ⟨hon, hdue⟩), Int.mul_zero]

theorem decayDue_off (hoff : config.enabled = false) (t₀ t₁ : U32) : decayDue config t₀ t₁ = 0 := by
  rw [decayDue, if_neg]
  rintro ⟨hon, _⟩
  rw [hoff] at hon
  cases hon

theorem decayDue_nonneg (hrate : config.decayRate.val < 0) (t₀ t₁ : U32) :
    0 ≤ decayDue config t₀ t₁ := by
  rw [decayDue]
  split
  · exact Int.mul_nonneg (by omega)
      (Int.tdiv_nonneg (t₁.saturatingSub t₀).lo_le config.decayInterval.lo_le)
  · exact le_refl 0

/-- A decay is due when an interval is over. -/
theorem decayDue_pos_iff (hrate : config.decayRate.val < 0)
    (hinterval : 0 < config.decayInterval.val) (h : t₀.val ≤ t₁.val) :
    0 < decayDue config t₀ t₁ ↔
      config.enabled = true ∧ config.decayInterval ≤ t₁.saturatingSub t₀ := by
  cases hon : config.enabled with
  | false =>
    rw [decayDue_off hon]
    exact iff_of_false (lt_irrefl 0) fun hdue => Bool.noConfusion hdue.1
  | true =>
    rw [decayDue_eq hon h, accrued_pos_iff (by omega) hinterval, BoundedInt.le_def,
      saturatingSub_of_le h]
    exact (and_iff_right rfl).symm

/-- One rate, where the rests make up an interval. -/
def lostRate (config : DecayConfig) (t₀ t₁ t₂ : U32) : Int :=
  if config.enabled = true ∧ ¬ RestsFit config t₀ t₁ t₂ then -config.decayRate.val else 0

theorem lostRate_nonneg (hrate : config.decayRate.val < 0) (t₀ t₁ t₂ : U32) :
    0 ≤ lostRate config t₀ t₁ t₂ := by
  rw [lostRate]
  split <;> omega

theorem lostRate_eq_zero_iff (hrate : config.decayRate.val < 0) :
    lostRate config t₀ t₁ t₂ = 0 ↔ config.enabled = false ∨ RestsFit config t₀ t₁ t₂ := by
  rw [lostRate]
  constructor
  · intro h
    by_contra hnot
    rw [not_or, Bool.not_eq_false] at hnot
    rw [if_pos hnot] at h
    omega
  · rintro (hoff | hfit)
    · exact if_neg fun hlost => Bool.noConfusion (hoff.symm.trans hlost.1)
    · exact if_neg fun hlost => hlost.2 hfit

/-- The decay due over both times is that of the two, and one rate more where the rests make
up an interval. -/
theorem decayDue_split (hinterval : 0 < config.decayInterval.val) (h₁ : t₀.val ≤ t₁.val)
    (h₂ : t₁.val ≤ t₂.val) :
    decayDue config t₀ t₂ =
      decayDue config t₀ t₁ + decayDue config t₁ t₂ + lostRate config t₀ t₁ t₂ := by
  rw [lostRate]
  cases hon : config.enabled with
  | false => simp [decayDue_off hon]
  | true =>
    rw [decayDue_eq hon h₁, decayDue_eq hon h₂, decayDue_eq hon (h₁.trans h₂),
      show t₂.val - t₀.val = (t₁.val - t₀.val) + (t₂.val - t₁.val) by omega, accrued_add hinterval]
    simp only [RestsFit, not_lt, true_and]

end Config

/-! ## One decay -/

section Decay

variable {s : Storage Address} {record decayed : ReputationRecord Address} {now : U32}

/-- With a negative rate and a positive interval, a decay is computed when it is an `i128`. -/
theorem decayed_of_due (hrate : (getDecayConfig s).decayRate.val < 0)
    (hinterval : 0 < (getDecayConfig s).decayInterval.val) (hle : record.lastUpdated.val ≤ now.val)
    (hmax : decayDue (getDecayConfig s) record.lastUpdated now < 2 ^ 127) :
    ∃ decayed, applyDecayIfNeeded s record now = .ok decayed := by
  by_cases hdue : 0 < decayDue (getDecayConfig s) record.lastUpdated now
  · exact applyDecayIfNeeded_succeeds hdue hmax
  · rw [decayDue_pos_iff hrate hinterval hle] at hdue
    exact ⟨record, applyDecayIfNeeded_early hdue⟩

/-- What a decay leaves: the score less what is due, cut off at the least `i128`, and the
ledger it counted to. -/
theorem decayed_by_due (hrate : (getDecayConfig s).decayRate.val < 0)
    (hinterval : 0 < (getDecayConfig s).decayInterval.val) (hle : record.lastUpdated.val ≤ now.val)
    (h : applyDecayIfNeeded s record now = .ok decayed) :
    decayed.score.val =
        max (-2 ^ 127) (record.score.val - decayDue (getDecayConfig s) record.lastUpdated now) ∧
      decayed.lastUpdated =
        if 0 < decayDue (getDecayConfig s) record.lastUpdated now then now
        else record.lastUpdated := by
  obtain ⟨_, _, hscore⟩ := applyDecayIfNeeded_ok h
  have hdue := decayDue_nonneg hrate record.lastUpdated now
  have hhi := record.score.le_hi
  refine ⟨by omega, ?_⟩
  simp only [decayDue_pos_iff hrate hinterval hle]
  exact applyDecayIfNeeded_lastUpdated h

/-! ## Two decays -/

/-- Nothing is lost when the decay at `t₁` is not due, when the rests make up no interval,
or when the score has come down to the least `i128`. -/
def LosesNothing (config : DecayConfig) (score : I128) (t₀ t₁ t₂ : U32) : Prop :=
  config.enabled = false ∨ t₁.val - t₀.val < config.decayInterval.val ∨
    RestsFit config t₀ t₁ t₂ ∨
    score.val - decayDue config t₀ t₁ - decayDue config t₁ t₂ ≤ -2 ^ 127

variable {t₁ t₂ : U32}

theorem losesNothing_early (hrate : (getDecayConfig s).decayRate.val < 0)
    (hinterval : 0 < (getDecayConfig s).decayInterval.val)
    (h₁ : record.lastUpdated.val ≤ t₁.val)
    (h : ¬ 0 < decayDue (getDecayConfig s) record.lastUpdated t₁) :
    LosesNothing (getDecayConfig s) record.score record.lastUpdated t₁ t₂ := by
  rw [decayDue_pos_iff hrate hinterval h₁, BoundedInt.le_def, saturatingSub_of_le h₁, not_and_or,
    Bool.not_eq_true, not_le] at h
  exact h.imp_right .inl

/-- A decay that leaves the score was not due, or found the least `i128`. -/
theorem losesNothing_of_same {first : ReputationRecord Address}
    (hrate : (getDecayConfig s).decayRate.val < 0)
    (hinterval : 0 < (getDecayConfig s).decayInterval.val)
    (h₁ : record.lastUpdated.val ≤ t₁.val) (hfirst : applyDecayIfNeeded s record t₁ = .ok first)
    (hsame : record.score = first.score) :
    LosesNothing (getDecayConfig s) record.score record.lastUpdated t₁ t₂ := by
  by_cases hdue : 0 < decayDue (getDecayConfig s) record.lastUpdated t₁
  · have hscore := (decayed_by_due hrate hinterval h₁ hfirst).1
    have hdue₂ := decayDue_nonneg hrate t₁ t₂
    rw [← hsame] at hscore
    exact .inr (.inr (.inr (by omega)))
  · exact losesNothing_early hrate hinterval h₁ hdue

/-- Decay at `t₁` and at `t₂` is computed where decay at `t₂` alone is, and leaves the same
score exactly when nothing is lost. -/
theorem decayed_twice_iff {once : ReputationRecord Address}
    (hrate : (getDecayConfig s).decayRate.val < 0)
    (hinterval : 0 < (getDecayConfig s).decayInterval.val)
    (h₁ : record.lastUpdated.val ≤ t₁.val) (h₂ : t₁.val ≤ t₂.val)
    (honce : applyDecayIfNeeded s record t₂ = .ok once) :
    ∃ first second, applyDecayIfNeeded s record t₁ = .ok first ∧
      applyDecayIfNeeded s first t₂ = .ok second ∧
      (second.score = once.score ↔
        LosesNothing (getDecayConfig s) record.score record.lastUpdated t₁ t₂) := by
  obtain ⟨_, hmax, _⟩ := applyDecayIfNeeded_ok honce
  have hscore := (decayed_by_due hrate hinterval (h₁.trans h₂) honce).1
  have hsplit : decayDue (getDecayConfig s) record.lastUpdated t₂ = _ :=
    decayDue_split hinterval h₁ h₂
  have hdue₁ := decayDue_nonneg hrate record.lastUpdated t₁
  have hdue₂ := decayDue_nonneg hrate t₁ t₂
  have hextra := lostRate_nonneg hrate record.lastUpdated t₁ t₂
  by_cases hdue : 0 < decayDue (getDecayConfig s) record.lastUpdated t₁
  · -- The decay at `t₁` counts from there on.
    obtain ⟨first, hfirst⟩ := decayed_of_due hrate hinterval h₁ (by omega)
    obtain ⟨hscore₁, hlast₁⟩ := decayed_by_due hrate hinterval h₁ hfirst
    rw [if_pos hdue] at hlast₁
    have hle₁ : first.lastUpdated.val ≤ t₂.val := by
      rw [hlast₁]
      exact h₂
    have hmax₁ : decayDue (getDecayConfig s) first.lastUpdated t₂ < 2 ^ 127 := by
      rw [hlast₁]
      omega
    obtain ⟨second, hsecond⟩ := decayed_of_due hrate hinterval hle₁ hmax₁
    have hscore₂ := (decayed_by_due hrate hinterval hle₁ hsecond).1
    rw [hlast₁, hscore₁, floor_sub_sub hdue₂] at hscore₂
    obtain ⟨hon, hover⟩ := (decayDue_pos_iff hrate hinterval h₁).mp hdue
    rw [BoundedInt.le_def, saturatingSub_of_le h₁] at hover
    refine ⟨first, second, hfirst, hsecond, ?_⟩
    rw [BoundedInt.ext_iff, hscore₂, hscore, hsplit, ← Int.sub_sub, ← Int.sub_sub,
      floor_sub_eq_iff hextra, lostRate_eq_zero_iff hrate, LosesNothing]
    simp only [hon, Bool.true_eq_false, false_or, not_lt.mpr hover]
  · -- No interval is over at `t₁`, and the record stays as it is.
    have hearly := (decayDue_pos_iff hrate hinterval h₁).not.mp hdue
    exact ⟨record, once, applyDecayIfNeeded_early hearly, honce,
      iff_of_true rfl (losesNothing_early hrate hinterval h₁ hdue)⟩

/-! ## Through the entry points -/

theorem applyDecayIfNeeded_congr {s' : Storage Address} (h : s'.decayConfig = s.decayConfig)
    (record : ReputationRecord Address) (now : U32) :
    applyDecayIfNeeded s' record now = applyDecayIfNeeded s record now := by
  unfold applyDecayIfNeeded getDecayConfig
  rw [h]

variable [DecidableEq Address] {s' : Storage Address} {env : Env Address} {admin user : Address}

/-- The decay due at `t₁` is within the score, which is not cut off, and the rests make up no
interval. -/
def KeptByUpdate (config : DecayConfig) (score : I128) (t₀ t₁ t₂ : U32) : Prop :=
  decayDue config t₀ t₁ ≤ score.val ∧ (config.enabled = false ∨ RestsFit config t₀ t₁ t₂)

section Paths

variable {env₁ env₂ : Env Address} {once : I128}

theorem read_after_decay_iff (hget : getReputationRecord s user = some record)
    (hrate : (getDecayConfig s).decayRate.val < 0)
    (hinterval : 0 < (getDecayConfig s).decayInterval.val)
    (h₁ : record.lastUpdated.val ≤ env₁.sequence.val)
    (h₂ : env₁.sequence.val ≤ env₂.sequence.val) (hread : getReputation env₂ s user = .ok once)
    (h : applyDecay env₁ s admin user = .ok s') :
    ∃ later, getReputation env₂ s' user = .ok later ∧
      (later = once ↔ LosesNothing (getDecayConfig s) record.score record.lastUpdated
        env₁.sequence env₂.sequence) := by
  obtain ⟨decayed, hdecayed, rfl⟩ := (getReputation_eq_ok hget).mp hread
  obtain ⟨old, first, hold, hfirst, hcases⟩ := applyDecay_ok h
  cases hget.symm.trans hold
  rcases hcases with ⟨hsame, rfl⟩ | ⟨_, hconfig, hreputation, _⟩
  · exact ⟨decayed.score, hread,
      iff_of_true rfl (losesNothing_of_same hrate hinterval h₁ hfirst hsame)⟩
  · obtain ⟨first', second, hfirst', hsecond, hiff⟩ :=
      decayed_twice_iff hrate hinterval h₁ h₂ hdecayed
    cases hfirst.symm.trans hfirst'
    have hstored : getReputationRecord s' user = some first := by
      rw [getReputationRecord, hreputation, Table.get_set_self]
    rw [← applyDecayIfNeeded_congr hconfig] at hsecond
    exact ⟨second.score, (getReputation_eq_ok hstored).mpr ⟨second, hsecond, rfl⟩, hiff⟩

theorem read_after_update_iff {reason : String} {courseId : Option U64}
    (hget : getReputationRecord s user = some record)
    (hrate : (getDecayConfig s).decayRate.val < 0)
    (hinterval : 0 < (getDecayConfig s).decayInterval.val)
    (h₁ : record.lastUpdated.val ≤ env₁.sequence.val)
    (h₂ : env₁.sequence.val ≤ env₂.sequence.val) (hread : getReputation env₂ s user = .ok once)
    (h : updateReputation env₁ s admin user 0 reason courseId = .ok s') :
    ∃ later, getReputation env₂ s' user = .ok later ∧
      (later = once ↔ KeptByUpdate (getDecayConfig s) record.score record.lastUpdated
        env₁.sequence env₂.sequence) := by
  obtain ⟨decayed, hdecayed, rfl⟩ := (getReputation_eq_ok hget).mp hread
  obtain ⟨_, hmax, _⟩ := applyDecayIfNeeded_ok hdecayed
  have hscore := (decayed_by_due hrate hinterval (h₁.trans h₂) hdecayed).1
  obtain ⟨first, stored, hfirst, hcut, _, hlast, _, hconfig, hreputation, _⟩ :=
    updateReputation_ok h
  have hstored : getReputationRecord s' user = some stored := by
    rw [getReputationRecord, hreputation, Table.get_set_self]
  have hrecord : recordOrNew env₁ s user = record := by
    rw [recordOrNew, hget]
    rfl
  rw [hrecord] at hfirst
  have hscore₁ := (decayed_by_due hrate hinterval h₁ hfirst).1
  have hsplit : decayDue (getDecayConfig s) record.lastUpdated env₂.sequence = _ :=
    decayDue_split hinterval h₁ h₂
  have hdue₁ := decayDue_nonneg hrate record.lastUpdated env₁.sequence
  have hdue₂ := decayDue_nonneg hrate env₁.sequence env₂.sequence
  have hextra := lostRate_nonneg hrate record.lastUpdated env₁.sequence env₂.sequence
  have hle : stored.lastUpdated.val ≤ env₂.sequence.val := by
    rw [hlast]
    exact h₂
  have hsame : getDecayConfig s' = getDecayConfig s := by rw [getDecayConfig, hconfig]; rfl
  have hmax₂ : decayDue (getDecayConfig s') stored.lastUpdated env₂.sequence < 2 ^ 127 := by
    rw [hsame, hlast]
    omega
  obtain ⟨second, hsecond⟩ := decayed_of_due (hsame ▸ hrate) (hsame ▸ hinterval) hle hmax₂
  have hscore₂ := (decayed_by_due (hsame ▸ hrate) (hsame ▸ hinterval) hle hsecond).1
  rw [hsame, hlast, hcut, hscore₁] at hscore₂
  refine ⟨second.score, (getReputation_eq_ok hstored).mpr ⟨second, hsecond, rfl⟩, ?_⟩
  rw [BoundedInt.ext_iff, hscore₂, hscore, hsplit, KeptByUpdate, ← lostRate_eq_zero_iff hrate]
  have hzero : (0 : I128).val = 0 := rfl
  omega

/-- For every record, negative rate and positive interval, and ledgers in order: decay at
the first ledger and at the second, through the helper or through `apply_decay` and a
read, leaves the same score as decay at the second alone exactly when nothing is lost, and
after an update by 0 the same is read exactly when the update keeps it. -/
theorem decay_path_independent_iff (hget : getReputationRecord s user = some record)
    (hrate : (getDecayConfig s).decayRate.val < 0)
    (hinterval : 0 < (getDecayConfig s).decayInterval.val)
    (h₁ : record.lastUpdated.val ≤ env₁.sequence.val)
    (h₂ : env₁.sequence.val ≤ env₂.sequence.val) (hread : getReputation env₂ s user = .ok once) :
    (∃ first second, applyDecayIfNeeded s record env₁.sequence = .ok first ∧
      applyDecayIfNeeded s first env₂.sequence = .ok second ∧
      (second.score = once ↔ LosesNothing (getDecayConfig s) record.score record.lastUpdated
        env₁.sequence env₂.sequence)) ∧
    (∀ admin s', applyDecay env₁ s admin user = .ok s' →
      ∃ later, getReputation env₂ s' user = .ok later ∧
        (later = once ↔ LosesNothing (getDecayConfig s) record.score record.lastUpdated
          env₁.sequence env₂.sequence)) ∧
    (∀ admin reason courseId s', updateReputation env₁ s admin user 0 reason courseId = .ok s' →
      ∃ later, getReputation env₂ s' user = .ok later ∧
        (later = once ↔ KeptByUpdate (getDecayConfig s) record.score record.lastUpdated
          env₁.sequence env₂.sequence)) := by
  refine ⟨?_, fun admin s' h => ?_, fun admin reason courseId s' h => ?_⟩
  · obtain ⟨decayed, hdecayed, rfl⟩ := (getReputation_eq_ok hget).mp hread
    exact decayed_twice_iff hrate hinterval h₁ h₂ hdecayed
  · exact read_after_decay_iff hget hrate hinterval h₁ h₂ hread h
  · exact read_after_update_iff hget hrate hinterval h₁ h₂ hread h

end Paths

end Decay

/-- An update of contract 5 by 0. -/
def exampleTouchAt (sequence : U32) : Env Nat × Call Nat :=
  (exampleEnv sequence [1], .updateReputation 1 5 0 "touch" none)

/-- Of 150 at ledger 0, three intervals of 1000 leave 147; with a decay, or an update by 0,
at ledger 1500 in between 148 are left. -/
theorem decay_depends_on_path :
    (getReputation (exampleEnv (.lit 3000) []) (after exec exampleReputation
      [exampleScore]) 5).map (·.val) = .ok 147 ∧
    (getReputation (exampleEnv (.lit 3000) []) (after exec exampleReputation
      [exampleDecayAt (.lit 1500), exampleScore]) 5).map (·.val) = .ok 148 ∧
    (getReputation (exampleEnv (.lit 3000) []) (after exec exampleReputation
      [exampleTouchAt (.lit 1500), exampleScore]) 5).map (·.val) = .ok 148 := by
  refine ⟨by decide +kernel, by decide +kernel, by decide +kernel⟩

/-- With the decay in between at ledger 1000 nothing is lost. -/
theorem decay_path_independent_iff_whole :
    ∃ first second, applyDecayIfNeeded (after exec exampleReputation [exampleScore])
        ⟨5, .lit 150, .lit 2, 0, .lit 1⟩ (.lit 1000) = .ok first ∧
      applyDecayIfNeeded (after exec exampleReputation [exampleScore]) first (.lit 3000) =
        .ok second ∧
      second.score = .lit 147 := by
  have hgain : getReputationRecord (after exec exampleReputation [exampleScore]) 5 =
      some ⟨5, .lit 150, .lit 2, 0, .lit 1⟩ := by decide +kernel
  have hread : getReputation (exampleEnv (.lit 3000) []) (after exec exampleReputation
      [exampleScore]) 5 = .ok (.lit 147) := by decide +kernel
  have h₁ : (0 : U32).val ≤ (exampleEnv (.lit 1000) []).sequence.val := by decide
  have h₂ : (exampleEnv (.lit 1000) []).sequence.val ≤
      (exampleEnv (.lit 3000) []).sequence.val := by decide
  obtain ⟨first, second, hfirst, hsecond, hiff⟩ := (decay_path_independent_iff hgain
    (by decide +kernel) (by decide +kernel) h₁ h₂ hread).1
  exact ⟨first, second, hfirst, hsecond, hiff.mpr (.inr (.inr (.inl (by decide +kernel))))⟩

end Scoopdope.Reputation

import Scoopdope.Reputation.Contract
import Scoopdope.Soroban.History

/-!
# Reputation: scores and levels

`update_reputation` cuts a score off at 0 and computes its level anew. The other two
users of `apply_decay_if_needed` do neither: `apply_decay` stores the decayed score under
the old level, and `get_reputation` returns it. The subtraction saturates at the least
`i128`, not at 0, so a decay that is larger than the score leaves it negative.

`scores_sound_iff`: along a run the stored scores are not negative and the levels are
theirs, and a read returns no negative score, exactly when no accepted `apply_decay` takes
more than the score or moves it to another level (`KeepsLevel`), and the read does not
take more than the score either.
-/

namespace Scoopdope.Reputation

open Soroban

variable {Address : Type} [DecidableEq Address]

/-- The points that the decay due at ledger `now` takes off. -/
def decayDue (config : DecayConfig) (lastUpdated now : U32) : Int :=
  if config.enabled = true ∧ config.decayInterval ≤ now.saturatingSub lastUpdated then
    -config.decayRate.val *
      (now.saturatingSub lastUpdated).val.tdiv config.decayInterval.val
  else 0

/-- The score is not negative, and the stored level is its level. -/
def RecordSound (record : ReputationRecord Address) : Prop :=
  0 ≤ record.score.val ∧ calculateLevel record.score = .ok record.level

/-- All stored records are sound. -/
def RecordsSound (s : Storage Address) : Prop :=
  ∀ user record, getReputationRecord s user = some record → RecordSound record

/-- What an `apply_decay` takes off is no more than the score, and what it leaves has the
level of the score. -/
def KeepsLevel (s : Storage Address) (i : Env Address × Call Address) : Prop :=
  ∀ admin user record, i.2 = .applyDecay admin user →
    getReputationRecord s user = some record →
    ∃ score : I128,
      score.val =
        record.score.val - decayDue (getDecayConfig s) record.lastUpdated i.1.sequence ∧
      0 ≤ score.val ∧ calculateLevel score = calculateLevel record.score

section Steps

variable {s s' : Storage Address} {env : Env Address} {user : Address}
  {record decayed : ReputationRecord Address}

omit [DecidableEq Address] in
/-- A decay that is not due leaves the record. -/
theorem applyDecayIfNeeded_early {now : U32}
    (h : ¬ ((getDecayConfig s).enabled = true ∧
      (getDecayConfig s).decayInterval ≤ now.saturatingSub record.lastUpdated)) :
    applyDecayIfNeeded s record now = .ok record := by
  unfold applyDecayIfNeeded
  dsimp only
  split
  · rfl
  · next hon => exact if_neg fun hdue => h ⟨by simpa using hon, hdue⟩

omit [DecidableEq Address] in
/-- One that is due divides by the interval, negates the rate and multiplies by it; the
subtraction saturates. -/
theorem applyDecayIfNeeded_due {now : U32}
    (h : (getDecayConfig s).enabled = true ∧
      (getDecayConfig s).decayInterval ≤ now.saturatingSub record.lastUpdated) :
    applyDecayIfNeeded s record now = .ok decayed ↔
      (getDecayConfig s).decayInterval.val ≠ 0 ∧ (getDecayConfig s).decayRate.val ≠ -2 ^ 127 ∧
      ∃ decayAmount : I128,
        decayAmount.val = decayDue (getDecayConfig s) record.lastUpdated now ∧
        decayed = { record with
          score := record.score.saturatingSub decayAmount, lastUpdated := now } := by
  have hlo := (getDecayConfig s).decayRate.lo_le
  have hhi := (getDecayConfig s).decayRate.le_hi
  have helapsed := (now.saturatingSub record.lastUpdated).lo_le
  have hquot := Int.tdiv_nonneg helapsed (getDecayConfig s).decayInterval.lo_le
  have hle := (Int.tdiv_le_self (getDecayConfig s).decayInterval.val helapsed).trans
    (now.saturatingSub record.lastUpdated).le_hi
  unfold applyDecayIfNeeded
  rw [decayDue, if_pos h]
  dsimp only
  rw [if_neg (by rw [h.1]; decide), if_pos h.2]
  simp only [bind_eq_ok, BoundedInt.div_eq_ok, BoundedInt.neg_eq_ok, BoundedInt.mul_eq_ok,
    pure_eq_ok, BoundedInt.u32AsI128_val]
  constructor
  · rintro ⟨periods, ⟨hinterval, hperiods⟩, rate, hrate, amount, hamount, rfl⟩
    have hrate' := rate.le_hi
    rw [hperiods, hrate] at hamount
    exact ⟨hinterval, by omega, amount, hamount, rfl⟩
  · rintro ⟨hinterval, hrate, amount, hamount, rfl⟩
    exact ⟨⟨_, hquot, hle⟩, ⟨hinterval, rfl⟩, ⟨_, by omega, by omega⟩, rfl, amount, hamount, rfl⟩

omit [DecidableEq Address] in
/-- The decayed score, which saturates at the bounds of `i128`. -/
theorem applyDecayIfNeeded_ok {now : U32} (h : applyDecayIfNeeded s record now = .ok decayed) :
    decayed.level = record.level ∧
      decayDue (getDecayConfig s) record.lastUpdated now < 2 ^ 127 ∧
      decayed.score.val = max (-2 ^ 127) (min (2 ^ 127 - 1)
        (record.score.val - decayDue (getDecayConfig s) record.lastUpdated now)) := by
  by_cases hdue : (getDecayConfig s).enabled = true ∧
      (getDecayConfig s).decayInterval ≤ now.saturatingSub record.lastUpdated
  · obtain ⟨_, _, amount, hamount, rfl⟩ := (applyDecayIfNeeded_due hdue).mp h
    have hmax := amount.le_hi
    rw [← hamount]
    exact ⟨rfl, by omega, BoundedInt.saturatingSub_val _ _⟩
  · have hlo := record.score.lo_le
    have hhi := record.score.le_hi
    cases (applyDecayIfNeeded_early hdue).symm.trans h
    rw [decayDue, if_neg hdue]
    exact ⟨rfl, by omega, by omega⟩

omit [DecidableEq Address] in
/-- The last update moves when a decay is due. -/
theorem applyDecayIfNeeded_lastUpdated {now : U32}
    (h : applyDecayIfNeeded s record now = .ok decayed) :
    decayed.lastUpdated =
      if (getDecayConfig s).enabled = true ∧
        (getDecayConfig s).decayInterval ≤ now.saturatingSub record.lastUpdated then now
      else record.lastUpdated := by
  split
  · next hdue =>
    obtain ⟨_, _, amount, _, rfl⟩ := (applyDecayIfNeeded_due hdue).mp h
    rfl
  · next hearly =>
    cases (applyDecayIfNeeded_early hearly).symm.trans h
    rfl

omit [DecidableEq Address] in
/-- A decay that takes something off, and no more than fits, is computed. -/
theorem applyDecayIfNeeded_succeeds {now : U32}
    (hpos : 0 < decayDue (getDecayConfig s) record.lastUpdated now)
    (hmax : decayDue (getDecayConfig s) record.lastUpdated now < 2 ^ 127) :
    ∃ decayed, applyDecayIfNeeded s record now = .ok decayed := by
  by_cases hdue : (getDecayConfig s).enabled = true ∧
      (getDecayConfig s).decayInterval ≤ now.saturatingSub record.lastUpdated
  · have hfits := hmax
    rw [decayDue, if_pos hdue] at hfits
    have hproduct := hpos
    rw [decayDue, if_pos hdue] at hproduct
    have hinterval : (getDecayConfig s).decayInterval.val ≠ 0 := by
      intro hzero
      rw [hzero, Int.tdiv_zero, Int.mul_zero] at hproduct
      exact absurd hproduct (lt_irrefl 0)
    have hquot : 0 ≤ (now.saturatingSub record.lastUpdated).val.tdiv
        (getDecayConfig s).decayInterval.val :=
      Int.tdiv_nonneg (now.saturatingSub record.lastUpdated).lo_le
        (getDecayConfig s).decayInterval.lo_le
    -- The least rate would come to 2^127 at least.
    have hrate : (getDecayConfig s).decayRate.val ≠ -2 ^ 127 := by
      intro hleast
      rw [hleast] at hproduct hfits
      omega
    have hlo : -2 ^ 127 ≤ decayDue (getDecayConfig s) record.lastUpdated now :=
      le_trans (by decide) hpos.le
    exact ⟨_, (applyDecayIfNeeded_due hdue).mpr ⟨hinterval, hrate,
      ⟨_, hlo, Int.le_of_lt_add_one hmax⟩, rfl, rfl⟩⟩
  · exact ⟨record, applyDecayIfNeeded_early hdue⟩

/-- The greatest score has no level: the cast of its root saturates, and adding 1 to it
overflows. -/
theorem calculateLevel_greatest {score : I128} (h : score.val = 2 ^ 127 - 1) (level : U8) :
    calculateLevel score ≠ .ok level := by
  have hscore : score = .lit 170141183460469231731687303715884105727 := BoundedInt.ext h
  have hlevel : (calculateLevel (.lit 170141183460469231731687303715884105727)).isOk = false := by
    decide +kernel
  intro hok
  rw [← hscore, hok] at hlevel
  cases hlevel

omit [DecidableEq Address] in
/-- A decayed record is sound exactly when the decay stays within the score and the level. -/
theorem recordSound_decayed_iff {now : U32} (hsound : RecordSound record)
    (h : applyDecayIfNeeded s record now = .ok decayed) :
    RecordSound decayed ↔
      ∃ score : I128,
        score.val = record.score.val - decayDue (getDecayConfig s) record.lastUpdated now ∧
        0 ≤ score.val ∧ calculateLevel score = calculateLevel record.score := by
  obtain ⟨hlevel, _, hscore⟩ := applyDecayIfNeeded_ok h
  rw [RecordSound, hlevel, ← hsound.2]
  constructor
  · rintro ⟨hpos, hsame⟩
    refine ⟨decayed.score, ?_, hpos, hsame⟩
    have hbelow : decayed.score.val ≠ 2 ^ 127 - 1 := fun he =>
      calculateLevel_greatest he record.level (hsame.trans hsound.2)
    omega
  · rintro ⟨score, heq, hpos, hsame⟩
    have hhi := score.le_hi
    have hdecayed : decayed.score = score := BoundedInt.ext (by omega)
    rw [hdecayed]
    exact ⟨hpos, hsame⟩

theorem RecordsSound.of_eq (hs : RecordsSound s) (h : s'.reputation = s.reputation) :
    RecordsSound s' := by
  intro user record hget
  rw [getReputationRecord, h] at hget
  exact hs user record hget

theorem RecordsSound.set_iff (hs : RecordsSound s)
    (h : s'.reputation = s.reputation.set user record) : RecordsSound s' ↔ RecordSound record := by
  constructor
  · intro hs'
    refine hs' user record ?_
    rw [getReputationRecord, h, Table.get_set_self]
  · intro hrecord user' record' hget
    rw [getReputationRecord, h, Table.get_set] at hget
    split at hget
    · cases hget
      exact hrecord
    · exact hs user' record' hget

/-- An update makes the record of its user sound, whatever it was. -/
theorem RecordsSound.updateReputation (hs : RecordsSound s) {admin : Address}
    {scoreChange : I128} {reason : String} {courseId : Option U64}
    (h : updateReputation env s admin user scoreChange reason courseId = .ok s') :
    RecordsSound s' := by
  obtain ⟨_, record, _, hscore, hlevel, _, _, _, hreputation, _⟩ := updateReputation_ok h
  exact (hs.set_iff hreputation).mpr ⟨by omega, hlevel⟩

theorem RecordsSound.applyDecay_iff (hs : RecordsSound s) {admin : Address}
    (h : applyDecay env s admin user = .ok s') :
    RecordsSound s' ↔ KeepsLevel s (env, .applyDecay admin user) := by
  obtain ⟨old, decayed, hold, hdecayed, hcases⟩ := applyDecay_ok h
  have hsound := hs user old hold
  have hstored : RecordsSound s' ↔ RecordSound decayed := by
    rcases hcases with ⟨hsame, rfl⟩ | ⟨_, _, hreputation, _⟩
    · refine iff_of_true hs ?_
      rw [RecordSound, ← hsame, (applyDecayIfNeeded_ok hdecayed).1]
      exact hsound
    · exact hs.set_iff hreputation
  rw [hstored, recordSound_decayed_iff hsound hdecayed]
  constructor
  · rintro hscore _ _ record hcall hget
    cases hcall
    cases hold.symm.trans hget
    exact hscore
  · intro hkeeps
    exact hkeeps admin user old rfl hold

/-- One accepted call. -/
theorem RecordsSound.step_iff (hs : RecordsSound s) {i : Env Address × Call Address}
    (h : exec s i = .ok s') : RecordsSound s' ↔ KeepsLevel s i := by
  obtain ⟨env, call⟩ := i
  have hother (hcall : ∀ admin user, call ≠ .applyDecay admin user) :
      KeepsLevel s (env, call) :=
    fun admin user _ heq => absurd heq (hcall admin user)
  cases call with
  | initializeContract admin =>
    exact iff_of_true (hs.of_eq (initializeContract_ok h).2.2.1) (hother nofun)
  | updateReputation admin user scoreChange reason courseId =>
    exact iff_of_true (hs.updateReputation h) (hother nofun)
  | applyDecay admin user => exact hs.applyDecay_iff h
  | setDecayConfig admin enabled decayRate decayInterval =>
    obtain ⟨_, _, rfl⟩ := setDecayConfig_ok.mp h
    exact iff_of_true (hs.of_eq rfl) (hother nofun)
  | claimReputationReward user =>
    obtain ⟨events, rfl⟩ := claimReputationReward_ok h
    exact iff_of_true (hs.of_eq rfl) (hother nofun)

end Steps

/-! ## Runs -/

section Runs

variable {admin : Address} {s₀ : Storage Address}

theorem Initialised.recordsSound (h : Initialised admin s₀) : RecordsSound s₀ := by
  obtain ⟨env, h⟩ := h
  intro user record hget
  rw [getReputationRecord, (initializeContract_ok h).2.2.1] at hget
  cases hget

/-- What is read is not negative exactly when the decay due is within the score, or is too
large to be computed. -/
theorem getReputation_nonneg_iff {s : Storage Address} {env : Env Address} {user : Address}
    (hs : RecordsSound s) :
    (∀ score, getReputation env s user = .ok score → 0 ≤ score.val) ↔
      ∀ record, getReputationRecord s user = some record →
        decayDue (getDecayConfig s) record.lastUpdated env.sequence ≤ record.score.val ∨
        2 ^ 127 ≤ decayDue (getDecayConfig s) record.lastUpdated env.sequence := by
  cases hget : getReputationRecord s user with
  | none =>
    rw [getReputation_none hget]
    refine iff_of_true (fun score hscore => ?_) fun record hrecord => ?_
    · cases hscore
      exact le_refl 0
    · cases hrecord
  | some record =>
    have hpos := (hs user record hget).1
    simp only [getReputation_eq_ok hget, Option.some.injEq, forall_eq']
    constructor
    · intro hnonneg
      by_contra hdue
      obtain ⟨hmore, hfits⟩ := not_or.mp hdue
      obtain ⟨decayed, hdecayed⟩ :=
        applyDecayIfNeeded_succeeds (hpos.trans_lt (not_le.mp hmore)) (not_le.mp hfits)
      have hscore := (applyDecayIfNeeded_ok hdecayed).2.2
      have hread := hnonneg decayed.score ⟨decayed, hdecayed, rfl⟩
      omega
    · rintro hdue _ ⟨decayed, hdecayed, rfl⟩
      obtain ⟨_, hbound, hscore⟩ := applyDecayIfNeeded_ok hdecayed
      rcases hdue with hwithin | hover
      · omega
      · exact absurd hover (not_le.mpr hbound)

/-- For every run and every read after it: the records stored along the run have scores
that are not negative and the levels of their scores, and the read returns no negative
score, exactly when every accepted `apply_decay` of the run keeps the level, and the decay
due at the read is within the score or too large to be computed. -/
theorem scores_sound_iff (h : Initialised admin s₀) (past : List (Env Address × Call Address))
    (env : Env Address) (user : Address) :
    (∀ earlier, earlier <:+ past → ∀ user record,
        getReputationRecord (after exec s₀ earlier) user = some record →
        0 ≤ record.score.val ∧ calculateLevel record.score = .ok record.level) ∧
      (∀ score, getReputation env (after exec s₀ past) user = .ok score → 0 ≤ score.val) ↔
    Guarded (fun earlier i => Accepted exec s₀ earlier i →
        KeepsLevel (after exec s₀ earlier) i) past ∧
      ∀ record, getReputationRecord (after exec s₀ past) user = some record →
        decayDue (getDecayConfig (after exec s₀ past)) record.lastUpdated env.sequence ≤
            record.score.val ∨
          2 ^ 127 ≤
            decayDue (getDecayConfig (after exec s₀ past)) record.lastUpdated env.sequence := by
  have hstored : (∀ earlier, earlier <:+ past → RecordsSound (after exec s₀ earlier)) ↔
      Guarded (fun earlier i => Accepted exec s₀ earlier i →
        KeepsLevel (after exec s₀ earlier) i) past := by
    refine throughout_iff_guarded (P := fun earlier => RecordsSound (after exec s₀ earlier))
      h.recordsSound past fun e i _ hs => ?_
    cases he : exec (after exec s₀ e) i with
    | ok s' =>
      rw [after, apply_ok he, hs.step_iff he]
      exact ⟨fun hkeeps _ => hkeeps, fun hkeeps => hkeeps ⟨s', he⟩⟩
    | error t =>
      rw [after, apply_error he]
      refine iff_of_true hs ?_
      rintro ⟨s', hs'⟩
      cases he.symm.trans hs'
  rw [← hstored]
  constructor
  · rintro ⟨hsound, hread⟩
    exact ⟨hsound, (getReputation_nonneg_iff (hsound past (List.suffix_refl _))).mp hread⟩
  · rintro ⟨hsound, hdue⟩
    exact ⟨hsound, (getReputation_nonneg_iff (hsound past (List.suffix_refl _))).mpr hdue⟩

/-- Contract 5 gets 150 at ledger 0, which is level 2. -/
def exampleScore : Env Nat × Call Nat :=
  (exampleEnv 0 [1], .updateReputation 1 5 (.lit 150) "review" none)

/-- `apply_decay` for contract 5. -/
def exampleDecayAt (sequence : U32) : Env Nat × Call Nat :=
  (exampleEnv sequence [1], .applyDecay 1 5)

/-- The decay of 50 intervals leaves it 100, on the same level. -/
theorem scores_sound_iff_kept :
    ∃ record, getReputationRecord (after exec exampleReputation
        [exampleDecayAt (.lit 50000), exampleScore]) 5 = some record ∧
      0 ≤ record.score.val ∧ calculateLevel record.score = .ok record.level := by
  have hgain : getReputationRecord (after exec exampleReputation [exampleScore]) 5 =
      some ⟨5, .lit 150, .lit 2, 0, .lit 1⟩ := by decide +kernel
  have hdecayed : getReputationRecord (after exec exampleReputation
      [exampleDecayAt (.lit 50000), exampleScore]) 5 =
      some ⟨5, .lit 100, .lit 2, .lit 50000, .lit 1⟩ := by decide +kernel
  refine ⟨_, hdecayed, ((scores_sound_iff exampleReputation_initialised
    [exampleDecayAt (.lit 50000), exampleScore] (exampleEnv (.lit 50000) []) 5).mpr
    ⟨⟨fun _ => ?_, fun _ => ?_, trivial⟩, ?_⟩).1 _ (List.suffix_refl _) 5 _ hdecayed⟩
  · intro admin user record hcall hget
    cases hcall
    cases hgain.symm.trans hget
    exact ⟨.lit 100, by decide +kernel, by decide, by decide +kernel⟩
  · intro admin user record hcall
    cases hcall
  · intro record hget
    cases hdecayed.symm.trans hget
    exact .inl (by decide +kernel)

/-- A decay of 151 intervals stores -1, which is also what is read then, and a decay of 51
leaves 99 with level 2, where level 1 is due. -/
theorem decay_unsound :
    (getReputation (exampleEnv (.lit 151000) []) (after exec exampleReputation
      [exampleScore]) 5).map (·.val) = .ok (-1) ∧
    (getReputationRecord (after exec exampleReputation
      [exampleDecayAt (.lit 151000), exampleScore]) 5).map (·.score.val) = some (-1) ∧
    (getReputationRecord (after exec exampleReputation
      [exampleDecayAt (.lit 51000), exampleScore]) 5).map (fun record =>
        (record.score.val, record.level.val)) = some (99, 2) ∧
    calculateLevel (.lit 99) = .ok (.lit 1) := by
  refine ⟨by decide +kernel, by decide +kernel, by decide +kernel, by decide +kernel⟩

end Runs

end Scoopdope.Reputation

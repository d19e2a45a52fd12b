import Scoopdope.Reputation.Contract
import Scoopdope.Soroban.History

/-!
# Reputation: the total

`apply_decay` adds to the total what it takes from a score. `update_reputation` adds the
requested change, while the score it stores is decayed first and cut off at 0
afterwards: the total keeps the scores' sum only where neither shows, or where both
cancel (`AsRequested`). So the total is the sum of the scores in every state of a run
exactly when all its updates are of this kind (`total_is_sum_iff`).
-/

namespace Scoopdope.Reputation

open Soroban

variable {Address : Type} [DecidableEq Address]

def scoreOf (record : ReputationRecord Address) : Int := record.score.val

/-- The scores of all users that have a record. -/
def scores (s : Storage Address) : Int := Table.total scoreOf s.reputation

/-- The total is the sum of the stored scores. -/
def TotalIsSum (s : Storage Address) : Prop := (getTotalReputation s).val = scores s

/-- An update changes the stored score by what it asks for: no decay is taken off and the
new score is not negative, or the change takes away the whole stored score and the decay
is cut off with it. -/
def AsRequested (s : Storage Address) (i : Env Address × Call Address) : Prop :=
  ∀ admin user scoreChange reason courseId decayed,
    i.2 = .updateReputation admin user scoreChange reason courseId →
    applyDecayIfNeeded s (recordOrNew i.1 s user) i.1.sequence = .ok decayed →
    (decayed.score = (recordOrNew i.1 s user).score ∧
        0 ≤ (recordOrNew i.1 s user).score.val + scoreChange.val) ∨
      (decayed.score < (recordOrNew i.1 s user).score ∧
        (recordOrNew i.1 s user).score.val + scoreChange.val = 0)

section Steps

variable {s s' : Storage Address} {env : Env Address}

/-- Other calls ask for no change. -/
theorem asRequested_of_other {i : Env Address × Call Address}
    (hother : ∀ admin user scoreChange reason courseId,
      i.2 ≠ .updateReputation admin user scoreChange reason courseId) : AsRequested s i :=
  fun admin user scoreChange reason courseId _ hcall =>
    absurd hcall (hother admin user scoreChange reason courseId)

/-- A user without a record counts as much as a new record does. -/
theorem share_recordOrNew (env : Env Address) (s : Storage Address) (user : Address) :
    Table.share scoreOf s.reputation user = (recordOrNew env s user).score.val := by
  unfold Table.share recordOrNew getReputationRecord
  cases s.reputation.get user with
  | none => rfl
  | some record => rfl

theorem scores_set {user : Address} {record : ReputationRecord Address}
    (h : s'.reputation = s.reputation.set user record) :
    scores s' = scores s - Table.share scoreOf s.reputation user + record.score.val := by
  rw [scores, h, Table.total_set]
  rfl

omit [DecidableEq Address] in
theorem TotalIsSum.of_eq (hs : TotalIsSum s) (hreputation : s'.reputation = s.reputation)
    (htotal : s'.totalReputation = s.totalReputation) : TotalIsSum s' := by
  unfold TotalIsSum scores getTotalReputation at *
  rw [hreputation, htotal]
  exact hs

/-- A decay keeps the total the sum of the scores. -/
theorem TotalIsSum.applyDecay (hs : TotalIsSum s) {admin user : Address}
    (h : applyDecay env s admin user = .ok s') : TotalIsSum s' := by
  obtain ⟨old, decayed, hold, _, ⟨_, rfl⟩ | ⟨_, _, hreputation, htotal⟩⟩ := applyDecay_ok h
  · exact hs
  · have hshare : Table.share scoreOf s.reputation user = old.score.val :=
      Table.share_of_get hold
    unfold TotalIsSum at hs ⊢
    rw [htotal, scores_set hreputation, hshare, hs]
    omega

/-- An update keeps it exactly when the score changes as requested. -/
theorem TotalIsSum.updateReputation_iff (hs : TotalIsSum s) {admin user : Address}
    {scoreChange : I128} {reason : String} {courseId : Option U64}
    (h : updateReputation env s admin user scoreChange reason courseId = .ok s') :
    TotalIsSum s' ↔
      AsRequested s (env, .updateReputation admin user scoreChange reason courseId) := by
  obtain ⟨decayed, record, hdecayed, hscore, _, _, _, _, hreputation, htotal⟩ :=
    updateReputation_ok h
  unfold TotalIsSum at hs ⊢
  rw [htotal, scores_set hreputation, share_recordOrNew env, hs, hscore]
  constructor
  · intro hsum admin' user' scoreChange' reason' courseId' decayed' hcall hdecayed'
    cases hcall
    cases hdecayed.symm.trans hdecayed'
    dsimp only
    rw [BoundedInt.ext_iff, BoundedInt.lt_def]
    rcases le_total 0 (decayed.score.val + scoreChange.val) with hpos | hneg
    · rw [max_eq_left hpos] at hsum
      exact .inl ⟨by omega, by omega⟩
    · rw [max_eq_right hneg] at hsum
      by_cases hsame : decayed.score.val = (recordOrNew env s user).score.val
      · exact .inl ⟨hsame, by omega⟩
      · exact .inr ⟨by omega, by omega⟩
  · intro hrequested
    have hchange := hrequested _ _ _ _ _ decayed rfl hdecayed
    dsimp only at hchange
    rcases hchange with ⟨hsame, hpos⟩ | ⟨hless, hzero⟩
    · rw [hsame, max_eq_left hpos]
      omega
    · have hless' := BoundedInt.lt_def.mp hless
      rw [max_eq_right (by omega)]
      omega

/-- One accepted call. -/
theorem TotalIsSum.step_iff (hs : TotalIsSum s) (hadmin : s.admin.isSome)
    {i : Env Address × Call Address} (h : exec s i = .ok s') :
    TotalIsSum s' ↔ AsRequested s i := by
  obtain ⟨env, call⟩ := i
  cases call with
  | initializeContract admin =>
    rw [(initializeContract_ok h).1] at hadmin
    cases hadmin
  | updateReputation admin user scoreChange reason courseId =>
    exact hs.updateReputation_iff h
  | applyDecay admin user =>
    exact iff_of_true (hs.applyDecay h) (asRequested_of_other fun _ _ _ _ _ => nofun)
  | setDecayConfig admin enabled decayRate decayInterval =>
    obtain ⟨_, _, rfl⟩ := setDecayConfig_ok.mp h
    exact iff_of_true (hs.of_eq rfl rfl) (asRequested_of_other fun _ _ _ _ _ => nofun)
  | claimReputationReward user =>
    obtain ⟨events, rfl⟩ := claimReputationReward_ok h
    exact iff_of_true (hs.of_eq rfl rfl) (asRequested_of_other fun _ _ _ _ _ => nofun)

theorem admin_kept (hadmin : s.admin.isSome) {i : Env Address × Call Address}
    (h : exec s i = .ok s') : s'.admin.isSome := by
  obtain ⟨env, call⟩ := i
  cases call with
  | initializeContract admin =>
    rw [(initializeContract_ok h).2.1]
    rfl
  | updateReputation admin user scoreChange reason courseId =>
    obtain ⟨_, _, _, _, _, _, hsame, _⟩ := updateReputation_ok h
    rw [hsame]
    exact hadmin
  | applyDecay admin user =>
    obtain ⟨_, _, _, _, ⟨_, rfl⟩ | ⟨hsame, _⟩⟩ := applyDecay_ok h
    · exact hadmin
    · rw [hsame]
      exact hadmin
  | setDecayConfig admin enabled decayRate decayInterval =>
    obtain ⟨_, _, rfl⟩ := setDecayConfig_ok.mp h
    exact hadmin
  | claimReputationReward user =>
    obtain ⟨events, rfl⟩ := claimReputationReward_ok h
    exact hadmin

end Steps

/-! ## Runs -/

section Runs

variable {admin : Address} {s₀ : Storage Address}

theorem Initialised.start (h : Initialised admin s₀) : s₀.admin.isSome ∧ TotalIsSum s₀ := by
  obtain ⟨env, h⟩ := h
  obtain ⟨_, hadmin, hreputation, htotal, _⟩ := initializeContract_ok h
  refine ⟨by rw [hadmin]; rfl, ?_⟩
  unfold TotalIsSum scores getTotalReputation
  rw [hreputation, htotal]
  rfl

/-- In every state of a run the total is the sum of the scores of the users that have a
record, exactly when every accepted update of the run changes the stored score by what it
asks for. -/
theorem total_is_sum_iff (h : Initialised admin s₀) (past : List (Env Address × Call Address)) :
    (∀ earlier, earlier <:+ past →
      (getTotalReputation (after exec s₀ earlier)).val =
        Table.total (fun record => record.score.val) (after exec s₀ earlier).reputation) ↔
      Guarded (fun earlier i => Accepted exec s₀ earlier i →
        AsRequested (after exec s₀ earlier) i) past := by
  refine throughout_iff_guarded (P := fun earlier => TotalIsSum (after exec s₀ earlier))
    h.start.2 past fun e i _ hs => ?_
  have hadmin : (after exec s₀ e).admin.isSome := by
    refine after_invariant (P := fun s : Storage Address => s.admin.isSome = true) h.start.1 ?_ e
    intro s i s' ha he
    exact admin_kept ha he
  cases he : exec (after exec s₀ e) i with
  | ok s' =>
    rw [after, apply_ok he, TotalIsSum.step_iff hs hadmin he]
    exact ⟨fun hr _ => hr, fun hr => hr ⟨s', he⟩⟩
  | error t =>
    rw [after, apply_error he]
    refine iff_of_true hs ?_
    rintro ⟨s', hs'⟩
    cases he.symm.trans hs'

/-- Contract 5 gets 100 at ledger 0. -/
def exampleGain : Env Nat × Call Nat :=
  (exampleEnv 0 [1], .updateReputation 1 5 (.lit 100) "review" none)

/-- The decay of five intervals is applied before the total is read. -/
theorem total_is_sum_iff_decayed :
    (getTotalReputation (after exec exampleReputation
        [(exampleEnv (.lit 5000) [1], .applyDecay 1 5), exampleGain])).val =
      Table.total (fun record => record.score.val) (after exec exampleReputation
        [(exampleEnv (.lit 5000) [1], .applyDecay 1 5), exampleGain]).reputation := by
  refine (total_is_sum_iff exampleReputation_initialised
    [(exampleEnv (.lit 5000) [1], .applyDecay 1 5), exampleGain]).mpr
    ⟨fun _ => asRequested_of_other fun _ _ _ _ _ => nofun, fun _ => ?_, trivial⟩ _
    (List.suffix_refl _)
  intro admin user scoreChange reason courseId decayed hcall hdecayed
  cases hcall
  have heval : applyDecayIfNeeded (after exec exampleReputation [])
      (recordOrNew exampleGain.1 (after exec exampleReputation []) 5) exampleGain.1.sequence =
      .ok (recordOrNew exampleGain.1 (after exec exampleReputation []) 5) := rfl
  cases heval.symm.trans hdecayed
  exact .inl ⟨rfl, by decide⟩

/-- An update at ledger 5000 stores 105 after a decay of 5 and makes the total 110; an
update by -50 of a user without a record stores 0 and makes the total -50. -/
theorem total_not_sum :
    (getTotalReputation (after exec exampleReputation
        [(exampleEnv (.lit 5000) [1], .updateReputation 1 5 (.lit 10) "review" none),
          exampleGain])).val = 110 ∧
    Table.total (fun record => record.score.val) (after exec exampleReputation
        [(exampleEnv (.lit 5000) [1], .updateReputation 1 5 (.lit 10) "review" none),
          exampleGain]).reputation = 105 ∧
    (getTotalReputation (after exec exampleReputation
        [(exampleEnv 0 [1], .updateReputation 1 6 (.lit (-50)) "review" none)])).val = -50 ∧
    Table.total (fun record => record.score.val) (after exec exampleReputation
        [(exampleEnv 0 [1], .updateReputation 1 6 (.lit (-50)) "review" none)]).reputation = 0 :=
  ⟨by decide +kernel, by decide +kernel, by decide +kernel, by decide +kernel⟩

end Runs

end Scoopdope.Reputation

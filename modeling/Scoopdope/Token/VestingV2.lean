import Scoopdope.Soroban.History
import Scoopdope.Soroban.Table
import Scoopdope.Token.Supply
import Scoopdope.Token.VestedAmount

/-!
# Token: vesting schedules, version 2

A beneficiary has many schedules, numbered from 0. Their `end_ledger` can be
moved back and forth between claims, so the vested amount may fall below what
was claimed; a claim then fails, and nothing is given back. `Advance` says what
one call can do to a schedule, and the accounting of whole runs follows from it.
-/

namespace Scoopdope.Token

open Soroban

variable {Address : Type} [DecidableEq Address]

/-! ## Reading -/

def getVestingV2 (s : Storage Address) (beneficiary : Address) (scheduleId : U32) :
    Option (VestingScheduleV2 Address) :=
  s.vestingV2.get (beneficiary, scheduleId)

def getVestingScheduleCount (s : Storage Address) (beneficiary : Address) : U32 :=
  (s.vestingScheduleCount.get beneficiary).getD 0

/-! ## The stored schedules -/

/-- The figures of one schedule. -/
structure ScheduleSound (schedule : VestingScheduleV2 Address) : Prop where
  cliff_lt : schedule.cliffLedger.val < schedule.endLedger.val
  nonneg : 0 ≤ schedule.claimed.val
  le_total : schedule.claimed.val ≤ schedule.totalAmount.val

/-- The ids in use are those below the count, and each schedule is sound. -/
structure SchedulesSound (s : Storage Address) : Prop where
  ids : ∀ beneficiary,
    Numbered (getVestingV2 s beneficiary) (getVestingScheduleCount s beneficiary)
  sound : ∀ key schedule, s.vestingV2.get key = some schedule → ScheduleSound schedule

/-- What one call that pays `paid` can make of the schedule under an id: create
it, with nothing claimed, or raise its claimed amount by what it pays. -/
abbrev ScheduleAdvance :
    Option (VestingScheduleV2 Address) → Option (VestingScheduleV2 Address) → Int → Prop :=
  Advance VestingScheduleV2.totalAmount fun schedule => schedule.claimed.val

section Tables

variable {s s' : Storage Address}

theorem SchedulesSound.congr (h : SchedulesSound s) (hv : s'.vestingV2 = s.vestingV2)
    (hc : s'.vestingScheduleCount = s.vestingScheduleCount) : SchedulesSound s' := by
  refine ⟨fun beneficiary => ?_, fun key schedule => ?_⟩
  · rw [getVestingScheduleCount, hc, funext fun id => (show getVestingV2 s' beneficiary id =
      getVestingV2 s beneficiary id by rw [getVestingV2, hv, getVestingV2])]
    exact h.ids beneficiary
  · rw [hv]
    exact h.sound key schedule

/-- The schedules of everybody after one of them is written. -/
theorem getVestingV2_set {beneficiary : Address} {k : U32} {schedule : VestingScheduleV2 Address}
    (hv : s'.vestingV2 = s.vestingV2.set (beneficiary, k) schedule) (beneficiary' : Address) :
    getVestingV2 s' beneficiary' =
      if beneficiary' = beneficiary then
        fun id => if id = k then some schedule else getVestingV2 s beneficiary' id
      else getVestingV2 s beneficiary' := by
  funext id
  rw [getVestingV2, hv, Table.get_set]
  split
  · next heq =>
    cases heq
    rw [if_pos rfl, if_pos rfl]
  · next hne =>
    split
    · next hb =>
      subst hb
      have hid : id ≠ k := fun he => hne (by rw [he])
      exact (if_neg hid).symm
    · rfl

/-- A stored schedule is replaced. -/
theorem SchedulesSound.replace {beneficiary : Address} {id : U32}
    {schedule schedule' : VestingScheduleV2 Address} (h : SchedulesSound s)
    (hget : getVestingV2 s beneficiary id = some schedule) (hs : ScheduleSound schedule')
    (hv : s'.vestingV2 = s.vestingV2.set (beneficiary, id) schedule')
    (hc : s'.vestingScheduleCount = s.vestingScheduleCount) : SchedulesSound s' := by
  refine ⟨fun beneficiary' => ?_, ?_⟩
  · rw [getVestingV2_set hv, getVestingScheduleCount, hc]
    split
    · next hb =>
      subst hb
      exact (h.ids beneficiary').replace hget schedule'
    · exact h.ids beneficiary'
  · rw [hv]
    exact Table.forall_set h.sound hs

/-- A schedule is added under the next id. -/
theorem SchedulesSound.add {beneficiary : Address} {nextId : U32}
    {schedule : VestingScheduleV2 Address} (h : SchedulesSound s) (hs : ScheduleSound schedule)
    (hnext : nextId.val = (getVestingScheduleCount s beneficiary).val + 1)
    (hv : s'.vestingV2 =
      s.vestingV2.set (beneficiary, getVestingScheduleCount s beneficiary) schedule)
    (hc : s'.vestingScheduleCount = s.vestingScheduleCount.set beneficiary nextId) :
    SchedulesSound s' := by
  refine ⟨fun beneficiary' => ?_, ?_⟩
  · rw [getVestingV2_set hv]
    show Numbered _ ((s'.vestingScheduleCount.get beneficiary').getD 0)
    rw [hc]
    split
    · next hb =>
      subst hb
      rw [Table.get_set_self]
      exact (h.ids beneficiary').add hnext schedule
    · next hb =>
      rw [Table.get_set_ne hb]
      exact h.ids beneficiary'
  · rw [hv]
    exact Table.forall_set h.sound hs

end Tables

/-! ## One call -/

variable [Airdrop.XdrBytes Address]

/-- What a call mints as a claim on the schedule. -/
def mintedByClaimV2 (beneficiary : Address) (scheduleId : U32) (s : Storage Address)
    (i : Env Address × Call Address) : Int :=
  match i.2 with
  | .claimVestingV2 beneficiary' scheduleId' =>
    if beneficiary' = beneficiary ∧ scheduleId' = scheduleId then minted s i else 0
  | _ => 0

section Steps

variable {s s' : Storage Address} {i : Env Address × Call Address}

/-- An accepted claim pays a positive amount out of what is left of the schedule. -/
theorem claimVestingV2_pays {env : Env Address} {beneficiary : Address} {scheduleId : U32}
    (hs : SchedulesSound s) (h : claimVestingV2 env s beneficiary scheduleId = .ok s') :
    ∃ schedule vested claimed : _, ∃ claimable : Int,
      getVestingV2 s beneficiary scheduleId = some schedule ∧
      vestedAmountV2 schedule env.sequence = .ok vested ∧
      claimed.val = schedule.claimed.val + claimable ∧ claimed.val = vested.val ∧ 0 < claimable ∧
      ScheduleSound { schedule with claimed } ∧
      s'.vestingV2 = s.vestingV2.set (beneficiary, scheduleId) { schedule with claimed } ∧
      s'.vestingScheduleCount = s.vestingScheduleCount ∧
      minted s (env, .claimVestingV2 beneficiary scheduleId) = claimable := by
  have he : exec s (env, .claimVestingV2 beneficiary scheduleId) = .ok s' := h
  obtain ⟨_, schedule, vested, claimable, claimed, hget, hvested, hclaimable, hpos, hclaimed,
    v, w, hcredit, rfl⟩ := claimVestingV2_ok h
  have hsound := hs.sound _ _ hget
  have htotal := hsound.nonneg.trans hsound.le_total
  have hle := vestedAmountV2_le htotal hvested
  have hnonneg := hsound.nonneg
  refine ⟨schedule, vested, claimed, claimable.val, hget, hvested, hclaimed, by omega, hpos,
    ⟨hsound.cliff_lt, ?_, ?_⟩, rfl, rfl, ?_⟩
  · show 0 ≤ claimed.val
    omega
  · show claimed.val ≤ schedule.totalAmount.val
    omega
  · rw [minted, apply_ok he]
    show w.val - (totalSupply s).val = claimable.val
    rw [hcredit.supply_eq]
    omega

/-- Every accepted call keeps the schedules sound. -/
theorem SchedulesSound.step (hs : SchedulesSound s) (h : exec s i = .ok s') :
    SchedulesSound s' := by
  have hframe := (exec_frame h).vestingV2
  obtain ⟨env, call⟩ := i
  cases call with
  | createVestingV2 admin beneficiary totalAmount cliffLedger endLedger vestingType stepCount =>
    obtain ⟨scheduleId, hc⟩ := map_snd_eq_ok.mp h
    obtain ⟨_, _, hpos, _, _, hend, rfl, nextId, hnext, rfl⟩ := createVestingV2_ok hc
    exact hs.add ⟨hend, le_refl 0, hpos.le⟩ hnext rfl rfl
  | claimVestingV2 beneficiary scheduleId =>
    obtain ⟨schedule, vested, claimed, claimable, hget, _, _, _, _, hsound, hv, hc, _⟩ :=
      claimVestingV2_pays hs h
    exact hs.replace hget hsound hv hc
  | modifyVestingV2 admin beneficiary scheduleId newEndLedger =>
    obtain ⟨_, _, schedule, hget, hcliff, rfl⟩ := modifyVestingV2_ok h
    have hsound := hs.sound _ _ hget
    have hsound' : ScheduleSound { schedule with endLedger := newEndLedger } :=
      ⟨hcliff, hsound.nonneg, hsound.le_total⟩
    exact hs.replace hget hsound' rfl rfl
  | _ =>
    obtain ⟨hv, hc⟩ := hframe Part.noConfusion
    exact hs.congr hv hc

/-- What every accepted call does to every schedule. -/
theorem exec_advance (hs : SchedulesSound s) (h : exec s i = .ok s') (beneficiary : Address)
    (scheduleId : U32) :
    ScheduleAdvance (getVestingV2 s beneficiary scheduleId) (getVestingV2 s' beneficiary scheduleId)
      (mintedByClaimV2 beneficiary scheduleId s i) := by
  have hframe := (exec_frame h).vestingV2
  obtain ⟨env, call⟩ := i
  cases call with
  | createVestingV2 admin beneficiary' totalAmount cliffLedger endLedger vestingType stepCount =>
    obtain ⟨id, hc⟩ := map_snd_eq_ok.mp h
    obtain ⟨_, _, _, _, _, _, rfl, nextId, _, rfl⟩ := createVestingV2_ok hc
    have hnone := (hs.ids beneficiary').fresh
    show ScheduleAdvance _ (Table.get _ _) 0
    rw [Table.get_set]
    split
    · next heq =>
      cases heq
      rw [getVestingScheduleCount] at hnone
      rw [hnone]
      exact .created _ rfl
    · exact .refl _
  | claimVestingV2 beneficiary' id =>
    obtain ⟨schedule, vested, claimed, claimable, hget, _, hclaimed, _, hpos, _, hv, _, hm⟩ :=
      claimVestingV2_pays hs h
    show ScheduleAdvance _ _ (if beneficiary' = beneficiary ∧ id = scheduleId then _ else 0)
    rw [getVestingV2, getVestingV2, hv, Table.get_set]
    by_cases heq : beneficiary' = beneficiary ∧ id = scheduleId
    · obtain ⟨rfl, rfl⟩ := heq
      rw [if_pos rfl, if_pos ⟨rfl, rfl⟩, ← getVestingV2, hget, hm]
      exact .grown schedule _ claimable rfl hclaimed hpos.le
    · have hkey : (beneficiary, scheduleId) ≠ (beneficiary', id) :=
        fun he => heq ⟨(Prod.mk.inj he).1.symm, (Prod.mk.inj he).2.symm⟩
      rw [if_neg hkey, if_neg heq]
      exact .refl _
  | modifyVestingV2 admin beneficiary' id newEndLedger =>
    obtain ⟨_, _, schedule, hget, _, rfl⟩ := modifyVestingV2_ok h
    show ScheduleAdvance _ (Table.get _ _) 0
    rw [Table.get_set]
    split
    · next heq =>
      cases heq
      rw [getVestingV2, hget]
      exact .grown schedule _ 0 rfl (Int.add_zero _).symm (le_refl 0)
    · exact .refl _
  | _ =>
    obtain ⟨hv, _⟩ := hframe Part.noConfusion
    rw [getVestingV2, getVestingV2, hv]
    exact .refl _

end Steps

/-! ## Runs -/

section Runs

variable {admin : Address} {s₀ : Storage Address}

omit [Airdrop.XdrBytes Address] in
theorem Initialised.schedulesSound (h : Initialised admin s₀) : SchedulesSound s₀ := by
  obtain ⟨env, h⟩ := h
  obtain ⟨_, _, rfl⟩ := initializeContract_ok.mp h
  exact ⟨fun _ => numbered_empty, fun key schedule hget => absurd hget Table.get_empty_ne_some⟩

theorem schedulesSound_after (h : Initialised admin s₀)
    (past : List (Env Address × Call Address)) : SchedulesSound (after exec s₀ past) :=
  after_invariant h.schedulesSound (fun _ _ _ hs he => hs.step he) past

/-- The claimed amount is the sum of what the claims of the run minted. -/
theorem claimed_eq (h : Initialised admin s₀) (past : List (Env Address × Call Address))
    {beneficiary : Address} {scheduleId : U32} {schedule : VestingScheduleV2 Address}
    (hget : getVestingV2 (after exec s₀ past) beneficiary scheduleId = some schedule) :
    schedule.claimed.val = accumulated exec s₀ (mintedByClaimV2 beneficiary scheduleId) past := by
  have hstart : getVestingV2 s₀ beneficiary scheduleId = none := by
    obtain ⟨env, h⟩ := h
    obtain ⟨_, _, rfl⟩ := initializeContract_ok.mp h
    rfl
  have hrun := amount_after (fun s => getVestingV2 s beneficiary scheduleId) hstart
    (fun e i s' he => exec_advance (schedulesSound_after h e) he beneficiary scheduleId) past
  simp only [hget] at hrun
  exact hrun

/-- From any point of a run on, a schedule keeps its total, and its claimed amount
does not fall. -/
theorem schedule_kept (h : Initialised admin s₀) {earlier past : List (Env Address × Call Address)}
    (hsuf : earlier <:+ past) {beneficiary : Address} {scheduleId : U32}
    {schedule : VestingScheduleV2 Address}
    (hget : getVestingV2 (after exec s₀ earlier) beneficiary scheduleId = some schedule) :
    ∃ schedule', getVestingV2 (after exec s₀ past) beneficiary scheduleId = some schedule' ∧
      schedule'.totalAmount = schedule.totalAmount ∧
      schedule.claimed.val ≤ schedule'.claimed.val :=
  kept_after (fun s => getVestingV2 s beneficiary scheduleId)
    (fun e _ _ he => exec_advance (schedulesSound_after h e) he beneficiary scheduleId) hsuf hget

/-- A schedule whose total is claimed pays nothing more. -/
theorem claim_refused {s : Storage Address} (hs : SchedulesSound s) {beneficiary : Address}
    {scheduleId : U32} {schedule : VestingScheduleV2 Address}
    (hget : getVestingV2 s beneficiary scheduleId = some schedule)
    (hfull : schedule.claimed = schedule.totalAmount) (env : Env Address) (s' : Storage Address) :
    claimVestingV2 env s beneficiary scheduleId ≠ .ok s' := by
  intro h
  obtain ⟨schedule', vested, claimed, claimable, hget', _, hclaimed, _, hpos, hsound, _⟩ :=
    claimVestingV2_pays hs h
  rw [hget] at hget'
  cases hget'
  have hle : claimed.val ≤ schedule.totalAmount.val := hsound.le_total
  rw [hclaimed, hfull] at hle
  omega

/-- Once a claim succeeded at or after the end of its schedule, the whole total is
claimed and no later claim succeeds. -/
theorem paid_in_full (h : Initialised admin s₀) {earlier past : List (Env Address × Call Address)}
    {env : Env Address} {beneficiary : Address} {scheduleId : U32}
    {schedule : VestingScheduleV2 Address}
    (hsuf : (env, .claimVestingV2 beneficiary scheduleId) :: earlier <:+ past)
    (hacc : Accepted exec s₀ earlier (env, .claimVestingV2 beneficiary scheduleId))
    (hget : getVestingV2 (after exec s₀ earlier) beneficiary scheduleId = some schedule)
    (hend : schedule.endLedger.val ≤ env.sequence.val) :
    (∃ schedule', getVestingV2 (after exec s₀ past) beneficiary scheduleId = some schedule' ∧
      schedule'.claimed = schedule'.totalAmount) ∧
    ∀ env', ¬ Accepted exec s₀ past (env', .claimVestingV2 beneficiary scheduleId) := by
  obtain ⟨s', hs'⟩ := hacc
  have hsound := schedulesSound_after h earlier
  obtain ⟨schedule₀, vested, claimed, claimable, hget₀, hvested, _, hclaimed, _, _, hv, _⟩ :=
    claimVestingV2_pays hsound hs'
  rw [hget] at hget₀
  cases hget₀
  -- The claim itself brings the claimed amount up to the total.
  have hcliff := (hsound.sound _ _ hget).cliff_lt
  have htotal : claimed = schedule.totalAmount := by
    rw [← vestedAmountV2_end hcliff hend hvested]
    exact BoundedInt.ext hclaimed
  have hget₁ : getVestingV2
      (after exec s₀ ((env, .claimVestingV2 beneficiary scheduleId) :: earlier)) beneficiary
      scheduleId = some { schedule with claimed } := by
    rw [after, apply_ok hs', getVestingV2, hv, Table.get_set_self]
  -- From then on it can neither fall nor exceed it.
  obtain ⟨schedule₂, hget₂, htotal₂, hle₂⟩ := schedule_kept h hsuf hget₁
  have hsound₂ := schedulesSound_after h past
  have hfull : schedule₂.claimed = schedule₂.totalAmount := by
    have hle := (hsound₂.sound _ _ hget₂).le_total
    have hge : schedule.totalAmount.val ≤ schedule₂.claimed.val := by
      rw [← htotal]
      exact hle₂
    rw [htotal₂] at hle ⊢
    exact BoundedInt.ext (le_antisymm hle hge)
  refine ⟨⟨schedule₂, hget₂, hfull⟩, ?_⟩
  rintro env' ⟨s'', hs''⟩
  exact claim_refused hsound₂ hget₂ hfull env' s'' hs''

/-- The accounting of every run. The ids in use are those below the count; claimed
amounts stay between 0 and the total and are the sum of what was minted for them;
from any point on the total stays and the claimed amount does not fall; and after
a claim at or past the end everything is claimed and nothing more is paid. -/
theorem vestingV2_accounted (h : Initialised admin s₀)
    (past : List (Env Address × Call Address)) (beneficiary : Address) :
    (∀ id, (getVestingV2 (after exec s₀ past) beneficiary id).isSome ↔
      id.val < (getVestingScheduleCount (after exec s₀ past) beneficiary).val) ∧
    (∀ id schedule, getVestingV2 (after exec s₀ past) beneficiary id = some schedule →
      0 ≤ schedule.claimed.val ∧ schedule.claimed.val ≤ schedule.totalAmount.val ∧
      schedule.claimed.val = accumulated exec s₀ (mintedByClaimV2 beneficiary id) past) ∧
    (∀ id earlier schedule, earlier <:+ past →
      getVestingV2 (after exec s₀ earlier) beneficiary id = some schedule →
      ∃ schedule', getVestingV2 (after exec s₀ past) beneficiary id = some schedule' ∧
        schedule'.totalAmount = schedule.totalAmount ∧
        schedule.claimed.val ≤ schedule'.claimed.val) ∧
    (∀ id earlier env schedule, (env, .claimVestingV2 beneficiary id) :: earlier <:+ past →
      Accepted exec s₀ earlier (env, .claimVestingV2 beneficiary id) →
      getVestingV2 (after exec s₀ earlier) beneficiary id = some schedule →
      schedule.endLedger.val ≤ env.sequence.val →
      (∃ schedule', getVestingV2 (after exec s₀ past) beneficiary id = some schedule' ∧
        schedule'.claimed = schedule'.totalAmount) ∧
      ∀ env', ¬ Accepted exec s₀ past (env', .claimVestingV2 beneficiary id)) := by
  have hsound := schedulesSound_after h past
  refine ⟨hsound.ids beneficiary, ?_, ?_, ?_⟩
  · intro id schedule hget
    have hschedule := hsound.sound _ _ hget
    exact ⟨hschedule.nonneg, hschedule.le_total, claimed_eq h past hget⟩
  · intro id earlier schedule hsuf hget
    exact schedule_kept h hsuf hget
  · intro id earlier env schedule hsuf hacc hget hend
    exact paid_in_full h hsuf hacc hget hend

/-- A linear schedule of 1000 until ledger 100, claimed at ledger 50 and, after its
end was moved to 60, again at 70. -/
def exampleVestingRun : List (Env Nat × Call Nat) :=
  [(exampleEnv (.lit 70) [2], .claimVestingV2 2 0),
    (exampleEnv (.lit 60) [1], .modifyVestingV2 1 2 0 (.lit 60)),
    (exampleEnv (.lit 50) [2], .claimVestingV2 2 0),
    (exampleEnv 0 [1], .createVestingV2 1 2 (.lit 1000) 0 (.lit 100) (.lit 0) 0)]

theorem vestingV2_accounted_modified :
    ∃ schedule, getVestingV2 (after exec exampleToken exampleVestingRun) 2 0 = some schedule ∧
      schedule.claimed.val = 1000 := by
  obtain ⟨schedule, hget⟩ := Option.isSome_iff_exists.mp
    (show (getVestingV2 (after exec exampleToken exampleVestingRun) 2 0).isSome = true by
      decide +kernel)
  obtain ⟨_, _, hsum⟩ :=
    (vestingV2_accounted exampleToken_initialised exampleVestingRun 2).2.1 0 schedule hget
  exact ⟨schedule, hget, hsum.trans (by decide +kernel)⟩

end Runs

end Scoopdope.Token

import Scoopdope.Progress.Recording

/-!
# Progress: the referral reward

Runs of `record`. A call that records 100 percent counts the completed courses of its user and
rewards the referrer if it comes to one, whether the course was completed before or not.

`rewards_spec`: which calls reward the referrer. `reward_once_iff`: the referrer of a user is
rewarded at most once throughout a run exactly when no call, after one that has done so, records
100 percent again on the only course that its user has completed and comes to the reward.
-/

namespace Scoopdope.Progress

open Async Database Server Learning Soroban

/-- The branch at 100 percent up to the reward, with the number of completed courses. -/
def countCompleted (userId courseId stellarPublicKey : String) : Method Nat := do
  Bundles.updateProgress userId courseId
  let _ ← Credentials.issue userId courseId stellarPublicKey
  emit (.progressCompleted userId courseId stellarPublicKey courseId)
  let completed ← find .progress (.completedOf userId)
  pure completed.length

theorem complete_eq (userId courseId stellarPublicKey : String) :
    complete userId courseId stellarPublicKey =
      countCompleted userId courseId stellarPublicKey >>= fun completedCount =>
        if completedCount = 1 then rewardReferrer userId else pure () := by
  simp only [complete, countCompleted, Process.bind_assoc, Process.pure_eq, Process.ret_bind]

/-- What a process writes to the chain, newest first. -/
def added {A : Type} (p : Method A) (around : Surroundings) (s : State) :
    List (ChainCall × String) :=
  let chain := (p.run handle around s).2.chain
  chain.take (chain.length - s.chain.length)

/-- What a call writes to the chain to reward the referrer. -/
def rewards (s : State) (i : Surroundings × Call) : List (ChainCall × String) :=
  match (store i.2.userId i.2.dto i.2.stellarPublicKey).run handle i.1 s with
  | (.error _, _) => []
  | (.ok _, s₁) =>
    if 100 ≤ i.2.dto.progressPct then
      match (countCompleted i.2.userId i.2.dto.courseId i.2.stellarPublicKey).run handle i.1 s₁ with
      | (.error _, _) => []
      | (.ok completedCount, s₂) =>
        if completedCount = 1 then added (rewardReferrer i.2.userId) i.1 s₂ else []
    else []

/-- The rewards of the referrer of a user, newest first. -/
def payments (s₀ : State) (userId : String) :
    List (Surroundings × Call) → List (ChainCall × String)
  | [] => []
  | i :: past =>
    (if i.2.userId = userId then rewards (reached s₀ past) i else []) ++
      payments s₀ userId past

/-! ## The users -/

variable {around : Surroundings} {s s₁ s₂ : State} {userId courseId stellarPublicKey : String}

/-- The referrer of a user. -/
def referrer (s : State) (userId : String) : Option String :=
  Streaks.truthy ((s.users.get userId).bind fun user => user .referredBy)

/-- The key to which a reward of a user is minted. -/
def rewardKey (s : State) (userId : String) : Option String :=
  Streaks.truthy ((s.users.get userId).bind fun user => user .stellarPublicKey)

/-- Referrers and keys are the same. -/
structure SameReferrals (s s' : State) : Prop where
  referrer : ∀ userId, referrer s' userId = referrer s userId
  rewardKey : ∀ userId, rewardKey s' userId = rewardKey s userId

theorem sameReferrals_of_users {s' : State} (h : s'.users = s.users) : SameReferrals s s' where
  referrer _ := by rw [referrer, h, referrer]
  rewardKey _ := by rw [rewardKey, h, rewardKey]

theorem SameReferrals.trans {s' s'' : State} (h : SameReferrals s s') (h' : SameReferrals s' s'') :
    SameReferrals s s'' where
  referrer userId := (h'.referrer userId).trans (h.referrer userId)
  rewardKey userId := (h'.rewardKey userId).trans (h.rewardKey userId)

/-- The activity of a user changes neither. -/
theorem sameReferrals_visited {s' : State} {user : Users.User} {now : Int}
    (huser : s.users.get (user .id) = some user)
    (h : s'.users = s.users.save (Streaks.visited user now).1) : SameReferrals s s' := by
  obtain ⟨hid, hreferredBy, hkey⟩ := visited_kept user now
  have hget (userId : String) : s'.users.get userId =
      if userId = user .id then some (Streaks.visited user now).1 else s.users.get userId := by
    rw [h, Repository.get_save, hid]
  constructor
  · intro userId
    rw [referrer, hget, referrer]
    split
    · next hsame => rw [hsame, huser, Option.bind_some, Option.bind_some, hreferredBy]
    · rfl
  · intro userId
    rw [rewardKey, hget, rewardKey]
    split
    · next hsame => rw [hsame, huser, Option.bind_some, Option.bind_some, hkey]
    · rfl

theorem sameReferrals_recordActivity {saved : Users.User}
    (h : (Streaks.recordActivity userId).run handle around s = (.ok saved, s₁)) :
    SameReferrals s s₁ := by
  obtain ⟨user, hactive⟩ := recordActivity_ok.mp ⟨saved, s₁, h⟩
  obtain ⟨s', hrun, husers⟩ := recordActivity_of_active hactive
  cases h.symm.trans hrun
  have hget : s.users.get userId = some user := (findUser_eq s userId).symm.trans hactive.found
  refine sameReferrals_visited ?_ husers
  rw [Repository.key_of_get hget]
  exact hget

theorem sameReferrals_store {dto : RecordProgressDto} {row : schema.Row .progress}
    (h : (store userId dto stellarPublicKey).run handle around s = (.ok row, s₁)) :
    SameReferrals s s₁ := by
  obtain ⟨user, s', hactivity, hrest⟩ := Process.run_bind_ok.mp h
  refine (sameReferrals_recordActivity hactivity).trans (sameReferrals_of_users ?_)
  have hkeeps : (findOne .progress (.pair userId dto.courseId) >>= fun existing =>
      Process.env >>= fun around =>
        recordOnChain stellarPublicKey dto (updated existing userId dto around.now) >>=
          put existing :
      Method (schema.Row .progress)).Only KeepsUsers := by
    refine Process.only_bind (only_request nofun) fun existing => ?_
    refine Process.only_bind (fun _ => trivial) fun around => ?_
    refine Process.only_bind ?_ fun progress => ?_
    · refine Process.only_tryCatch ?_ fun _ => trivial
      exact Process.only_bind (only_request nofun) fun _ => trivial
    · unfold put
      split
      · exact only_insert nofun
      · exact only_save nofun
  have husers := run_users around s' hkeeps
  rw [hrest] at husers
  exact husers

theorem sameReferrals_countCompleted {completedCount : Nat}
    (h : (countCompleted userId courseId stellarPublicKey).run handle around s =
      (.ok completedCount, s₂)) : SameReferrals s s₂ := by
  have hkeeps : (countCompleted userId courseId stellarPublicKey).Only KeepsUsers := by
    refine Process.only_bind ?_ fun _ => Process.only_bind ?_ fun _ => ?_
    · exact only_updateProgress nofun nofun nofun nofun fun _ _ =>
        only_issueBundle nofun nofun nofun nofun
    · refine Process.only_bind (only_request nofun) fun existing => ?_
      split
      · trivial
      refine Process.only_bind (only_findCourse nofun) fun course => ?_
      refine Process.only_bind (only_enforceKyc nofun) fun _ => ?_
      refine Process.only_bind (only_request nofun) fun txHash => ?_
      exact Process.only_bind (only_tryReward nofun) fun _ => only_insert nofun
    · refine Process.only_bind (only_request nofun) fun _ => ?_
      exact Process.only_bind (only_request nofun) fun _ => trivial
  refine sameReferrals_of_users ?_
  have husers := run_users around s hkeeps
  rw [h] at husers
  exact husers

/-! ## Who is rewarded -/

/-- The reward of a user's referrer is minted to a key. -/
structure Referred (around : Surroundings) (s : State) (userId key : String) : Prop where
  lookedUp : around.fails (.findUser (.id userId)) = none
  referrer : ∃ referredBy, referrer s userId = some referredBy ∧
    around.fails (.findUser (.id referredBy)) = none ∧ rewardKey s referredBy = some key
  minted : around.fails (.stellar (.mintReward key 50)) = none

theorem referred_congr {s' : State} (h : SameReferrals s s') {key : String} :
    Referred around s' userId key ↔ Referred around s userId key := by
  constructor
  · rintro ⟨hlookedUp, ⟨referredBy, hreferrer, hfound, hkey⟩, hminted⟩
    rw [h.referrer] at hreferrer
    rw [h.rewardKey] at hkey
    exact ⟨hlookedUp, ⟨referredBy, hreferrer, hfound, hkey⟩, hminted⟩
  · rintro ⟨hlookedUp, ⟨referredBy, hreferrer, hfound, hkey⟩, hminted⟩
    refine ⟨hlookedUp, ⟨referredBy, ?_, hfound, ?_⟩, hminted⟩
    · rw [h.referrer, hreferrer]
    · rw [h.rewardKey, hkey]

/-- The chain after the reward of a referrer. -/
def RewardedTo (around : Surroundings) (s : State) (userId : String)
    (chain : List (ChainCall × String)) : Prop :=
  (∃ key, Referred around s userId key ∧
      chain = (.mintReward key 50, around.hash (.mintReward key 50)) :: s.chain) ∨
    (∀ key, ¬ Referred around s userId key) ∧ chain = s.chain

theorem tryReward_chain {key : String} {amount : Nat} :
    ((Streaks.tryReward key amount).run handle around s).2.chain =
      match around.fails (.stellar (.mintReward key amount)) with
      | none => (.mintReward key amount, around.hash (.mintReward key amount)) :: s.chain
      | some _ => s.chain := by
  unfold Streaks.tryReward
  cases hminted : around.fails (.stellar (.mintReward key amount)) with
  | none =>
    have hrun := Process.run_bind_of_ok (stellar_of_none (s := s) hminted)
      fun _ => (pure () : Method Unit)
    rw [Process.run_tryCatch_of_ok hrun]
  | some x =>
    have hrun := Process.run_bind_of_error (stellar_of_some (s := s) hminted)
      fun _ => (pure () : Method Unit)
    rw [Process.run_tryCatch_of_error hrun]
    rfl

theorem rewardReferrer_chain (around : Surroundings) (s : State) (userId : String) :
    RewardedTo around s userId ((rewardReferrer userId).run handle around s).2.chain := by
  unfold rewardReferrer
  refine bind_request (P := fun result => RewardedTo around s userId result.2.chain)
    (fun x hx => .inr ⟨fun key h => ?_, rfl⟩) fun hlookedUp => ?_
  · cases hx.symm.trans h.lookedUp
  dsimp only [respond]
  rw [findUser_eq]
  have hnot {key : String} (h : Referred around s userId key) {referredBy : String}
      (hreferrer : referrer s userId = some referredBy) :
      around.fails (.findUser (.id referredBy)) = none ∧ rewardKey s referredBy = some key := by
    obtain ⟨referredBy', hreferrer', hfound, hkey⟩ := h.referrer
    cases hreferrer.symm.trans hreferrer'
    exact ⟨hfound, hkey⟩
  cases hreferrer : referrer s userId with
  | none =>
    refine .inr ⟨fun key h => ?_, ?_⟩
    · obtain ⟨referredBy, hsome, -⟩ := h.referrer
      cases hreferrer.symm.trans hsome
    · unfold referrer at hreferrer
      rw [hreferrer]
      rfl
  | some referredBy =>
    have hmatch := hreferrer
    unfold referrer at hmatch
    rw [hmatch]
    refine bind_request (P := fun result => RewardedTo around s userId result.2.chain)
      (fun x hx => .inr ⟨fun key h => ?_, rfl⟩) fun hfound => ?_
    · cases hx.symm.trans (hnot h hreferrer).1
    dsimp only [respond]
    rw [findUser_eq]
    cases hkey : rewardKey s referredBy with
    | none =>
      refine .inr ⟨fun key h => ?_, ?_⟩
      · cases hkey.symm.trans (hnot h hreferrer).2
      · unfold rewardKey at hkey
        rw [hkey]
        rfl
    | some key =>
      have hmatch := hkey
      unfold rewardKey at hmatch
      rw [hmatch]
      dsimp only
      rw [tryReward_chain]
      cases hminted : around.fails (.stellar (.mintReward key 50)) with
      | none => exact .inl ⟨key, ⟨hlookedUp, ⟨referredBy, hreferrer, hfound, hkey⟩, hminted⟩, rfl⟩
      | some x =>
        refine .inr ⟨fun key' h => ?_, rfl⟩
        cases hkey.symm.trans (hnot h hreferrer).2
        cases hminted.symm.trans h.minted

theorem added_rewardReferrer (around : Surroundings) (s : State) (userId : String) :
    (∃ key, Referred around s userId key ∧ added (rewardReferrer userId) around s =
        [(.mintReward key 50, around.hash (.mintReward key 50))]) ∨
      (∀ key, ¬ Referred around s userId key) ∧ added (rewardReferrer userId) around s = [] := by
  unfold added
  dsimp only
  rcases rewardReferrer_chain around s userId with ⟨key, hreferred, hchain⟩ | ⟨hnone, hchain⟩
  · refine .inl ⟨key, hreferred, ?_⟩
    rw [hchain, List.length_cons, Nat.add_sub_cancel_left]
    rfl
  · refine .inr ⟨hnone, ?_⟩
    rw [hchain, Nat.sub_self, List.take_zero]

/-! ## Which calls reward -/

/-- The user has completed no course but this one. -/
def OnlyCompletion (s : State) (userId courseId : String) : Prop :=
  ∀ row ∈ s.tables .progress, row.data.userId = userId → row.data.completedAt.isSome = true →
    current s userId courseId = some row

/-- The call rewards the referrer: it is saved and records 100 percent, nothing fails up to the
reward, and its user has completed no other course. -/
structure Pays (s : State) (i : Surroundings × Call) (key : String) : Prop where
  hundred : 100 ≤ i.2.dto.progressPct
  saved : Recorded s i
  /-- The bundles and the credential. -/
  returns : ((countCompleted i.2.userId i.2.dto.courseId i.2.stellarPublicKey).run handle i.1
    ((store i.2.userId i.2.dto i.2.stellarPublicKey).run handle i.1 s).2).1.isOk = true
  only : OnlyCompletion s i.2.userId i.2.dto.courseId
  referred : Referred i.1 s i.2.userId key

section Written

variable {dto : RecordProgressDto} {row : schema.Row .progress}

theorem holds_completedOf : schema.holds .progress (.completedOf userId) row = true ↔
    row.data.userId = userId ∧ row.data.completedAt.isSome = true := by
  change (decide _ && _) = true ↔ _
  rw [Bool.and_eq_true, decide_eq_true_iff]

/-- The row that is written takes the place of the one that is found. -/
theorem id_written (h : Stores around s userId dto stellarPublicKey)
    (hrow : row ∈ s.tables .progress) :
    row.id = (written around s userId dto stellarPublicKey).id ↔
      current s userId dto.courseId = some row := by
  have hwritable := h.writable
  unfold Writable at hwritable
  cases hcurrent : current s userId dto.courseId with
  | none =>
    rw [hcurrent] at hwritable
    refine iff_of_false (fun hid => ?_) nofun
    have hfresh : (s.tables .progress).get row.id = none := by
      rw [hid]
      unfold written
      rw [hcurrent]
      exact hwritable.2
    cases hfresh.symm.trans hrow
  | some found =>
    rw [written_of_current hcurrent, Option.some.injEq]
    constructor
    · intro hid
      have hfound : (s.tables .progress).get found.id = some found :=
        (Repository.findOne_some hcurrent).2
      have hget : (s.tables .progress).get row.id = some row := hrow
      rw [hid] at hget
      exact Option.some.inj (hfound.symm.trans hget)
    · rintro rfl
      rfl

theorem written_pair : (written around s userId dto stellarPublicKey).data.userId = userId := by
  obtain ⟨txHash, hcolumns⟩ := columns_eq around s userId stellarPublicKey dto
  rw [written_data, hcolumns]
  rfl

theorem written_completedAt : (written around s userId dto stellarPublicKey).data.completedAt =
    if 100 ≤ dto.progressPct then some around.now
    else (current s userId dto.courseId).bind fun row => row.data.completedAt := by
  obtain ⟨txHash, hcolumns⟩ := columns_eq around s userId stellarPublicKey dto
  rw [written_data, hcolumns]
  rfl

/-- The count is 1 if no other course is completed. -/
theorem count_eq_one (h : Stores around s userId dto stellarPublicKey)
    (hundred : 100 ≤ dto.progressPct) :
    (((s.tables .progress).save (written around s userId dto stellarPublicKey)).find
      (schema.holds .progress (.completedOf userId))).length = 1 ↔
        OnlyCompletion s userId dto.courseId := by
  have hwritten : written around s userId dto stellarPublicKey ∈
      ((s.tables .progress).save (written around s userId dto stellarPublicKey)).find
        (schema.holds .progress (.completedOf userId)) := by
    refine Repository.mem_find.mpr ⟨Repository.mem_save.mpr (.inl rfl), ?_⟩
    rw [holds_completedOf, written_completedAt, if_pos hundred]
    exact ⟨written_pair, rfl⟩
  constructor
  · intro hlength row hrow huser hcompleted
    obtain ⟨only, honly⟩ := List.length_eq_one_iff.mp hlength
    refine (id_written h hrow).mp (by_contra fun hne => ?_)
    have hfound : row ∈ ((s.tables .progress).save
        (written around s userId dto stellarPublicKey)).find
          (schema.holds .progress (.completedOf userId)) :=
      Repository.mem_find.mpr ⟨Repository.mem_save.mpr (.inr ⟨hrow, hne⟩),
        holds_completedOf.mpr ⟨huser, hcompleted⟩⟩
    rw [honly, List.mem_singleton] at hfound hwritten
    exact hne (congrArg Stored.id (hfound.trans hwritten.symm))
  · intro honly
    have hperm : (((s.tables .progress).save (written around s userId dto stellarPublicKey)).find
        (schema.holds .progress (.completedOf userId))).Perm
          [written around s userId dto stellarPublicKey] := by
      refine (List.perm_ext_iff_of_nodup Repository.nodup_find (List.nodup_singleton _)).mpr ?_
      intro row
      rw [List.mem_singleton]
      refine ⟨fun hfound => ?_, fun hrow => hrow ▸ hwritten⟩
      obtain ⟨hmem, hholds⟩ := Repository.mem_find.mp hfound
      rcases Repository.mem_save.mp hmem with hrow | ⟨hrow, hne⟩
      · exact hrow
      · obtain ⟨huser, hcompleted⟩ := holds_completedOf.mp hholds
        exact absurd ((id_written h hrow).mpr (honly row hrow huser hcompleted)) hne
    exact hperm.length_eq

end Written

theorem count_of_ok {completedCount : Nat}
    (h : (countCompleted userId courseId stellarPublicKey).run handle around s =
      (.ok completedCount, s₂)) :
    completedCount =
      ((s.tables .progress).find (schema.holds .progress (.completedOf userId))).length := by
  obtain ⟨_, s₃, hbundles, h⟩ := Process.run_bind_ok.mp h
  obtain ⟨_, s₄, hissue, h⟩ := Process.run_bind_ok.mp h
  obtain ⟨_, s₅, hemit, h⟩ := Process.run_bind_ok.mp h
  obtain ⟨completed, s₆, hfind, h⟩ := Process.run_bind_ok.mp h
  obtain ⟨-, hcompleted, -⟩ := find_ok.mp hfind
  have hbundles' : ((Bundles.updateProgress userId courseId).run handle around s).2.tables
      .progress = s.tables .progress := run_spares (updateProgress_spares nofun nofun)
  have hissue' : ((Credentials.issue userId courseId stellarPublicKey).run handle around
      s₃).2.tables .progress = s₃.tables .progress := run_spares (issue_spares nofun)
  rw [hbundles] at hbundles'
  rw [hissue] at hissue'
  have hemit' : s₅.tables .progress = s₄.tables .progress := by
    rw [run_emit] at hemit
    exact (congrArg (fun result => result.2.tables .progress) hemit).symm
  cases h
  rw [← hcompleted, hemit', ← hbundles', ← hissue']

/-- A call rewards the referrer exactly when it pays. -/
theorem rewards_spec (s : State) (i : Surroundings × Call) :
    (∃ key, Pays s i key ∧
        rewards s i = [(.mintReward key 50, i.1.hash (.mintReward key 50))]) ∨
      (∀ key, ¬ Pays s i key) ∧ rewards s i = [] := by
  obtain ⟨around, userId, dto, stellarPublicKey⟩ := i
  unfold rewards
  dsimp only
  by_cases hstores : Stores around s userId dto stellarPublicKey
  · obtain ⟨s₁, hstore, htables⟩ := store_ok hstores
    rw [hstore]
    dsimp only
    by_cases hundred : 100 ≤ dto.progressPct
    · rw [if_pos hundred]
      rcases hcount :
          (countCompleted userId dto.courseId stellarPublicKey).run handle around s₁ with
        ⟨x | completedCount, s₂⟩
      · rw [hcount]
        refine .inr ⟨fun key h => ?_, rfl⟩
        have hreturns := h.returns
        dsimp only at hreturns
        rw [hstore, hcount] at hreturns
        cases hreturns
      · rw [hcount]
        dsimp only
        have hone : completedCount = 1 ↔ OnlyCompletion s userId dto.courseId := by
          rw [count_of_ok hcount, htables, Function.update_self]
          exact count_eq_one hstores hundred
        have hsame : SameReferrals s s₂ :=
          (sameReferrals_store hstore).trans (sameReferrals_countCompleted hcount)
        split
        · next hcompleted =>
          rcases added_rewardReferrer around s₂ userId with ⟨key, hreferred, hadded⟩ |
            ⟨hnone, hadded⟩
          · refine .inl ⟨key, ⟨hundred, hstores, ?_, hone.mp hcompleted, ?_⟩, hadded⟩
            · dsimp only
              rw [hstore, hcount]
              rfl
            · exact (referred_congr hsame).mp hreferred
          · refine .inr ⟨fun key h => hnone key ?_, hadded⟩
            exact (referred_congr hsame).mpr h.referred
        · next hcompleted => exact .inr ⟨fun key h => hcompleted (hone.mpr h.only), rfl⟩
    · rw [if_neg hundred]
      exact .inr ⟨fun key h => hundred h.hundred, rfl⟩
  · obtain ⟨x, s₁, hstore, -⟩ := store_error hstores
    rw [hstore]
    exact .inr ⟨fun key h => hstores h.saved, rfl⟩

/-- The reward is what a call writes to the chain last. -/
theorem rewards_prefix (s : State) (i : Surroundings × Call) :
    rewards s i <+: (step s i).chain := by
  obtain ⟨around, userId, dto, stellarPublicKey⟩ := i
  unfold rewards step recorded record
  dsimp only
  rcases hstore : (store userId dto stellarPublicKey).run handle around s with ⟨x | saved, s₁⟩
  · rw [hstore]
    exact List.nil_prefix
  rw [hstore, Process.run_bind_of_ok hstore]
  dsimp only
  split
  · rw [complete_eq, Process.bind_assoc]
    rcases hcount : (countCompleted userId dto.courseId stellarPublicKey).run handle around s₁ with
      ⟨x | completedCount, s₂⟩
    · rw [hcount]
      exact List.nil_prefix
    rw [hcount, Process.run_bind_of_ok hcount]
    dsimp only
    split
    · have hrun : (rewardReferrer userId >>= fun _ => Process.ret saved).run handle around s₂ = _ :=
        Process.run_map (rewardReferrer userId) fun _ => saved
      change added _ _ _ <+: (Process.run handle around s₂ (rewardReferrer userId >>= fun _ =>
        Process.ret saved)).2.chain
      rw [hrun]
      exact List.take_prefix _ _
    · exact List.nil_prefix
  · exact List.nil_prefix

/-! ## Runs -/

/-- The user has completed some course. -/
def HasCompleted (s : State) (userId : String) : Prop :=
  ∃ row ∈ s.tables .progress, row.data.userId = userId ∧ row.data.completedAt.isSome = true

/-- A completion is never taken back. -/
theorem hasCompleted_step (i : Surroundings × Call) (h : HasCompleted s userId) :
    HasCompleted (step s i) userId := by
  obtain ⟨around, userId', dto, stellarPublicKey⟩ := i
  obtain ⟨row, hrow, huser, hcompleted⟩ := h
  by_cases hstores : Stores around s userId' dto stellarPublicKey
  · have hprogress : (step s (around, ⟨userId', dto, stellarPublicKey⟩)).tables .progress =
        (s.tables .progress).save (written around s userId' dto stellarPublicKey) :=
      recorded_progress hstores
    unfold HasCompleted
    rw [hprogress]
    by_cases hid : row.id = (written around s userId' dto stellarPublicKey).id
    · have hcurrent := (id_written hstores hrow).mp hid
      obtain ⟨hpair, -⟩ := Repository.findOne_some hcurrent
      have hsame : userId' = userId := by
        change (decide _ && decide _) = true at hpair
        rw [Bool.and_eq_true, decide_eq_true_iff] at hpair
        exact hpair.1.symm.trans huser
      refine ⟨_, Repository.mem_save.mpr (.inl rfl), written_pair.trans hsame, ?_⟩
      rw [written_completedAt, hcurrent]
      split
      · rfl
      · exact hcompleted
    · exact ⟨row, Repository.mem_save.mpr (.inr ⟨hrow, hid⟩), huser, hcompleted⟩
  · have hsame : (step s (around, ⟨userId', dto, stellarPublicKey⟩)).tables = s.tables :=
      recorded_of_not_stores hstores
    refine ⟨row, ?_, huser, hcompleted⟩
    rw [hsame]
    exact hrow

theorem hasCompleted_pays {i : Surroundings × Call} {key : String} (h : Pays s i key) :
    HasCompleted (step s i) i.2.userId := by
  have hprogress : (step s i).tables .progress =
      (s.tables .progress).save (written i.1 s i.2.userId i.2.dto i.2.stellarPublicKey) :=
    recorded_progress h.saved
  unfold HasCompleted
  rw [hprogress]
  refine ⟨_, Repository.mem_save.mpr (.inl rfl), written_pair, ?_⟩
  rw [written_completedAt, if_pos h.hundred]
  rfl

variable {s₀ : State} {past : List (Surroundings × Call)} {i : Surroundings × Call}

/-- A user whose referrer has been rewarded has completed some course. -/
theorem hasCompleted_reached (h : payments s₀ userId past ≠ []) :
    HasCompleted (reached s₀ past) userId := by
  induction past with
  | nil => exact absurd rfl h
  | cons i past ih =>
    by_cases hpast : payments s₀ userId past = []
    · rw [payments, hpast, List.append_nil] at h
      split at h
      · next huser =>
        subst huser
        rcases rewards_spec (reached s₀ past) i with ⟨key, hpays, -⟩ | ⟨-, hnone⟩
        · exact hasCompleted_pays hpays
        · exact absurd hnone h
      · exact absurd rfl h
    · exact hasCompleted_step i (ih hpast)

/-- The course of the call is completed already. -/
def CompletedBefore (s : State) (i : Surroundings × Call) : Prop :=
  ∃ row, current s i.2.userId i.2.dto.courseId = some row ∧ row.data.completedAt.isSome = true

/-- After a reward, no call of the user pays that completes again the only course completed. -/
def NoSecondCompletion (s₀ : State) (userId : String) (past : List (Surroundings × Call))
    (i : Surroundings × Call) : Prop :=
  payments s₀ userId past ≠ [] → i.2.userId = userId → CompletedBefore (reached s₀ past) i →
    ∀ key, ¬ Pays (reached s₀ past) i key

/-- The referrer of a user is rewarded at most once for that user throughout a run exactly when no
call pays a second time for the completion of one course. -/
theorem reward_once_iff (s₀ : State) (userId : String) (past : List (Surroundings × Call)) :
    (∀ earlier, earlier <:+ past → (payments s₀ userId earlier).length ≤ 1) ↔
      Guarded (NoSecondCompletion s₀ userId) past := by
  refine throughout_iff_guarded (Nat.zero_le 1) past fun earlier i _ hearlier => ?_
  rw [payments, List.length_append]
  split
  · next huser =>
    rcases rewards_spec (reached s₀ earlier) i with ⟨key, hpays, hrewards⟩ | ⟨hnone, hrewards⟩
    · rw [hrewards, List.length_singleton]
      constructor
      · intro hlength hbefore
        have hpos := List.length_pos_of_ne_nil hbefore
        omega
      · intro hguard
        by_cases hbefore : payments s₀ userId earlier = []
        · rw [hbefore]
          exact Nat.le_refl 1
        · obtain ⟨row, hrow, hrowuser, hcompleted⟩ := hasCompleted_reached hbefore
          have hcurrent := hpays.only row hrow (hrowuser.trans huser.symm) hcompleted
          exact absurd hpays (hguard hbefore huser ⟨row, hcurrent, hcompleted⟩ key)
    · rw [hrewards, List.length_nil, Nat.zero_add]
      exact iff_of_true hearlier fun _ _ _ key => hnone key
  · next huser =>
    rw [List.length_nil, Nat.zero_add]
    exact iff_of_true hearlier fun _ hsame => absurd hsame huser

/-! ## A course that is completed twice -/

/-- A user whom another one has referred. -/
def exampleReferred : State :=
  { State.empty with
    users := (Repository.empty.save
      (spread (Users.User.default "u1" 0) (Patch.empty.set .referredBy (some "r1")))).save
      (spread (spread (Users.User.default "r1" 0) (Patch.empty.set .email "r1"))
        (Patch.empty.set .stellarPublicKey (some "R1"))) }
    |>.put .course (Repository.empty.save ⟨"c1", 0, 0, {
      title := "Rust", status := .published, isPublished := true, isDeleted := false
      requiresKyc := false, skills := none, maxEnrollment := none }⟩)

def exampleCompletion : Surroundings × Call :=
  (⟨⟨0, fun _ _ => "k1"⟩, fun _ => "tx1", fun _ => none⟩, ⟨"u1", ⟨"c1", none, 100⟩, "G1"⟩)

/-- 100 percent is recorded, and recorded again. The second reward is on the chain too. -/
theorem rewarded_again :
    payments exampleReferred "u1" [exampleCompletion, exampleCompletion] =
        [(.mintReward "R1" 50, "tx1"), (.mintReward "R1" 50, "tx1")] ∧
      rewards (reached exampleReferred [exampleCompletion]) exampleCompletion <+:
        (reached exampleReferred [exampleCompletion, exampleCompletion]).chain ∧
      ¬ (payments exampleReferred "u1" [exampleCompletion, exampleCompletion]).length ≤ 1 := by
  have hpayments : payments exampleReferred "u1" [exampleCompletion, exampleCompletion] =
      [(.mintReward "R1" 50, "tx1"), (.mintReward "R1" 50, "tx1")] := by
    decide +kernel
  exact ⟨hpayments, rewards_prefix _ _, by rw [hpayments]; decide⟩

end Scoopdope.Progress

import Scoopdope.Analytics.Contract
import Scoopdope.Buyback.Reserve
import Scoopdope.LiquidityPool.Shares
import Scoopdope.Reputation.Scores
import Scoopdope.Soroban.Pages

/-!
# Paged histories

The liquidity pool, the buybacks and the reputation keep a history under numbers, and the
analytics list the records of a student. All four are read page by page, and all four compute
`start + limit` before they compare it with the length, so that a page whose end is no `u32` is
not read at all, however short the history is.
-/

namespace Scoopdope

open Soroban

variable {Address : Type} [DecidableEq Address]

/-! ## The liquidity pool -/

namespace LiquidityPool

variable {s s' : Storage Address} {env : Env Address}

omit [DecidableEq Address] in
theorem swapUpdate_history {tokenIn : String} {ra rb amountIn amountOut : I128}
    (h : swapUpdate s tokenIn ra rb amountIn amountOut = .ok s') :
    s'.swapHistory = s.swapHistory ∧ s'.swapHistoryCount = s.swapHistoryCount := by
  unfold swapUpdate at h
  split_ifs at h
  · simp only [bind_eq_ok, pure_eq_ok] at h
    obtain ⟨_, _, _, _, rfl⟩ := h
    exact ⟨rfl, rfl⟩
  · simp only [bind_eq_ok, pure_eq_ok] at h
    obtain ⟨_, _, _, _, rfl⟩ := h
    exact ⟨rfl, rfl⟩
  · cases pure_eq_ok.mp h
    exact ⟨rfl, rfl⟩

/-- A swap appends its record. -/
theorem swap_history {user : Address} {tokenIn : String} {amountIn amountOutMin out : I128}
    (h : swap env s user tokenIn amountIn amountOutMin = .ok (out, s')) :
    ∃ record, s'.swapHistory = s.swapHistory.set (historyCount s) record ∧
      (historyCount s').val = (historyCount s).val + 1 := by
  simp only [swap, bind_eq_ok, assert_eq_ok, unwrap_eq_ok, Env.requireAuth_eq_ok, pure_eq_ok,
    exists_const, Prod.mk.injEq, Prod.exists] at h
  obtain ⟨_, _, _, _, _, _, _, _, _, _, _, _, s₁, hs₁, _, _, next, hnext, _, hs'⟩ := h
  obtain ⟨hhistory, hcount⟩ := swapUpdate_history hs₁
  obtain ⟨record, hset⟩ : ∃ record,
      s'.swapHistory = s₁.swapHistory.set (s₁.swapHistoryCount.getD 0) record := by
    rw [← hs']
    exact ⟨_, rfl⟩
  have hlast : historyCount s' = next := by
    rw [← hs']
    rfl
  rw [hhistory, hcount] at hset
  rw [hcount] at hnext
  refine ⟨record, hset, ?_⟩
  rw [hlast]
  exact BoundedInt.add_eq_ok.mp hnext

theorem exec_history {i : Env Address × Call Address} (hadmin : ∃ admin, s.admin = some admin)
    (h : exec s i = .ok s') :
    (s'.swapHistory = s.swapHistory ∧ historyCount s' = historyCount s) ∨
      ∃ record, s'.swapHistory = s.swapHistory.set (historyCount s) record ∧
        (historyCount s').val = (historyCount s).val + 1 := by
  obtain ⟨env, call⟩ := i
  cases call with
  | initializeContract admin bstToken feeCollector =>
    obtain ⟨hnone, _⟩ := initializeContract_ok.mp h
    obtain ⟨admin', hsome⟩ := hadmin
    rw [hnone] at hsome
    cases hsome
  | addLiquidity provider aDesired bDesired aMin bMin =>
    obtain ⟨minted, h⟩ := map_snd_eq_ok.mp h
    obtain ⟨_, _, _, _, _, _, _, _, _, _, _, _, _, _, _, _, _, _, _, _, rfl⟩ := addLiquidity_ok h
    exact .inl ⟨rfl, rfl⟩
  | removeLiquidity provider liquidity =>
    obtain ⟨amounts, h⟩ := map_snd_eq_ok.mp h
    obtain ⟨_, _, _, _, _, _, _, _, _, _, _, _, _, _, _, _, _, _, rfl⟩ := removeLiquidity_ok h
    exact .inl ⟨rfl, rfl⟩
  | swap user tokenIn amountIn amountOutMin =>
    obtain ⟨out, h⟩ := map_snd_eq_ok.mp h
    exact .inr (swap_history h)
  | claimMiningRewards user =>
    obtain ⟨rewards, h⟩ := map_snd_eq_ok.mp h
    obtain ⟨_, _, _, rfl⟩ := claimMiningRewards_ok h
    exact .inl ⟨rfl, rfl⟩

omit [DecidableEq Address] in
/-- The swaps that are stored, oldest first. -/
def SwapLog (s : Storage Address) (log : List (SwapRecord Address)) : Prop :=
  Stored s.swapHistory.get (historyCount s) log

theorem swapLog_after {s₀ : Storage Address} (h : Initialised s₀)
    (past : List (Env Address × Call Address)) : ∃ log, SwapLog (after exec s₀ past) log := by
  refine stored_after (fun s : Storage Address => s.swapHistory.get) historyCount ?_ ?_ past
  · obtain ⟨env, admin, bstToken, feeCollector, h⟩ := h
    obtain ⟨_, _, rfl⟩ := initializeContract_ok.mp h
    exact ⟨[], Filed.empty, rfl⟩
  · intro e i s' he
    rcases exec_history (accounted_after h e).admin he with ⟨hsame, hcount⟩ | ⟨record, hset, hcount⟩
    · exact .inl ⟨by rw [hsame], hcount⟩
    · exact .inr ⟨record, fun id => by rw [hset, Table.get_set], hcount⟩

end LiquidityPool

/-! ## The buybacks -/

namespace Buyback

/-- The buybacks that are stored, oldest first. -/
def BuybackLog (s : Storage Address) (log : List BuybackRecord) : Prop :=
  Stored s.buybackHistory.get (historyCount s) log

theorem buybackLog_after {s₀ : Storage Address} (h : Initialised s₀)
    (past : List (Env Address × Call Address)) : ∃ log, BuybackLog (after exec s₀ past) log := by
  have hadmin : ∀ e : List (Env Address × Call Address),
      (after exec s₀ e).admin.isSome = true := by
    refine after_invariant (P := fun s : Storage Address => s.admin.isSome = true) h.kept.admin ?_
    intro s i s' hs he
    rcases exec_ok hs he with ⟨hsame, _⟩ | ⟨_, _, _, _, hexecuted, _⟩
    · rw [hsame]
      exact hs
    · rw [hexecuted.admin]
      exact hs
  refine stored_after (fun s : Storage Address => s.buybackHistory.get) historyCount
    ⟨[], h.kept.filed, h.kept.count⟩ ?_ past
  intro e i s' he
  rcases exec_ok (hadmin e) he with ⟨_, hsame, hcount, _⟩ | ⟨_, _, record, _, hexecuted, _⟩
  · exact .inl ⟨by rw [hsame], hcount⟩
  · exact .inr ⟨record, fun id => by rw [hexecuted.history, Table.get_set], hexecuted.count⟩

end Buyback

/-! ## The reputation -/

namespace Reputation

variable {s s' : Storage Address} {env : Env Address}

/-- The history of a user is as it was, or has one more entry. -/
def Appended (s s' : Storage Address) (user : Address) : Prop :=
  ((fun i => s'.reputationHistory.get (user, i)) = (fun i => s.reputationHistory.get (user, i)) ∧
    historyCount s' user = historyCount s user) ∨
  ∃ update, (∀ i, s'.reputationHistory.get (user, i) =
      if i = historyCount s user then some update else s.reputationHistory.get (user, i)) ∧
    (historyCount s' user).val = (historyCount s user).val + 1

theorem appended_of_same (user : Address) (hhistory : s'.reputationHistory = s.reputationHistory)
    (hcount : s'.reputationHistoryCount = s.reputationHistoryCount) : Appended s s' user := by
  unfold Appended historyCount
  rw [hhistory, hcount]
  exact .inl ⟨rfl, rfl⟩

theorem addHistory_appended {user' : Address} {update : ReputationUpdate}
    (h : addHistory s user' update = .ok s') (user : Address) : Appended s s' user := by
  simp only [addHistory, bind_eq_ok, BoundedInt.add_eq_ok, pure_eq_ok] at h
  obtain ⟨next, hnext, rfl⟩ := h
  by_cases huser : user = user'
  · subst huser
    refine .inr ⟨update, fun i => ?_, ?_⟩
    · show (s.reputationHistory.set (user, historyCount s user) update).get (user, i) = _
      simp only [Table.get_set, Prod.mk.injEq, true_and]
    · show (((s.reputationHistoryCount.set user next).get user).getD 0).val = _
      rw [Table.get_set_self]
      exact hnext
  · refine .inl ⟨funext fun i => ?_, ?_⟩
    · exact Table.get_set_ne fun he => huser (Prod.mk.inj he).1
    · show ((s.reputationHistoryCount.set user' next).get user).getD 0 = _
      rw [Table.get_set_ne huser]
      rfl

omit [DecidableEq Address] in
theorem addToTotal_history {change : I128} (h : addToTotal s change = .ok s') :
    s'.reputationHistory = s.reputationHistory ∧
      s'.reputationHistoryCount = s.reputationHistoryCount := by
  simp only [addToTotal, bind_eq_ok, pure_eq_ok] at h
  obtain ⟨_, _, rfl⟩ := h
  exact ⟨rfl, rfl⟩

/-- An entry added in front of what else a call writes. -/
theorem Appended.of_same {s₁ s₂ : Storage Address} {user : Address} (h : Appended s₁ s₂ user)
    (hhistory : s₁.reputationHistory = s.reputationHistory)
    (hcount : s₁.reputationHistoryCount = s.reputationHistoryCount)
    (hhistory' : s'.reputationHistory = s₂.reputationHistory)
    (hcount' : s'.reputationHistoryCount = s₂.reputationHistoryCount) : Appended s s' user := by
  unfold Appended historyCount at h ⊢
  rw [hhistory', hcount', ← hhistory, ← hcount]
  exact h

theorem exec_appended {i : Env Address × Call Address} (h : exec s i = .ok s') (user : Address) :
    Appended s s' user := by
  obtain ⟨env, call⟩ := i
  cases call with
  | initializeContract admin =>
    simp only [exec, initializeContract, bind_eq_ok, pure_eq_ok] at h
    obtain ⟨_, _, _, _, rfl⟩ := h
    exact appended_of_same user rfl rfl
  | updateReputation admin user' scoreChange reason courseId =>
    simp only [exec, updateReputation, bind_eq_ok, pure_eq_ok] at h
    obtain ⟨_, _, _, _, _, _, _, _, _, _, _, _, _, _, s₁, h₁, s₂, h₂, rfl⟩ := h
    obtain ⟨hhistory, hcount⟩ := addToTotal_history h₂
    exact (addHistory_appended h₁ user).of_same rfl rfl hhistory hcount
  | applyDecay admin user' =>
    simp only [exec, applyDecay, bind_eq_ok] at h
    obtain ⟨_, _, _, _, _, _, old, _, decayed, _, h⟩ := h
    split at h
    · cases pure_eq_ok.mp h
      exact appended_of_same user rfl rfl
    · simp only [bind_eq_ok, pure_eq_ok] at h
      obtain ⟨_, _, s₁, h₁, s₂, h₂, rfl⟩ := h
      obtain ⟨hhistory, hcount⟩ := addToTotal_history h₂
      exact (addHistory_appended h₁ user).of_same rfl rfl hhistory hcount
  | setDecayConfig admin enabled decayRate decayInterval =>
    obtain ⟨_, _, rfl⟩ := setDecayConfig_ok.mp h
    exact appended_of_same user rfl rfl
  | claimReputationReward user' =>
    obtain ⟨events, rfl⟩ := claimReputationReward_ok h
    exact appended_of_same user rfl rfl

/-- The updates of a user that are stored, oldest first. -/
def UpdateLog (s : Storage Address) (user : Address) (log : List ReputationUpdate) : Prop :=
  Stored (fun i => s.reputationHistory.get (user, i)) (historyCount s user) log

theorem updateLog_after {admin : Address} {s₀ : Storage Address} (h : Initialised admin s₀)
    (past : List (Env Address × Call Address)) (user : Address) :
    ∃ log, UpdateLog (after exec s₀ past) user log := by
  refine stored_after (fun s : Storage Address => fun i => s.reputationHistory.get (user, i))
    (fun s => historyCount s user) ?_ (fun e i s' he => exec_appended he user) past
  obtain ⟨env, h⟩ := h
  simp only [initializeContract, bind_eq_ok, pure_eq_ok] at h
  obtain ⟨_, _, _, _, rfl⟩ := h
  exact ⟨[], Filed.empty, rfl⟩

end Reputation

/-! ## The analytics -/

namespace Analytics

theorem mapM_unwrap {α β : Type} {l : List α} {f : α → Option β} (h : ∀ a ∈ l, (f a).isSome) :
    l.mapM (fun a => unwrap (f a)) = .ok (l.filterMap f) := by
  induction l with
  | nil => rfl
  | cons a l ih =>
    obtain ⟨b, hb⟩ := Option.isSome_iff_exists.mp (h a List.mem_cons_self)
    rw [List.mapM_cons, ih fun c hc => h c (List.mem_cons_of_mem a hc),
      List.filterMap_cons_some hb, hb]
    rfl

/-- Each record of the page is there. -/
theorem getProgressPaginated_pagedBy (s : Storage Address) (student : Address) :
    PagedBy (getProgressPaginated s student) (getAllProgress s student) := by
  intro offset limit page
  have hoffset := offset.lo_le
  have hlimit := limit.lo_le
  simp only [getProgressPaginated, bind_eq_ok, BoundedInt.add_eq_ok]
  generalize getAllProgress s student = records
  have hpage : offset.val + limit.val ≤ 4294967295 →
      (if offset.val < (records.length : Int) then
        (indices offset.val (min (offset.val + limit.val) records.length)).mapM
          fun i => unwrap records[i.val.toNat]?
      else pure []) = .ok (pageOf records offset limit) := by
    intro hfits
    split
    · rw [mapM_unwrap, indices_filterMap hoffset (by omega) (by omega) fun i _ => rfl, pageOf_eq]
      intro i hi
      rw [isSome_getElem?]
      have := (mem_indices.mp hi).2
      have := i.lo_le
      omega
    · next hpast =>
      rw [pageOf, List.drop_eq_nil_of_le (by omega), List.take_nil]
      rfl
  constructor
  · rintro ⟨sum, hsum, hread⟩
    have hfits := sum.le_hi
    have hfits' : offset.val + limit.val ≤ 4294967295 := by omega
    rw [hsum, hpage hfits'] at hread
    cases hread
    exact ⟨hfits', rfl⟩
  · rintro ⟨hfits, rfl⟩
    exact ⟨⟨offset.val + limit.val, by omega, hfits⟩, rfl, hpage hfits⟩

end Analytics

/-! ## All four readers -/

/-- On which arguments a page is exact, and for which page sizes all pages together are. -/
def ExactWhereFits {V : Type} (read : U32 → U32 → Outcome (List V)) (log : List V) : Prop :=
  (∀ start limit, read start limit = .ok (pageOf log start limit) ↔
    start.val + limit.val ≤ 4294967295) ∧
  ∀ p : U32, 0 < p.val → (readAll read log.length p = .ok log ↔
    (pageCount log.length p.val.toNat : Int) * p.val ≤ 4294967295)

theorem exactWhereFits {V : Type} {read : U32 → U32 → Outcome (List V)} {log : List V}
    (h : PagedBy read log) : ExactWhereFits read log :=
  ⟨h.exact_iff, fun _ hp => h.readAll_iff hp⟩

/-- Of every stored history, a reader returns the page of a start and a limit exactly where their
sum is a `u32`; the pages 0, p, 2p, ... make up the history exactly where the end of the last one
is. Every contract that a run reaches has a stored history. -/
theorem paged_histories_exact_iff :
    (∀ (s : LiquidityPool.Storage Address) log, LiquidityPool.SwapLog s log →
      ExactWhereFits (LiquidityPool.getSwapHistory s) log) ∧
    (∀ (s : Buyback.Storage Address) log, Buyback.BuybackLog s log →
      ExactWhereFits (Buyback.getBuybackHistory s) log) ∧
    (∀ (s : Reputation.Storage Address) user log, Reputation.UpdateLog s user log →
      ExactWhereFits (Reputation.getReputationHistory s user) log) ∧
    (∀ (s : Analytics.Storage Address) student,
      ExactWhereFits (Analytics.getProgressPaginated s student)
        (Analytics.getAllProgress s student)) ∧
    (∀ s₀ : LiquidityPool.Storage Address, LiquidityPool.Initialised s₀ → ∀ past,
      ∃ log, LiquidityPool.SwapLog (after LiquidityPool.exec s₀ past) log) ∧
    (∀ s₀ : Buyback.Storage Address, Buyback.Initialised s₀ → ∀ past,
      ∃ log, Buyback.BuybackLog (after Buyback.exec s₀ past) log) ∧
    ∀ admin (s₀ : Reputation.Storage Address), Reputation.Initialised admin s₀ → ∀ past user,
      ∃ log, Reputation.UpdateLog (after Reputation.exec s₀ past) user log := by
  refine ⟨?_, ?_, ?_, ?_, ?_, ?_, ?_⟩
  · intro s log h
    exact exactWhereFits h.pagedBy
  · intro s log h
    exact exactWhereFits h.pagedBy
  · intro s user log h
    exact exactWhereFits h.pagedBy
  · intro s student
    exact exactWhereFits (Analytics.getProgressPaginated_pagedBy s student)
  · intro s₀ h past
    exact LiquidityPool.swapLog_after h past
  · intro s₀ h past
    exact Buyback.buybackLog_after h past
  · intro admin s₀ h past user
    exact Reputation.updateLog_after h past user

/-- The example contract 5 with one update in its history. -/
def oneUpdate : Reputation.Storage Nat :=
  { Reputation.exampleReputation with
    reputationHistory := Table.set ∅ (5, 0) ⟨0, .lit 150, "review", none⟩
    reputationHistoryCount := Table.set ∅ 5 (.lit 1) }

theorem oneUpdate_log : Reputation.UpdateLog oneUpdate 5 [⟨0, .lit 150, "review", none⟩] := by
  have hnone : Stored (fun _ => (none : Option Reputation.ReputationUpdate)) 0 [] :=
    ⟨Filed.empty, rfl⟩
  refine hnone.push _ (fun i => ?_) rfl
  show (Table.set (∅ : Table (Nat × U32) Reputation.ReputationUpdate) (5, 0) _).get (5, i) = _
  rw [Table.get_set]
  simp

theorem paged_histories_exact_iff_oneUpdate :
    Reputation.getReputationHistory oneUpdate 5 0 (.lit 10) =
      .ok (pageOf [⟨0, .lit 150, "review", none⟩] 0 (.lit 10)) := by
  obtain ⟨-, -, hexact, -⟩ := @paged_histories_exact_iff Nat _
  exact ((hexact oneUpdate 5 _ oneUpdate_log).1 0 (.lit 10)).mpr (by decide)

/-- From entry 1 on, without a limit. -/
theorem page_end_overflows :
    LiquidityPool.SwapLog LiquidityPool.examplePool [] ∧
    LiquidityPool.getSwapHistory LiquidityPool.examplePool (.lit 1) (.lit 4294967295) =
      .error .overflow ∧
    Buyback.getBuybackHistory Buyback.exampleBuyback (.lit 1) (.lit 4294967295) =
      .error .overflow ∧
    Reputation.getReputationHistory oneUpdate 5 (.lit 1) (.lit 4294967295) = .error .overflow ∧
    Analytics.getProgressPaginated Analytics.exampleAnalytics 5 (.lit 1) (.lit 4294967295) =
      .error .overflow :=
  ⟨⟨Filed.empty, rfl⟩, rfl, rfl, rfl, rfl⟩

end Scoopdope

import Scoopdope.Buyback.Contract
import Scoopdope.Soroban.History
import Scoopdope.Soroban.Pages

/-!
# Buybacks: the reserve and the history

The history is a log filed under its numbers, and the reserve, the total and the count go
along with it (`Kept`). The reader of the analytics adds the log up again and drops an
addition that overflows; as long as the exact sum stays in range it drops none, whatever
the signs of the amounts, because the log only grew at its end (`reserve_accounted`).
-/

namespace Scoopdope.Buyback

open Soroban

variable {Address : Type}

def spent (record : BuybackRecord) : Int := record.xlmSpent.val

def bought (record : BuybackRecord) : Int := record.amountBought.val

/-- What an accepted call adds to the reserve. -/
def added (_ : Storage Address) (i : Env Address × Call Address) : Int :=
  match i.2 with
  | .addToReserve _ amount => amount.val
  | _ => 0

/-- The exact sum of what the history spent is an `i128`. -/
def SpentInRange (s : Storage Address) : Prop :=
  -170141183460469231731687303715884105728 ≤ Table.total spent s.buybackHistory ∧
    Table.total spent s.buybackHistory ≤ 170141183460469231731687303715884105727

instance (s : Storage Address) : Decidable (SpentInRange s) :=
  inferInstanceAs (Decidable (_ ∧ _))

/-- What the reader of the analytics makes of a history. -/
def readTotals (log : List BuybackRecord) : I128 × U64 := log.foldl addRecord (0, 0)

/-- The counters go along with the log of the buybacks. -/
structure Kept (s : Storage Address) (log : List BuybackRecord) (addedSum : Int) : Prop where
  admin : s.admin.isSome
  filed : Filed 0 s.buybackHistory.get log
  sums : ∀ f : BuybackRecord → Int, Table.total f s.buybackHistory = (log.map f).sum
  count : (historyCount s).val = log.length
  reserve : (getReserveBalance s).val = addedSum - (log.map spent).sum
  total : (totalBought s).val = (log.map bought).sum
  read : (readTotals log).1.val = (log.map spent).sum

namespace Kept

variable {s s' : Storage Address} {log : List BuybackRecord} {addedSum : Int}

/-- The number after the last one is not in use. -/
theorem free (h : Kept s log addedSum) : s.buybackHistory.get (historyCount s) = none := by
  have hnot := h.filed.isSome_iff (historyCount s)
  have hcount := h.count
  rw [← Option.not_isSome_iff_eq_none, hnot]
  omega

/-- A buyback appends its record to the log. -/
theorem executed (h : Kept s log addedSum) {record : BuybackRecord} (he : Executed s s' record)
    (hrange : SpentInRange s') : Kept s' (log ++ [record]) addedSum := by
  have hsums : ∀ f : BuybackRecord → Int,
      Table.total f s'.buybackHistory = ((log ++ [record]).map f).sum := by
    intro f
    have hshare : Table.share f s.buybackHistory (historyCount s) = 0 := by
      rw [Table.share, h.free]
      rfl
    rw [he.history, Table.total_set, hshare, h.sums f, List.map_append, List.sum_append,
      List.map_singleton, List.sum_singleton, sub_zero]
  have hlast : ∀ f : BuybackRecord → Int,
      ((log ++ [record]).map f).sum = (log.map f).sum + f record := by
    intro f
    rw [List.map_append, List.sum_append, List.map_singleton, List.sum_singleton]
  have hcount := h.count
  have hreserve := h.reserve
  have htotal := h.total
  have hread := h.read
  have hnext : (historyCount s).val = ((0 : Nat) : Int) + log.length := by omega
  refine ⟨?_, h.filed.push hnext record fun n => ?_, hsums, ?_, ?_, ?_, ?_⟩
  · rw [he.admin]
    exact h.admin
  · rw [he.history, Table.get_set]
  · rw [he.count, List.length_append, List.length_singleton]
    omega
  · rw [he.reserve, hlast, hreserve]
    unfold spent
    omega
  · rw [he.total, hlast, htotal]
    rfl
  · -- The exact sum is in range, so the reader's addition does not overflow.
    have hsum : ((readTotals log).1.checkedAdd record.xlmSpent) =
        some ⟨((log ++ [record]).map spent).sum, by rw [← hsums]; exact hrange.1,
          by rw [← hsums]; exact hrange.2⟩ := by
      rw [BoundedInt.checkedAdd_eq_some, hread]
      exact hlast spent
    unfold readTotals at hsum ⊢
    rw [List.foldl_append, List.foldl_cons, List.foldl_nil, addRecord, hsum]
    rfl

/-- The analytics, where they do not trap, are those of the log. -/
theorem analytics (h : Kept s log addedSum) {analytics : BuybackAnalytics}
    (ha : getBuybackAnalytics s = .ok analytics) :
    analytics.totalBuybacks = historyCount s ∧
      analytics.totalBstBought.val = Table.total bought s.buybackHistory ∧
      analytics.totalXlmSpent.val = Table.total spent s.buybackHistory := by
  have hloop : (historyCount s).upTo.foldl (addEntry s) (0, 0) = readTotals log := by
    rw [readTotals, ← h.filed.upTo h.count, List.foldl_filterMap]
    congr 1
    funext totals i
    unfold addEntry
    cases s.buybackHistory.get i with
    | none => rfl
    | some record => rfl
  have hbought := h.total
  rw [h.sums, h.sums]
  unfold getBuybackAnalytics at ha
  dsimp only at ha
  split at ha
  · next hzero =>
    cases pure_eq_ok.mp ha
    have hcount := h.count
    rw [hzero] at hcount
    have hlen : (0 : Int) = log.length := hcount
    have hnil : log = [] := List.eq_nil_of_length_eq_zero (by omega)
    subst hnil
    exact ⟨hzero.symm, rfl, rfl⟩
  · rw [hloop] at ha
    obtain ⟨averagePrice, _, ha⟩ := bind_eq_ok.mp ha
    cases pure_eq_ok.mp ha
    exact ⟨rfl, hbought, h.read⟩

end Kept

variable [DecidableEq Address]

section Steps

variable {s s' : Storage Address} {i : Env Address × Call Address}

/-- An accepted call on an initialised contract adds to the reserve and leaves the
history, or it is a buyback and adds nothing. -/
theorem exec_ok (hadmin : s.admin.isSome) (h : exec s i = .ok s') :
    (s'.admin = s.admin ∧ s'.buybackHistory = s.buybackHistory ∧
        historyCount s' = historyCount s ∧ totalBought s' = totalBought s ∧
        (getReserveBalance s').val = (getReserveBalance s).val + added s i) ∨
      (added s i = 0 ∧ ∃ config record, s.buybackConfig = some config ∧ Executed s s' record ∧
        config.minReserveBalance.val ≤ (getReserveBalance s').val) := by
  obtain ⟨env, call⟩ := i
  cases call with
  | initializeContract admin tokenContract oracleContract dexContract dexPoolId =>
    rw [(initializeContract_ok h).1] at hadmin
    cases hadmin
  | updateConfig admin enabled priceThreshold maxBuybackAmount minReserveBalance
      buybackInterval =>
    obtain ⟨config, events, rfl⟩ := updateConfig_ok h
    exact .inl ⟨rfl, rfl, rfl, rfl, (Int.add_zero _).symm⟩
  | checkAndExecuteBuyback =>
    rcases checkAndExecuteBuyback_ok h with rfl | hexecuted
    · exact .inl ⟨rfl, rfl, rfl, rfl, (Int.add_zero _).symm⟩
    · exact .inr ⟨rfl, hexecuted⟩
  | manualBuyback admin maxXlmAmount => exact .inr ⟨rfl, manualBuyback_ok h⟩
  | addToReserve from_ amount =>
    obtain ⟨_, _, reserve, hreserve, rfl⟩ := addToReserve_ok.mp h
    exact .inl ⟨rfl, rfl, rfl, rfl, hreserve⟩

theorem Kept.step {log : List BuybackRecord} {addedSum : Int} (h : Kept s log addedSum)
    (he : exec s i = .ok s') (hrange : SpentInRange s') :
    ∃ log', Kept s' log' (addedSum + added s i) := by
  rcases exec_ok h.admin he with ⟨hadmin, hhistory, hcount, htotal, hreserve⟩ |
    ⟨hzero, config, record, _, hexecuted, _⟩
  · refine ⟨log, ⟨?_, ?_, ?_, ?_, ?_, ?_, h.read⟩⟩
    · rw [hadmin]
      exact h.admin
    · rw [hhistory]
      exact h.filed
    · rw [hhistory]
      exact h.sums
    · rw [hcount]
      exact h.count
    · rw [hreserve, h.reserve]
      omega
    · rw [htotal]
      exact h.total
  · rw [hzero, Int.add_zero]
    exact ⟨log ++ [record], h.executed hexecuted hrange⟩

end Steps

/-! ## Runs -/

section Runs

variable {s₀ : Storage Address}

theorem Initialised.kept (h : Initialised s₀) : Kept s₀ [] 0 := by
  obtain ⟨env, admin, tokenContract, oracleContract, dexContract, dexPoolId, h⟩ := h
  obtain ⟨_, hadmin, hhistory, hcount, htotal, hreserve⟩ := initializeContract_ok h
  have hempty : s₀.buybackHistory = ∅ := hhistory
  refine ⟨by rw [hadmin]; rfl, ?_, ?_, ?_, ?_, ?_, rfl⟩
  · rw [hempty]
    exact Filed.empty
  · intro f
    rw [hempty]
    rfl
  · rw [historyCount, hcount]
    rfl
  · rw [getReserveBalance, hreserve]
    rfl
  · rw [totalBought, htotal]
    rfl

/-- In a run in which the exact sum of what was spent stays in range, the counters go
along with a log. -/
theorem kept_after (h : Initialised s₀) (past : List (Env Address × Call Address))
    (hrange : ∀ earlier, earlier <:+ past → SpentInRange (after exec s₀ earlier)) :
    ∃ log, Kept (after exec s₀ past) log (accumulated exec s₀ added past) := by
  induction past with
  | nil => exact ⟨[], h.kept⟩
  | cons i past ih =>
    obtain ⟨log, hlog⟩ := ih fun earlier hs => hrange earlier (hs.trans (List.suffix_cons i past))
    have hlast := hrange (i :: past) (List.suffix_refl _)
    cases he : exec (after exec s₀ past) i with
    | ok s' =>
      rw [after, apply_ok he] at hlast ⊢
      rw [accumulated_ok he]
      exact hlog.step he hlast
    | error t =>
      rw [after, apply_error he, accumulated_error he]
      exact ⟨log, hlog⟩

/-- In every run in which the exact sum of what was spent stays in range: the reserve is
what was added less what was spent, the total is what was bought, the history has as many
entries as are counted, the analytics report these sums, and no buyback leaves less in
the reserve than the configuration of its call asks for. -/
theorem reserve_accounted (h : Initialised s₀) (past : List (Env Address × Call Address))
    (hrange : ∀ earlier, earlier <:+ past → SpentInRange (after exec s₀ earlier)) :
    (getReserveBalance (after exec s₀ past)).val = accumulated exec s₀ added past -
        Table.total (fun record => record.xlmSpent.val) (after exec s₀ past).buybackHistory ∧
    (totalBought (after exec s₀ past)).val =
        Table.total (fun record => record.amountBought.val) (after exec s₀ past).buybackHistory ∧
    (∀ index, ((after exec s₀ past).buybackHistory.get index).isSome ↔
      index.val < (historyCount (after exec s₀ past)).val) ∧
    (∀ analytics, getBuybackAnalytics (after exec s₀ past) = .ok analytics →
      analytics.totalBuybacks = historyCount (after exec s₀ past) ∧
      analytics.totalBstBought.val =
        Table.total (fun record => record.amountBought.val) (after exec s₀ past).buybackHistory ∧
      analytics.totalXlmSpent.val =
        Table.total (fun record => record.xlmSpent.val) (after exec s₀ past).buybackHistory) ∧
    ∀ i earlier s', i :: earlier <:+ past → exec (after exec s₀ earlier) i = .ok s' →
      historyCount s' ≠ historyCount (after exec s₀ earlier) →
      ∃ config, (after exec s₀ earlier).buybackConfig = some config ∧
        config.minReserveBalance.val ≤ (getReserveBalance s').val := by
  obtain ⟨log, hlog⟩ := kept_after h past hrange
  refine ⟨?_, ?_, fun index => ?_, fun analytics ha => hlog.analytics ha, ?_⟩
  · rw [hlog.reserve, ← hlog.sums]
    rfl
  · rw [hlog.total, ← hlog.sums]
    rfl
  · have hlo := index.lo_le
    have hcount := hlog.count
    rw [hlog.filed.isSome_iff]
    omega
  · intro i earlier s' hsuf he hne
    have hsuf' := (List.suffix_cons i earlier).trans hsuf
    obtain ⟨log', hlog'⟩ := kept_after h earlier fun e hs => hrange e (hs.trans hsuf')
    rcases exec_ok hlog'.admin he with ⟨_, _, hcount, _⟩ | ⟨_, config, _, hconfig, _, hmin⟩
    · exact absurd hcount hne
    · exact ⟨config, hconfig, hmin⟩

/-- 30000000000 go into the reserve; the admin enables buybacks, one is executed at ledger
1000, and the admin takes 5 by hand, which puts 5 back. -/
def exampleBuybackRun : List (Env Nat × Call Nat) :=
  [(exampleEnv (.lit 1200) [1], .manualBuyback 1 (.lit (-5))),
    (exampleEnv (.lit 1000) [], .checkAndExecuteBuyback),
    (exampleEnv 0 [1], .updateConfig 1 (some true) none none none none),
    (exampleEnv 0 [7], .addToReserve 7 (.lit 30000000000))]

theorem reserve_accounted_example :
    (getReserveBalance (after exec exampleBuyback exampleBuybackRun)).val =
      30000000000 - Table.total (fun record => record.xlmSpent.val)
        (after exec exampleBuyback exampleBuybackRun).buybackHistory := by
  have hrange : ∀ earlier ∈ exampleBuybackRun.tails,
      SpentInRange (after exec exampleBuyback earlier) := by decide +kernel
  have hadded : accumulated exec exampleBuyback added exampleBuybackRun = 30000000000 := by
    decide +kernel
  rw [← hadded]
  exact (reserve_accounted exampleBuyback_initialised exampleBuybackRun fun earlier hs =>
    hrange earlier ((List.mem_tails _ _).mpr hs)).1

end Runs

end Scoopdope.Buyback

/-!
## Buybacks: what is spent and what is bought

The routine that executes a buyback caps what is bought and spends what it was given. The
check gives it no more than the cap costs, so the cap never bites
(`cap_covers_cost`); the admin's call gives it any amount that the reserve has, and the
routine spends all of it and buys the cap.

The two callers are taken with any oracle in place of the mock price.
-/

namespace Scoopdope.Buyback

open Soroban

variable {Address : Type}

/-! ## One buyback -/

/-- A buyback that spends something and buys what that pays for. -/
def SpendsWhatItBuys (record : BuybackRecord) : Prop :=
  0 < record.xlmSpent.val ∧
    record.amountBought.val = record.xlmSpent.val * 1000000 / record.bstPrice.val ∧
    0 ≤ record.amountBought.val

/-- Tokens for what `cap` of them cost are no more than `cap`. -/
theorem cap_covers_cost {xlm cap price scale : Int} (hscale : 0 < scale) (hprice : 0 < price)
    (hxlm : 0 < xlm) (h : xlm ≤ (cap * price).tdiv scale) : xlm * scale / price ≤ cap := by
  have hcost : 0 ≤ cap * price := by
    by_contra hneg
    have hle : (cap * price).tdiv scale ≤ (0 : Int).tdiv scale := Int.tdiv_le_tdiv hscale (by omega)
    rw [Int.zero_tdiv] at hle
    omega
  have hspent : xlm * scale ≤ cap * price := by
    rw [Int.tdiv_eq_ediv_of_nonneg hcost] at h
    exact (Int.le_ediv_iff_mul_le hscale).mp h
  calc xlm * scale / price ≤ cap * price / price := Int.ediv_le_ediv hprice hspent
    _ = cap := Int.mul_ediv_cancel cap hprice.ne'

section Steps

variable {env : Env Address} {s s' : Storage Address} {bstPrice : I128}

/-- The routine buys what it spends exactly when it spends something and the cap does not
bite. -/
theorem executed_exact_iff {xlmAmount : I128} {triggerReason : String} (hprice : 0 < bstPrice.val)
    (h : executeBuybackViaDex env s xlmAmount bstPrice triggerReason = .ok s') :
    ∃ config record, s.buybackConfig = some config ∧ Executed s s' record ∧
      record.bstPrice = bstPrice ∧ record.xlmSpent = xlmAmount ∧
      (SpendsWhatItBuys record ↔ 0 < xlmAmount.val ∧
        xlmAmount.val * 1000000 / bstPrice.val ≤ config.maxBuybackAmount.val) := by
  obtain ⟨config, estimated, hconfig, hestimated, hexecuted⟩ := executeBuybackViaDex_ok h
  refine ⟨config, _, hconfig, hexecuted, rfl, rfl, ?_⟩
  show 0 < xlmAmount.val ∧ (min estimated config.maxBuybackAmount).val =
    xlmAmount.val * 1000000 / bstPrice.val ∧ 0 ≤ (min estimated config.maxBuybackAmount).val ↔ _
  refine and_congr_right fun hpos => ?_
  have hpaid : 0 ≤ xlmAmount.val * 1000000 := Int.mul_nonneg hpos.le (by decide)
  have hfloor : 0 ≤ xlmAmount.val * 1000000 / bstPrice.val := Int.ediv_nonneg hpaid hprice.le
  rw [Int.tdiv_eq_ediv_of_nonneg hpaid] at hestimated
  rw [BoundedInt.min_val, hestimated]
  constructor
  · rintro ⟨hmin, _⟩
    exact min_eq_left_iff.mp hmin
  · intro hcap
    rw [min_eq_left hcap]
    exact ⟨rfl, hfloor⟩

theorem checkAndExecuteBuybackAt_exact {oracle : Storage Address → Outcome I128}
    (horacle : oracle s = .ok bstPrice) (hprice : 0 < bstPrice.val)
    (h : checkAndExecuteBuybackAt oracle env s = .ok s') :
    s' = s ∨ ∃ record, Executed s s' record ∧ record.bstPrice = bstPrice ∧
      SpendsWhatItBuys record := by
  rcases checkAndExecuteBuybackAt_ok h with rfl | ⟨config, _, xlmAmount, hconfig, horacle', hpos, _,
    hcost, hcall⟩
  · exact .inl rfl
  · cases horacle.symm.trans horacle'
    obtain ⟨config', record, hconfig', hexecuted, hat, _, hexact⟩ :=
      executed_exact_iff hprice hcall
    cases hconfig.symm.trans hconfig'
    exact .inr ⟨record, hexecuted, hat,
      hexact.mpr ⟨hpos, cap_covers_cost (by decide) hprice hpos hcost⟩⟩

variable [DecidableEq Address]

/-- For every configuration, reserve and positive price, what the check executes buys what
it spends, and what the admin executes does exactly when the amount is positive and what
it pays for is within the cap. -/
theorem spends_what_it_buys_iff {oracle : Storage Address → Outcome I128}
    (horacle : oracle s = .ok bstPrice) (hprice : 0 < bstPrice.val) :
    (∀ s', checkAndExecuteBuybackAt oracle env s = .ok s' →
      s' = s ∨ ∃ record, Executed s s' record ∧ record.bstPrice = bstPrice ∧
        SpendsWhatItBuys record) ∧
    (∀ admin maxXlmAmount s', manualBuybackAt oracle env s admin maxXlmAmount = .ok s' →
      ∃ config record, s.buybackConfig = some config ∧ Executed s s' record ∧
        record.bstPrice = bstPrice ∧ record.xlmSpent = maxXlmAmount ∧
        (SpendsWhatItBuys record ↔ 0 < maxXlmAmount.val ∧
          maxXlmAmount.val * 1000000 / bstPrice.val ≤ config.maxBuybackAmount.val)) := by
  refine ⟨fun s' h => ?_, fun admin maxXlmAmount s' h => ?_⟩
  · exact checkAndExecuteBuybackAt_exact horacle hprice h
  · obtain ⟨_, _, _, horacle', _, hcall⟩ := manualBuybackAt_ok h
    cases horacle.symm.trans horacle'
    exact executed_exact_iff hprice hcall

end Steps

/-- 30000000000 go into the reserve, and the admin enables buybacks of at most 100 each. -/
def exampleCappedRun : List (Env Nat × Call Nat) :=
  [(exampleEnv 0 [1], .updateConfig 1 (some true) none (some (.lit 100)) none none),
    (exampleEnv 0 [7], .addToReserve 7 (.lit 30000000000))]

/-- The admin spends 1000, which pays for 500000, and gets 100. -/
theorem capped_buyback_overspends :
    Initialised exampleBuyback ∧
      ∃ s', manualBuyback (exampleEnv 0 [1]) (after exec exampleBuyback exampleCappedRun) 1
          (.lit 1000) = .ok s' ∧
        ∃ record, s'.buybackHistory.get 0 = some record ∧ record.bstPrice.val = 2000 ∧
          record.xlmSpent.val = 1000 ∧ record.amountBought.val = 100 ∧
          ¬ SpendsWhatItBuys record := by
  refine ⟨exampleBuyback_initialised, _, rfl, ⟨0, 0, .lit 2000, .lit 100, .lit 1000, "manual"⟩,
    rfl, rfl, rfl, rfl, ?_⟩
  rintro ⟨_, hbought, _⟩
  exact absurd hbought (by decide)

/-- The same with the cap of the first configuration. -/
def exampleEnabledRun : List (Env Nat × Call Nat) :=
  [(exampleEnv 0 [1], .updateConfig 1 (some true) none none none none),
    (exampleEnv 0 [7], .addToReserve 7 (.lit 30000000000))]

theorem spends_what_it_buys_iff_enabled :
    ∃ s' record, manualBuyback (exampleEnv 0 [1]) (after exec exampleBuyback exampleEnabledRun) 1
        (.lit 1000) = .ok s' ∧
      s'.buybackHistory.get 0 = some record ∧ SpendsWhatItBuys record := by
  have horacle : getBstPrice (after exec exampleBuyback exampleEnabledRun) = .ok (.lit 2000) := rfl
  have hcall : ∃ s', manualBuyback (exampleEnv 0 [1]) (after exec exampleBuyback exampleEnabledRun)
      1 (.lit 1000) = .ok s' := ⟨_, rfl⟩
  obtain ⟨s', h⟩ := hcall
  obtain ⟨config, record, hconfig, hexecuted, _, _, hexact⟩ :=
    (spends_what_it_buys_iff horacle (by decide)).2 1 (.lit 1000) s' h
  have hfirst : historyCount (after exec exampleBuyback exampleEnabledRun) = 0 := rfl
  refine ⟨s', record, h, ?_, hexact.mpr ?_⟩
  · rw [hexecuted.history, hfirst, Table.get_set_self]
  · cases hconfig
    decide

end Scoopdope.Buyback

import Scoopdope.Soroban.Env
import Scoopdope.Soroban.Pages
import Scoopdope.Soroban.Table

/-!
# Buybacks: storage and entry points

`BuybackContract` (`contracts/buyback/src/lib.rs`). A field of the storage is one storage
key, or a table for a family of keys. Neither the oracle nor the exchange is called: the
price is a constant, and a buyback only moves numbers. Symbols are strings here, since
`symbol_short!("price_thresh")` has more characters than the macro takes; the calls of
`get_bst_price(env.clone())` are read as calls on the reference that the function takes.

The second half has, for each call that returned, the checks that passed and what it
wrote.
-/

namespace Scoopdope.Buyback

open Soroban

structure BuybackConfig where
  enabled : Bool
  priceThreshold : I128
  maxBuybackAmount : I128
  minReserveBalance : I128
  buybackInterval : U32
  dexPoolId : Bytes32

structure BuybackRecord where
  timestamp : U64
  ledger : U32
  bstPrice : I128
  amountBought : I128
  xlmSpent : I128
  triggerReason : String

structure BuybackAnalytics where
  totalBuybacks : U32
  totalBstBought : I128
  totalXlmSpent : I128
  averagePrice : I128
  lastBuybackTimestamp : U64

section Types

variable (Address : Type)

/-- Everything is in instance storage. -/
structure Storage where
  admin : Option Address
  tokenContract : Option Address
  oracleContract : Option Address
  dexContract : Option Address
  buybackConfig : Option BuybackConfig
  buybackHistory : Table U32 BuybackRecord
  buybackHistoryCount : Option U32
  lastBuybackLedger : Option U32
  totalBuybackAmount : Option I128
  buybackReserve : Option I128
  /-- The events published so far, newest first. -/
  events : List (Event Address)

/-- The storage of a contract just deployed. -/
def Storage.fresh : Storage Address where
  admin := none
  tokenContract := none
  oracleContract := none
  dexContract := none
  buybackConfig := none
  buybackHistory := ∅
  buybackHistoryCount := none
  lastBuybackLedger := none
  totalBuybackAmount := none
  buybackReserve := none
  events := []

end Types

variable {Address : Type}

/-- `env.events().publish(topics, data)`. -/
def Storage.publish (s : Storage Address) (topics data : List (Val Address)) : Storage Address :=
  { s with events := ⟨topics, data⟩ :: s.events }

/-! ## Readers -/

def historyCount (s : Storage Address) : U32 := s.buybackHistoryCount.getD 0

def totalBought (s : Storage Address) : I128 := s.totalBuybackAmount.getD 0

def getReserveBalance (s : Storage Address) : I128 := s.buybackReserve.getD 0

def getConfig (s : Storage Address) : Outcome BuybackConfig := unwrap s.buybackConfig

/-- The price is a mock; the address of the oracle must be there all the same. -/
def getBstPrice (s : Storage Address) : Outcome I128 := do
  let _oracleContract ← unwrap s.oracleContract
  pure (.lit 2000)

/-- What a record adds to the totals: nothing to the sum where the addition overflows. -/
def addRecord (totals : I128 × U64) (record : BuybackRecord) : I128 × U64 :=
  ((totals.1.checkedAdd record.xlmSpent).getD totals.1,
    max totals.2 record.timestamp)

/-- The loop body of `get_buyback_analytics`. -/
def addEntry (s : Storage Address) (totals : I128 × U64) (i : U32) : I128 × U64 :=
  match s.buybackHistory.get i with
  | some record => addRecord totals record
  | none => totals

def getBuybackAnalytics (s : Storage Address) : Outcome BuybackAnalytics := do
  let historyCount := historyCount s
  let totalBstBought := totalBought s
  if historyCount = 0 then
    pure { totalBuybacks := 0, totalBstBought := 0, totalXlmSpent := 0, averagePrice := 0,
           lastBuybackTimestamp := 0 }
  else
    let (totalXlmSpent, lastTimestamp) := historyCount.upTo.foldl (addEntry s) (0, 0)
    let averagePrice ← (if (0 : I128) < totalBstBought then
        totalXlmSpent.mulDiv (.lit 1000000) totalBstBought
      else pure 0)
    pure { totalBuybacks := historyCount, totalBstBought, totalXlmSpent, averagePrice,
           lastBuybackTimestamp := lastTimestamp }

def getBuybackHistory (s : Storage Address) (startIndex limit : U32) :
    Outcome (List BuybackRecord) :=
  readPage s.buybackHistory.get (historyCount s) startIndex limit

/-! ## Entry points -/

/-- A buyback for `xlm_amount`, at most as many tokens as the configuration allows. -/
def executeBuybackViaDex (env : Env Address) (s : Storage Address) (xlmAmount bstPrice : I128)
    (triggerReason : String) : Outcome (Storage Address) := do
  let config ← getConfig s
  let _dexContract ← unwrap s.dexContract
  let estimatedBstAmount ← xlmAmount.mulDiv (.lit 1000000) bstPrice
  let bstToBuy := min estimatedBstAmount config.maxBuybackAmount
  let reserveBalance ← expect ((getReserveBalance s).checkedSub xlmAmount) "arithmetic overflow"
  let s := { s with buybackReserve := some reserveBalance }
  let total ← expect ((totalBought s).checkedAdd bstToBuy) "arithmetic overflow"
  let s := { s with totalBuybackAmount := some total }
  let count := historyCount s
  let record : BuybackRecord :=
    { timestamp := env.timestamp, ledger := env.sequence, bstPrice, amountBought := bstToBuy,
      xlmSpent := xlmAmount, triggerReason }
  let s := { s with buybackHistory := s.buybackHistory.set count record }
  let next ← count.add (.lit 1)
  let s :=
    { s with buybackHistoryCount := some next, lastBuybackLedger := some env.sequence }
  pure (s.publish [.symbol "buyback", .symbol "amount"] [.i128 bstToBuy, .i128 xlmAmount])

def checkAndExecuteBuyback (env : Env Address) (s : Storage Address) :
    Outcome (Storage Address) := do
  let config ← getConfig s
  if config.enabled = false then pure s else
  let lastBuyback := s.lastBuybackLedger.getD 0
  let elapsed ← env.sequence.sub lastBuyback
  if elapsed < config.buybackInterval then pure s else
  let bstPrice ← getBstPrice s
  if bstPrice ≤ config.priceThreshold then pure s else
  let reserveBalance := getReserveBalance s
  if reserveBalance ≤ config.minReserveBalance then pure s else
  let availableForBuyback ← reserveBalance.sub config.minReserveBalance
  let xlmNeeded ← config.maxBuybackAmount.mulDiv bstPrice (.lit 1000000)
  let maxBuybackXlm := min availableForBuyback xlmNeeded
  if maxBuybackXlm ≤ 0 then pure s else
  executeBuybackViaDex env s maxBuybackXlm bstPrice "price_thresh"

variable [DecidableEq Address]

def initializeContract (env : Env Address) (s : Storage Address)
    (admin tokenContract oracleContract dexContract : Address) (dexPoolId : Bytes32) :
    Outcome (Storage Address) := do
  assert (s.admin.isSome = false) "Already initialized"
  env.requireAuth admin
  let config : BuybackConfig :=
    { enabled := false, priceThreshold := .lit 1000, maxBuybackAmount := .lit 1000000000000,
      minReserveBalance := .lit 10000000000, buybackInterval := .lit 1000, dexPoolId }
  pure { s with
    admin := some admin
    tokenContract := some tokenContract
    oracleContract := some oracleContract
    dexContract := some dexContract
    buybackConfig := some config
    buybackHistoryCount := some 0
    totalBuybackAmount := some 0
    buybackReserve := some 0
    lastBuybackLedger := some 0 }

def updateConfig (env : Env Address) (s : Storage Address) (admin : Address)
    (enabled : Option Bool) (priceThreshold maxBuybackAmount minReserveBalance : Option I128)
    (buybackInterval : Option U32) : Outcome (Storage Address) := do
  env.requireAuth admin
  let storedAdmin ← unwrap s.admin
  assert (admin = storedAdmin) "Only admin can update config"
  let config ← unwrap s.buybackConfig
  let config : BuybackConfig :=
    { config with
      enabled := enabled.getD config.enabled
      priceThreshold := priceThreshold.getD config.priceThreshold
      maxBuybackAmount := maxBuybackAmount.getD config.maxBuybackAmount
      minReserveBalance := minReserveBalance.getD config.minReserveBalance
      buybackInterval := buybackInterval.getD config.buybackInterval }
  let s := { s with buybackConfig := some config }
  pure (s.publish [.symbol "config_up", .symbol "admin"] [.address admin])

def manualBuyback (env : Env Address) (s : Storage Address) (admin : Address)
    (maxXlmAmount : I128) : Outcome (Storage Address) := do
  env.requireAuth admin
  let storedAdmin ← unwrap s.admin
  assert (admin = storedAdmin) "Only admin can execute manual buyback"
  let config ← getConfig s
  assert (config.enabled = true) "Buyback is disabled"
  let needed ← maxXlmAmount.add config.minReserveBalance
  assert (needed ≤ getReserveBalance s) "Insufficient reserve for buyback"
  let bstPrice ← getBstPrice s
  executeBuybackViaDex env s maxXlmAmount bstPrice "manual"

def addToReserve (env : Env Address) (s : Storage Address) (from_ : Address) (amount : I128) :
    Outcome (Storage Address) := do
  env.requireAuth from_
  assert ((0 : I128) < amount) "Amount must be positive"
  let reserveBalance ← expect ((getReserveBalance s).checkedAdd amount) "arithmetic overflow"
  pure { s with buybackReserve := some reserveBalance }

/-- A call of an entry point that can write, with its arguments. -/
inductive Call (Address : Type)
  | initializeContract (admin tokenContract oracleContract dexContract : Address)
      (dexPoolId : Bytes32)
  | updateConfig (admin : Address) (enabled : Option Bool)
      (priceThreshold maxBuybackAmount minReserveBalance : Option I128)
      (buybackInterval : Option U32)
  | checkAndExecuteBuyback
  | manualBuyback (admin : Address) (maxXlmAmount : I128)
  | addToReserve (from_ : Address) (amount : I128)

/-- One call in its environment. -/
def exec (s : Storage Address) (i : Env Address × Call Address) : Outcome (Storage Address) :=
  match i.2 with
  | .initializeContract admin tokenContract oracleContract dexContract dexPoolId =>
    initializeContract i.1 s admin tokenContract oracleContract dexContract dexPoolId
  | .updateConfig admin enabled priceThreshold maxBuybackAmount minReserveBalance
      buybackInterval =>
    updateConfig i.1 s admin enabled priceThreshold maxBuybackAmount minReserveBalance
      buybackInterval
  | .checkAndExecuteBuyback => checkAndExecuteBuyback i.1 s
  | .manualBuyback admin maxXlmAmount => manualBuyback i.1 s admin maxXlmAmount
  | .addToReserve from_ amount => addToReserve i.1 s from_ amount

/-! ## The callers with any oracle

The price of the source is a mock. With `getBstPrice` these are the functions above. -/

/-- `check_and_execute_buyback` with `oracle` in place of the mock price. -/
def checkAndExecuteBuybackAt (oracle : Storage Address → Outcome I128) (env : Env Address)
    (s : Storage Address) : Outcome (Storage Address) := do
  let config ← getConfig s
  if config.enabled = false then pure s else
  let lastBuyback := s.lastBuybackLedger.getD 0
  let elapsed ← env.sequence.sub lastBuyback
  if elapsed < config.buybackInterval then pure s else
  let bstPrice ← oracle s
  if bstPrice ≤ config.priceThreshold then pure s else
  let reserveBalance := getReserveBalance s
  if reserveBalance ≤ config.minReserveBalance then pure s else
  let availableForBuyback ← reserveBalance.sub config.minReserveBalance
  let xlmNeeded ← config.maxBuybackAmount.mulDiv bstPrice (.lit 1000000)
  let maxBuybackXlm := min availableForBuyback xlmNeeded
  if maxBuybackXlm ≤ 0 then pure s else
  executeBuybackViaDex env s maxBuybackXlm bstPrice "price_thresh"

/-- `manual_buyback` with `oracle` in place of the mock price. -/
def manualBuybackAt (oracle : Storage Address → Outcome I128)
    (env : Env Address) (s : Storage Address) (admin : Address) (maxXlmAmount : I128) :
    Outcome (Storage Address) := do
  env.requireAuth admin
  let storedAdmin ← unwrap s.admin
  assert (admin = storedAdmin) "Only admin can execute manual buyback"
  let config ← getConfig s
  assert (config.enabled = true) "Buyback is disabled"
  let needed ← maxXlmAmount.add config.minReserveBalance
  assert (needed ≤ getReserveBalance s) "Insufficient reserve for buyback"
  let bstPrice ← oracle s
  executeBuybackViaDex env s maxXlmAmount bstPrice "manual"

omit [DecidableEq Address] in
theorem checkAndExecuteBuyback_at (env : Env Address) (s : Storage Address) :
    checkAndExecuteBuyback env s = checkAndExecuteBuybackAt getBstPrice env s := rfl

theorem manualBuyback_at (env : Env Address) (s : Storage Address)
    (admin : Address) (maxXlmAmount : I128) :
    manualBuyback env s admin maxXlmAmount = manualBuybackAt getBstPrice env s admin maxXlmAmount :=
  rfl

/-! ## What an accepted call does -/

omit [DecidableEq Address]

/-- The record goes to the end of the history, and the reserve, the total and the count
change with it. -/
structure Executed (s s' : Storage Address) (record : BuybackRecord) : Prop where
  admin : s'.admin = s.admin
  config : s'.buybackConfig = s.buybackConfig
  history : s'.buybackHistory = s.buybackHistory.set (historyCount s) record
  count : (historyCount s').val = (historyCount s).val + 1
  reserve : (getReserveBalance s').val = (getReserveBalance s).val - record.xlmSpent.val
  total : (totalBought s').val = (totalBought s).val + record.amountBought.val

section Steps

variable {env : Env Address} {s s' : Storage Address} {admin : Address}

theorem executeBuybackViaDex_ok {xlmAmount bstPrice : I128} {triggerReason : String}
    (h : executeBuybackViaDex env s xlmAmount bstPrice triggerReason = .ok s') :
    ∃ (config : BuybackConfig) (estimated : I128), s.buybackConfig = some config ∧
      estimated.val = (xlmAmount.val * 1000000).tdiv bstPrice.val ∧
      Executed s s' ⟨env.timestamp, env.sequence, bstPrice, min estimated config.maxBuybackAmount,
        xlmAmount, triggerReason⟩ := by
  simp only [executeBuybackViaDex, getConfig, bind_eq_ok, unwrap_eq_ok, expect_eq_ok,
    BoundedInt.checkedSub_eq_some, BoundedInt.checkedAdd_eq_some, BoundedInt.add_eq_ok,
    pure_eq_ok] at h
  obtain ⟨config, hconfig, _, _, estimated, hestimated, reserve, hreserve, total, htotal, next,
    hnext, rfl⟩ := h
  exact ⟨config, estimated, hconfig, (BoundedInt.mulDiv_ok hestimated).2,
    ⟨rfl, rfl, rfl, hnext, hreserve, htotal⟩⟩

/-- The check executes nothing, or what is above the least reserve, up to what the cap
costs. -/
theorem checkAndExecuteBuybackAt_ok {oracle : Storage Address → Outcome I128}
    (h : checkAndExecuteBuybackAt oracle env s = .ok s') :
    s' = s ∨ ∃ (config : BuybackConfig) (bstPrice xlmAmount : I128),
      s.buybackConfig = some config ∧ oracle s = .ok bstPrice ∧ 0 < xlmAmount.val ∧
      xlmAmount.val ≤ (getReserveBalance s).val - config.minReserveBalance.val ∧
      xlmAmount.val ≤ (config.maxBuybackAmount.val * bstPrice.val).tdiv 1000000 ∧
      executeBuybackViaDex env s xlmAmount bstPrice "price_thresh" = .ok s' := by
  simp only [checkAndExecuteBuybackAt, getConfig, bind_eq_ok, unwrap_eq_ok] at h
  obtain ⟨config, hconfig, h⟩ := h
  split at h
  · exact .inl (pure_eq_ok.mp h).symm
  obtain ⟨elapsed, _, h⟩ := bind_eq_ok.mp h
  split at h
  · exact .inl (pure_eq_ok.mp h).symm
  obtain ⟨bstPrice, horacle, h⟩ := bind_eq_ok.mp h
  split at h
  · exact .inl (pure_eq_ok.mp h).symm
  split at h
  · exact .inl (pure_eq_ok.mp h).symm
  obtain ⟨available, havailable, h⟩ := bind_eq_ok.mp h
  obtain ⟨xlmNeeded, hneeded, h⟩ := bind_eq_ok.mp h
  split at h
  · exact .inl (pure_eq_ok.mp h).symm
  next hpos =>
  have hmin : (min available xlmNeeded).val = min available.val xlmNeeded.val :=
    BoundedInt.min_val _ _
  have hspent : 0 < (min available xlmNeeded).val := not_le.mp hpos
  refine .inr ⟨config, bstPrice, min available xlmNeeded, hconfig, horacle, hspent, ?_, ?_, h⟩
  · rw [hmin, ← BoundedInt.sub_eq_ok.mp havailable]
    exact min_le_left _ _
  · rw [hmin]
    exact (min_le_right _ _).trans_eq (BoundedInt.mulDiv_ok hneeded).2

/-- The reserve that the check leaves is at least what must stay in it. -/
theorem checkAndExecuteBuyback_ok (h : checkAndExecuteBuyback env s = .ok s') :
    s' = s ∨ ∃ config record, s.buybackConfig = some config ∧ Executed s s' record ∧
      config.minReserveBalance.val ≤ (getReserveBalance s').val := by
  rw [checkAndExecuteBuyback_at] at h
  rcases checkAndExecuteBuybackAt_ok h with rfl | ⟨config, _, xlmAmount, hconfig, _, _, havailable,
    _, hcall⟩
  · exact .inl rfl
  · obtain ⟨_, _, _, _, hexecuted⟩ := executeBuybackViaDex_ok hcall
    refine .inr ⟨config, _, hconfig, hexecuted, ?_⟩
    rw [hexecuted.reserve]
    show _ ≤ _ - xlmAmount.val
    omega

variable [DecidableEq Address]

theorem initializeContract_ok {tokenContract oracleContract dexContract : Address}
    {dexPoolId : Bytes32}
    (h : initializeContract env s admin tokenContract oracleContract dexContract dexPoolId =
      .ok s') :
    s.admin.isSome = false ∧ s'.admin = some admin ∧ s'.buybackHistory = s.buybackHistory ∧
      s'.buybackHistoryCount = some 0 ∧ s'.totalBuybackAmount = some 0 ∧
      s'.buybackReserve = some 0 := by
  simp only [initializeContract, bind_eq_ok, assert_eq_ok, Env.requireAuth_eq_ok, exists_const,
    pure_eq_ok] at h
  obtain ⟨hnone, _, rfl⟩ := h
  exact ⟨hnone, rfl, rfl, rfl, rfl, rfl⟩

theorem updateConfig_ok {enabled : Option Bool}
    {priceThreshold maxBuybackAmount minReserveBalance : Option I128}
    {buybackInterval : Option U32}
    (h : updateConfig env s admin enabled priceThreshold maxBuybackAmount minReserveBalance
      buybackInterval = .ok s') :
    ∃ config events, s' = { s with buybackConfig := some config, events := events } := by
  simp only [updateConfig, bind_eq_ok, assert_eq_ok, Env.requireAuth_eq_ok, unwrap_eq_ok,
    exists_const, pure_eq_ok] at h
  obtain ⟨_, _, _, _, _, _, rfl⟩ := h
  exact ⟨_, _, rfl⟩

theorem manualBuybackAt_ok {oracle : Storage Address → Outcome I128} {maxXlmAmount : I128}
    (h : manualBuybackAt oracle env s admin maxXlmAmount = .ok s') :
    ∃ (config : BuybackConfig) (bstPrice : I128),
      s.buybackConfig = some config ∧ oracle s = .ok bstPrice ∧
      maxXlmAmount.val ≤ (getReserveBalance s).val - config.minReserveBalance.val ∧
      executeBuybackViaDex env s maxXlmAmount bstPrice "manual" = .ok s' := by
  simp only [manualBuybackAt, getConfig, bind_eq_ok, assert_eq_ok, Env.requireAuth_eq_ok,
    unwrap_eq_ok, BoundedInt.add_eq_ok, exists_const] at h
  obtain ⟨_, _, _, _, config, hconfig, _, needed, hneeded, hle, bstPrice, horacle, h⟩ := h
  have hle' := BoundedInt.le_def.mp hle
  exact ⟨config, bstPrice, hconfig, horacle, by omega, h⟩

theorem manualBuyback_ok {maxXlmAmount : I128}
    (h : manualBuyback env s admin maxXlmAmount = .ok s') :
    ∃ config record, s.buybackConfig = some config ∧ Executed s s' record ∧
      config.minReserveBalance.val ≤ (getReserveBalance s').val := by
  rw [manualBuyback_at] at h
  obtain ⟨config, _, hconfig, _, havailable, hcall⟩ := manualBuybackAt_ok h
  obtain ⟨_, _, _, _, hexecuted⟩ := executeBuybackViaDex_ok hcall
  refine ⟨config, _, hconfig, hexecuted, ?_⟩
  rw [hexecuted.reserve]
  show _ ≤ _ - maxXlmAmount.val
  omega

theorem addToReserve_ok {from_ : Address} {amount : I128} :
    addToReserve env s from_ amount = .ok s' ↔
      from_ ∈ env.auths ∧ 0 < amount.val ∧ ∃ reserve : I128,
        reserve.val = (getReserveBalance s).val + amount.val ∧
        s' = { s with buybackReserve := some reserve } := by
  simp only [addToReserve, bind_eq_ok, assert_eq_ok, Env.requireAuth_eq_ok, expect_eq_ok,
    BoundedInt.checkedAdd_eq_some, exists_const, pure_eq_ok, BoundedInt.lt_def,
    BoundedInt.i128_zero_val, @eq_comm _ s']

end Steps

/-! ## Initialised storages -/

/-- The storage after `initialize`. -/
def Initialised (s : Storage Address) : Prop :=
  ∃ env admin tokenContract oracleContract dexContract dexPoolId,
    initializeContract env (Storage.fresh Address) admin tokenContract oracleContract dexContract
      dexPoolId = .ok s

/-- The contract with contract 1 as admin. -/
def exampleBuyback : Storage Nat where
  admin := some 1
  tokenContract := some 2
  oracleContract := some 3
  dexContract := some 4
  buybackConfig := some
    { enabled := false, priceThreshold := .lit 1000, maxBuybackAmount := .lit 1000000000000,
      minReserveBalance := .lit 10000000000, buybackInterval := .lit 1000,
      dexPoolId := Vector.replicate 32 0 }
  buybackHistory := ∅
  buybackHistoryCount := some 0
  lastBuybackLedger := some 0
  totalBuybackAmount := some 0
  buybackReserve := some 0
  events := []

theorem exampleBuyback_initialised : Initialised exampleBuyback :=
  ⟨exampleEnv 0 [1], 1, 2, 3, 4, Vector.replicate 32 0, rfl⟩

end Scoopdope.Buyback

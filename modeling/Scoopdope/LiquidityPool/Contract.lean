import Scoopdope.Soroban.Env
import Scoopdope.Soroban.Pages
import Scoopdope.Soroban.Table

/-!
# Liquidity pool: types, storage and entry points

`LiquidityPoolContract` of `contracts/liquidity_pool/src/lib.rs`. Each entry
point takes the environment, the storage and its arguments, in the order of its
checks and writes. The token transfers are comments in the source, so the
reserves are numbers the contract keeps for itself.

`Liquidity(addr)` is two families of keys: the users' balances are persistent,
the entry of the pool's own address is in instance storage.
-/

namespace Scoopdope.LiquidityPool

open Soroban

/-! ## Types and storage -/

section Types

variable (Address : Type)

structure PoolConfig where
  feeNumerator : U32
  feeDenominator : U32
  swapEnabled : Bool
  addLiquidityEnabled : Bool
  removeLiquidityEnabled : Bool

structure SwapRecord where
  timestamp : U64
  user : Address
  tokenIn : String
  amountIn : I128
  tokenOut : String
  amountOut : I128
  fee : I128

structure MiningConfig where
  enabled : Bool
  /-- BST tokens per ledger per liquidity unit. -/
  rewardRate : I128
  rewardToken : Address

structure PoolStats where
  reserveA : I128
  reserveB : I128
  totalLiquidity : I128
  volume24h : I128
  fees24h : I128
  priceBstXlm : I128

structure Storage where
  /- Instance storage. -/
  admin : Option Address
  tokenA : Option Address
  reserveA : Option I128
  reserveB : Option I128
  totalLiquidity : Option I128
  ownLiquidity : Table Address I128
  feeCollector : Option Address
  poolConfig : Option PoolConfig
  swapHistory : Table U32 (SwapRecord Address)
  swapHistoryCount : Option U32
  miningConfig : Option (MiningConfig Address)
  /- Persistent storage. -/
  liquidity : Table Address I128
  miningRewards : Table Address I128
  /-- The events published so far, newest first. -/
  events : List (Event Address)

/-- The storage of a contract nobody has called yet. -/
def Storage.fresh : Storage Address where
  admin := none
  tokenA := none
  reserveA := none
  reserveB := none
  totalLiquidity := none
  ownLiquidity := ∅
  feeCollector := none
  poolConfig := none
  swapHistory := ∅
  swapHistoryCount := none
  miningConfig := none
  liquidity := ∅
  miningRewards := ∅
  events := []

end Types

variable {Address : Type}

/-- `env.events().publish(topics, data)`. -/
def Storage.publish (s : Storage Address) (topics data : List (Val Address)) : Storage Address :=
  { s with events := ⟨topics, data⟩ :: s.events }

/-! ## Internal helpers -/

/-- `MINIMUM_LIQUIDITY`. -/
def minimumLiquidity : I128 := .lit 1000

def reserveA (s : Storage Address) : I128 := s.reserveA.getD 0
def reserveB (s : Storage Address) : I128 := s.reserveB.getD 0
def totalLiquidity (s : Storage Address) : I128 := s.totalLiquidity.getD 0

def quote (amountA reserveA reserveB : I128) : Outcome I128 := do
  assert (0 < reserveA ∧ 0 < reserveB) "Insufficient reserves"
  amountA.mulDiv reserveB reserveA

/-- The loop of `sqrt`. It ends because `y` falls on every round. -/
def sqrtLoop (x z y : I128) : Outcome I128 :=
  if z < y then do
    let xDivZ ← x.div z
    let sum ← expect (xDivZ.checkedAdd z)
      "Overflow in sqrt calculation: sum exceeded i128::MAX"
    let z' ← sum.div (.lit 2)
    sqrtLoop x z' z
  else
    pure y
termination_by (y.val - -170141183460469231731687303715884105728).toNat
decreasing_by
  next h =>
    have hlt : z.val < y.val := h
    have hlo := z.lo_le
    omega

def sqrt (x : I128) : Outcome I128 :=
  if x = 0 ∨ x = .lit 1 then
    pure x
  else do
    assert (x ≤ .lit 85070591730234615865843651857942052863)
      "Input value too large for sqrt calculation"
    let next ← x.add (.lit 1)
    let z ← next.div (.lit 2)
    sqrtLoop x z x

/-- The amounts `add_liquidity` takes. -/
def depositAmounts (totalLiquidity reserveA reserveB amountADesired amountBDesired amountAMin
    amountBMin : I128) : Outcome (I128 × I128) :=
  if totalLiquidity = 0 then
    -- First liquidity provision
    pure (amountADesired, amountBDesired)
  else do
    -- Subsequent liquidity provision - maintain ratio
    let amountBOptimal ← quote amountADesired reserveA reserveB
    if amountBOptimal ≤ amountBDesired then do
      assert (amountBMin ≤ amountBOptimal) "Insufficient B amount"
      pure (amountADesired, amountBOptimal)
    else do
      let amountAOptimal ← quote amountBDesired reserveB reserveA
      assert (amountAOptimal ≤ amountADesired) "Insufficient A amount"
      assert (amountAMin ≤ amountAOptimal) "Insufficient A amount"
      pure (amountAOptimal, amountBDesired)

/-- The liquidity tokens `add_liquidity` mints for the amounts it takes. -/
def mintedLiquidity (totalLiquidity reserveA reserveB amountA amountB : I128) : Outcome I128 :=
  if totalLiquidity = 0 then do
    let product ← amountA.mul amountB
    let root ← sqrt product
    pure ((root.checkedSub minimumLiquidity).getD 0)
  else do
    let liquidityMintedA ← amountA.mulDiv totalLiquidity reserveA
    let liquidityMintedB ← amountB.mulDiv totalLiquidity reserveB
    pure (min liquidityMintedA liquidityMintedB)

/-- The reserve that `token_in` is paid into and the one that is paid out of. -/
def swapReserves (tokenIn : String) (reserveA reserveB : I128) : Outcome (I128 × I128) :=
  if tokenIn = "bst" then
    pure (reserveA, reserveB)
  else if tokenIn = "xlm" then
    pure (reserveB, reserveA)
  else
    .error (.panic "Invalid token")

/-- The output amount of `swap`, with the fee taken from the input. -/
def swapOutput (config : PoolConfig) (amountIn reserveIn reserveOut : I128) : Outcome I128 := do
  let feeNum := config.feeNumerator.u32AsI128
  let feeDenom := config.feeDenominator.u32AsI128
  let factor ← feeDenom.sub feeNum
  let amountInWithFee ← amountIn.mul factor
  let numerator ← amountInWithFee.mul reserveOut
  let scaled ← reserveIn.mul feeDenom
  let denominator ← scaled.add amountInWithFee
  numerator.div denominator

/-- "Update reserves" of `swap`. -/
def swapUpdate (s : Storage Address) (tokenIn : String) (reserveA reserveB amountIn amountOut : I128) :
    Outcome (Storage Address) :=
  if tokenIn = "bst" then do
    let a ← reserveA.add amountIn
    let b ← reserveB.sub amountOut
    pure { s with reserveA := some a, reserveB := some b }
  else if tokenIn = "xlm" then do
    let b ← reserveB.add amountIn
    let a ← reserveA.sub amountOut
    pure { s with reserveA := some a, reserveB := some b }
  else
    pure s

/-! ## Entry points -/

variable [DecidableEq Address]

def getUserLiquidity (s : Storage Address) (user : Address) : I128 := s.liquidity.amount user

def getPoolStats (s : Storage Address) : Outcome PoolStats := do
  let priceBstXlm ←
    if 0 < reserveA s then (reserveB s).mulDiv (.lit 1000000) (reserveA s) else pure 0
  pure { reserveA := reserveA s, reserveB := reserveB s, totalLiquidity := totalLiquidity s,
         volume24h := 0, fees24h := 0, priceBstXlm }

def historyCount (s : Storage Address) : U32 := s.swapHistoryCount.getD 0

def getSwapHistory (s : Storage Address) (startIndex limit : U32) :
    Outcome (List (SwapRecord Address)) :=
  readPage s.swapHistory.get (historyCount s) startIndex limit

def initializeContract (env : Env Address) (s : Storage Address)
    (admin bstToken feeCollector : Address) : Outcome (Storage Address) := do
  assert (s.admin.isSome = false) "Already initialized"
  env.requireAuth admin
  pure { s with
    admin := some admin
    tokenA := some bstToken
    feeCollector := some feeCollector
    reserveA := some 0
    reserveB := some 0
    totalLiquidity := some 0
    poolConfig := some {
      feeNumerator := .lit 3
      feeDenominator := .lit 1000
      swapEnabled := true
      addLiquidityEnabled := true
      removeLiquidityEnabled := true }
    miningConfig := some { enabled := true, rewardRate := .lit 100, rewardToken := bstToken }
    swapHistoryCount := some 0 }

/-- The liquidity minted and the storage afterwards. -/
def addLiquidity (env : Env Address) (s : Storage Address) (provider : Address)
    (amountADesired amountBDesired amountAMin amountBMin : I128) :
    Outcome (I128 × Storage Address) := do
  env.requireAuth provider
  let config ← unwrap s.poolConfig
  assert (config.addLiquidityEnabled = true) "Adding liquidity is disabled"
  let (amountA, amountB) ← depositAmounts (totalLiquidity s) (reserveA s) (reserveB s)
    amountADesired amountBDesired amountAMin amountBMin
  assert (amountAMin ≤ amountA) "Insufficient A amount"
  assert (amountBMin ≤ amountB) "Insufficient B amount"
  let liquidityMinted ← mintedLiquidity (totalLiquidity s) (reserveA s) (reserveB s) amountA amountB
  -- Mint MINIMUM_LIQUIDITY to the pool itself on the first provision
  let ownLiquidity :=
    if totalLiquidity s = 0 then s.ownLiquidity.set env.currentContractAddress minimumLiquidity
    else s.ownLiquidity
  assert (0 < liquidityMinted) "Insufficient liquidity minted"
  let newReserveA ← (reserveA s).add amountA
  let newReserveB ← (reserveB s).add amountB
  let newTotalLiquidity ← (totalLiquidity s).add liquidityMinted
  let newUserLiquidity ← (s.liquidity.amount provider).add liquidityMinted
  let s := { s with
    ownLiquidity
    reserveA := some newReserveA
    reserveB := some newReserveB
    totalLiquidity := some newTotalLiquidity
    liquidity := s.liquidity.set provider newUserLiquidity }
  pure (liquidityMinted, s.publish [.symbol "add_liq", .symbol "provider"]
    [.address provider, .i128 amountA, .i128 amountB, .i128 liquidityMinted])

/-- The two amounts paid out and the storage afterwards. -/
def removeLiquidity (env : Env Address) (s : Storage Address) (provider : Address)
    (liquidity : I128) : Outcome ((I128 × I128) × Storage Address) := do
  env.requireAuth provider
  let config ← unwrap s.poolConfig
  assert (config.removeLiquidityEnabled = true) "Removing liquidity is disabled"
  let userLiquidity := s.liquidity.amount provider
  assert (liquidity ≤ userLiquidity) "Insufficient liquidity"
  let amountA ← liquidity.mulDiv (reserveA s) (totalLiquidity s)
  let amountB ← liquidity.mulDiv (reserveB s) (totalLiquidity s)
  assert (0 < amountA ∧ 0 < amountB) "Insufficient amounts"
  let newUserLiquidity ← userLiquidity.sub liquidity
  let newTotalLiquidity ← (totalLiquidity s).sub liquidity
  let newReserveA ← (reserveA s).sub amountA
  let newReserveB ← (reserveB s).sub amountB
  let s := { s with
    liquidity := s.liquidity.set provider newUserLiquidity
    totalLiquidity := some newTotalLiquidity
    reserveA := some newReserveA
    reserveB := some newReserveB }
  pure ((amountA, amountB), s.publish [.symbol "rem_liq", .symbol "provider"]
    [.address provider, .i128 amountA, .i128 amountB, .i128 liquidity])

/-- The amount paid out and the storage afterwards. -/
def swap (env : Env Address) (s : Storage Address) (user : Address) (tokenIn : String)
    (amountIn amountOutMin : I128) : Outcome (I128 × Storage Address) := do
  env.requireAuth user
  let config ← unwrap s.poolConfig
  assert (config.swapEnabled = true) "Swapping is disabled"
  assert (0 < amountIn) "Amount in must be positive"
  let (reserveIn, reserveOut) ← swapReserves tokenIn (reserveA s) (reserveB s)
  let amountOut ← swapOutput config amountIn reserveIn reserveOut
  assert (amountOutMin ≤ amountOut) "Insufficient output amount"
  assert (amountOut ≤ reserveOut) "Insufficient liquidity"
  let s ← swapUpdate s tokenIn (reserveA s) (reserveB s) amountIn amountOut
  let fee ← amountIn.mulDiv config.feeNumerator.u32AsI128 config.feeDenominator.u32AsI128
  -- Record swap history
  let historyCount := s.swapHistoryCount.getD 0
  let tokenOut := if tokenIn = "bst" then "xlm" else "bst"
  let record : SwapRecord Address :=
    { timestamp := env.timestamp, user, tokenIn, amountIn, tokenOut, amountOut, fee }
  let nextCount ← historyCount.add (.lit 1)
  let s := { s with
    swapHistory := s.swapHistory.set historyCount record
    swapHistoryCount := some nextCount }
  pure (amountOut, s.publish [.symbol "swap", .symbol "user"]
    [.address user, .i128 amountIn, .i128 amountOut])

/-- The rewards and the storage afterwards. -/
def claimMiningRewards (env : Env Address) (s : Storage Address) (user : Address) :
    Outcome (I128 × Storage Address) := do
  env.requireAuth user
  let miningConfig ← unwrap s.miningConfig
  assert (miningConfig.enabled = true) "Mining rewards are disabled"
  let userLiquidity := s.liquidity.amount user
  if userLiquidity = 0 then
    pure (0, s)
  else do
    let rewards ← userLiquidity.mulDiv miningConfig.rewardRate (.lit 1000000)
    let s := { s with miningRewards := s.miningRewards.set user 0 }
    pure (rewards, s.publish [.symbol "claim_rew", .symbol "user"] [.address user, .i128 rewards])

/-! ## Calls -/

/-- A call of an entry point that can write, with its arguments. -/
inductive Call (Address : Type)
  | initializeContract (admin bstToken feeCollector : Address)
  | addLiquidity (provider : Address)
      (amountADesired amountBDesired amountAMin amountBMin : I128)
  | removeLiquidity (provider : Address) (liquidity : I128)
  | swap (user : Address) (tokenIn : String) (amountIn amountOutMin : I128)
  | claimMiningRewards (user : Address)

/-- One call in its environment. The returned value is dropped; the entry
points above have it. -/
def exec (s : Storage Address) (i : Env Address × Call Address) : Outcome (Storage Address) :=
  match i.2 with
  | .initializeContract admin bstToken feeCollector =>
    initializeContract i.1 s admin bstToken feeCollector
  | .addLiquidity provider amountADesired amountBDesired amountAMin amountBMin =>
    (addLiquidity i.1 s provider amountADesired amountBDesired amountAMin amountBMin).map Prod.snd
  | .removeLiquidity provider liquidity =>
    (removeLiquidity i.1 s provider liquidity).map Prod.snd
  | .swap user tokenIn amountIn amountOutMin =>
    (swap i.1 s user tokenIn amountIn amountOutMin).map Prod.snd
  | .claimMiningRewards user => (claimMiningRewards i.1 s user).map Prod.snd

end Scoopdope.LiquidityPool

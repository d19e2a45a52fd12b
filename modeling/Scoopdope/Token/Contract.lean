import Scoopdope.Soroban.Env
import Scoopdope.Soroban.Table

/-!
# Token: types and storage

The storage of `TokenContract` (`contracts/token/src/lib.rs`), the keys of
`airdrop.rs` included: both files write the same contract storage and their
keys are distinct. A field is one storage key, or a table for a family of keys;
`none` and absent entries are keys that were never set.
-/

namespace Scoopdope.Token

open Soroban

variable (Address : Type)

structure VestingSchedule where
  beneficiary : Address
  totalAmount : I128
  startLedger : U32
  cliffLedger : U32
  endLedger : U32
  claimed : I128

structure BurnStats where
  totalBurned : I128
  burnCount : U32

structure VestingScheduleV2 where
  id : U32
  beneficiary : Address
  totalAmount : I128
  startLedger : U32
  cliffLedger : U32
  endLedger : U32
  claimed : I128
  /-- 0 = linear, 1 = step. -/
  vestingType : U8
  /-- For step vesting. -/
  stepCount : U32

structure AirdropCampaign where
  id : U32
  totalAmount : I128
  claimedAmount : I128
  expiryLedger : U32
  merkleRoot : Bytes32

structure Storage where
  /- Instance storage. -/
  admin : Option Address
  totalSupply : Option I128
  locked : Option Bool
  burnStats : Option BurnStats
  airdropCampaign : Table U32 AirdropCampaign
  airdropClaimed : Table (U32 × Address) Bool
  airdropCampaignCount : Option U32
  /- Persistent storage. -/
  balance : Table Address I128
  /-- `Allowance(owner, spender)`. -/
  allowance : Table (Address × Address) I128
  vesting : Table Address (VestingSchedule Address)
  /-- `VestingV2(beneficiary, schedule_id)`. -/
  vestingV2 : Table (Address × U32) (VestingScheduleV2 Address)
  vestingScheduleCount : Table Address U32
  /-- The events published so far, newest first. -/
  events : List (Event Address)

/-- The storage of a contract nobody has called yet. -/
def Storage.fresh : Storage Address where
  admin := none
  totalSupply := none
  locked := none
  burnStats := none
  airdropCampaign := ∅
  airdropClaimed := ∅
  airdropCampaignCount := none
  balance := ∅
  allowance := ∅
  vesting := ∅
  vestingV2 := ∅
  vestingScheduleCount := ∅
  events := []

variable {Address}

/-- `env.events().publish(topics, data)`. -/
def Storage.publish (s : Storage Address) (topics data : List (Val Address)) : Storage Address :=
  { s with events := ⟨topics, data⟩ :: s.events }

end Scoopdope.Token

/-!
## Token: entry points

`TokenContract` of `contracts/token/src/lib.rs`. Each entry point takes the
environment, the storage and its arguments, in the order of its checks and
writes. `Call` collects the entry points that can write, and `exec` runs one.

Balances and allowances are read and written in persistent storage, the supply
in instance storage.

The namespace `Airdrop` is `contracts/token/src/airdrop.rs`. The crediting of a
claim is done by the caller, `claim_airdrop` of `lib.rs`.
-/

namespace Scoopdope.Token.Airdrop

open Soroban

/-- The SDK's `to_xdr_bytes` of an address. -/
class XdrBytes (Address : Type) where
  toXdrBytes : Address → List UInt8

/-- Contract addresses by their 32-byte ids, read as numbers: the XDR of a
contract address is the tag of an address value, the tag of a contract, and the
id. -/
instance : XdrBytes Nat where
  toXdrBytes n :=
    [0, 0, 0, 18, 0, 0, 0, 1] ++ (List.range 32).map fun i => UInt8.ofNat (n / 256 ^ (31 - i))

variable {Address : Type} [DecidableEq Address]

/-- `i128::to_le_bytes`: two's complement, least significant byte first. -/
def toLeBytes (x : I128) : Vector UInt8 16 :=
  Vector.ofFn fun i => UInt8.ofNat ((x.val % 2 ^ 128).toNat / 256 ^ i.val)

/-- The first 16 bytes are those of the recipient (zero where it has fewer), the
last 16 are the amount. -/
def computeLeaf [XdrBytes Address] (recipient : Address) (amount : I128) : Bytes32 :=
  Vector.ofFn fun i =>
    if h : i.val < 16 then (XdrBytes.toXdrBytes recipient).getD i.val 0
    else (toLeBytes amount).get ⟨i.val - 16, by omega⟩

/-- Byte-wise exclusive or. -/
def hashPair (a b : Bytes32) : Bytes32 := Vector.zipWith (· ^^^ ·) a b

def verifyMerkleProof (leaf root : Bytes32) (proof : List Bytes32) : Bool :=
  let current := proof.foldl hashPair leaf
  decide (current = root)

/-- `airdrop::create_airdrop`: the campaign id and the storage afterwards. -/
def createAirdrop (env : Env Address) (s : Storage Address) (admin : Address) (totalAmount : I128)
    (expiryLedger : U32) (merkleRoot : Bytes32) : Outcome (U32 × Storage Address) := do
  env.requireAuth admin
  assert (0 < totalAmount) "Total amount must be positive"
  assert (env.sequence < expiryLedger) "Expiry must be in future"
  let campaignId := s.airdropCampaignCount.getD 0
  let campaign : AirdropCampaign :=
    { id := campaignId, totalAmount, claimedAmount := 0, expiryLedger, merkleRoot }
  let s := { s with airdropCampaign := s.airdropCampaign.set campaignId campaign }
  let nextId ← campaignId.add (.lit 1)
  let s := { s with airdropCampaignCount := some nextId }
  let s := s.publish [.symbol "airdrop", .symbol "created"]
    [.u32 campaignId, .i128 totalAmount, .u32 expiryLedger]
  pure (campaignId, s)

/-- `airdrop::claim_airdrop`: books the claim on the campaign. -/
def claimAirdrop [XdrBytes Address] (env : Env Address) (s : Storage Address) (campaignId : U32)
    (recipient : Address) (amount : I128) (proof : List Bytes32) :
    Outcome (Bool × Storage Address) := do
  env.requireAuth recipient
  assert (0 < amount) "Amount must be positive"
  let campaign ← expect (s.airdropCampaign.get campaignId) "Campaign not found"
  assert (env.sequence ≤ campaign.expiryLedger) "Airdrop expired"
  assert (s.airdropClaimed.has (campaignId, recipient) = false) "Already claimed"
  let leaf := computeLeaf recipient amount
  assert (verifyMerkleProof leaf campaign.merkleRoot proof = true) "Invalid merkle proof"
  let claimedAmount ← expect (campaign.claimedAmount.checkedAdd amount) "arithmetic overflow"
  assert (claimedAmount ≤ campaign.totalAmount) "Exceeds campaign total"
  let s := { s with
    airdropCampaign := s.airdropCampaign.set campaignId { campaign with claimedAmount } }
  let s := { s with airdropClaimed := s.airdropClaimed.set (campaignId, recipient) true }
  let s := s.publish [.symbol "airdrop", .symbol "claimed"]
    [.u32 campaignId, .address recipient, .i128 amount]
  pure (true, s)

/-- `airdrop::recover_unclaimed`: reports what is left; the campaign keeps its
figures. -/
def recoverUnclaimed (env : Env Address) (s : Storage Address) (admin : Address)
    (campaignId : U32) : Outcome (I128 × Storage Address) := do
  env.requireAuth admin
  let campaign ← expect (s.airdropCampaign.get campaignId) "Campaign not found"
  assert (campaign.expiryLedger < env.sequence) "Campaign not expired"
  let unclaimed ← expect (campaign.totalAmount.checkedSub campaign.claimedAmount)
    "arithmetic overflow"
  let s := s.publish [.symbol "airdrop", .symbol "recovered"] [.u32 campaignId, .i128 unclaimed]
  pure (unclaimed, s)

end Scoopdope.Token.Airdrop

namespace Scoopdope.Token

open Soroban

variable {Address : Type} [DecidableEq Address]

/-- `MAX_SUPPLY`. -/
def maxSupply : I128 := .lit 10000000000000000

/-! ## Reading -/

def balance (s : Storage Address) (addr : Address) : I128 := s.balance.amount addr

def totalSupply (s : Storage Address) : I128 := s.totalSupply.getD 0

def allowance (s : Storage Address) (owner spender : Address) : I128 :=
  s.allowance.amount (owner, spender)

def getBurnStats (s : Storage Address) : BurnStats :=
  s.burnStats.getD { totalBurned := 0, burnCount := 0 }

/-! ## Internal helpers -/

def acquireLock (s : Storage Address) : Outcome (Storage Address) := do
  let locked := s.locked.getD false
  assert (locked = false) "reentrant call"
  pure { s with locked := some true }

def addBalance (s : Storage Address) (addr : Address) (amount : I128) :
    Outcome (Storage Address) := do
  let newBalance ← expect ((balance s addr).checkedAdd amount) "arithmetic overflow"
  pure { s with balance := s.balance.set addr newBalance }

def subBalance (s : Storage Address) (addr : Address) (amount : I128) :
    Outcome (Storage Address) := do
  let newBalance ← expect ((balance s addr).checkedSub amount) "arithmetic overflow"
  pure { s with balance := s.balance.set addr newBalance }

def addSupply (s : Storage Address) (amount : I128) : Outcome (Storage Address) := do
  let newSupply ← expect ((totalSupply s).checkedAdd amount) "arithmetic overflow"
  assert (newSupply ≤ maxSupply) "Max supply exceeded"
  pure { s with totalSupply := some newSupply }

def subSupply (s : Storage Address) (amount : I128) : Outcome (Storage Address) := do
  let newSupply ← expect ((totalSupply s).checkedSub amount) "arithmetic overflow"
  pure { s with totalSupply := some newSupply }

/-- "Update burn stats", the same statements in `burn` and `burn_from`. -/
def updateBurnStats (s : Storage Address) (amount : I128) : Outcome (Storage Address) := do
  let stats := getBurnStats s
  let totalBurned ← expect (stats.totalBurned.checkedAdd amount) "arithmetic overflow"
  let burnCount ← expect (stats.burnCount.checkedAdd (.lit 1)) "arithmetic overflow"
  pure { s with burnStats := some { totalBurned, burnCount } }

/-- "Deduct allowance", the same statements in `burn_from` and `transfer_from`. -/
def deductAllowance (s : Storage Address) (owner spender : Address) (allowed amount : I128) :
    Outcome (Storage Address) := do
  let rest ← expect (allowed.checkedSub amount) "arithmetic overflow"
  pure { s with allowance := s.allowance.set (owner, spender) rest }

/-! ## Supply and transfers -/

def initializeContract (env : Env Address) (s : Storage Address) (admin : Address) :
    Outcome (Storage Address) := do
  assert (s.admin.isSome = false) "Already initialized"
  env.requireAuth admin
  pure { s with admin := some admin, totalSupply := some 0 }

def mint (env : Env Address) (s : Storage Address) (to_ : Address) (amount : I128) :
    Outcome (Storage Address) := do
  assert (0 < amount) "Amount must be positive"
  let admin ← unwrap s.admin
  env.requireAuth admin
  let s ← addBalance s to_ amount
  let s ← addSupply s amount
  pure (s.publish [.symbol "mint", .symbol "to", .address to_] [.i128 amount])

def burn (env : Env Address) (s : Storage Address) (from_ : Address) (amount : I128) :
    Outcome (Storage Address) := do
  assert (0 < amount) "Amount must be positive"
  env.requireAuth from_
  assert (amount ≤ balance s from_) "Insufficient balance"
  let s ← subBalance s from_ amount
  let s ← subSupply s amount
  let s ← updateBurnStats s amount
  pure (s.publish [.symbol "burn", .symbol "from", .address from_] [.i128 amount])

def burnFrom (env : Env Address) (s : Storage Address) (spender from_ : Address) (amount : I128) :
    Outcome (Storage Address) := do
  assert (0 < amount) "Amount must be positive"
  env.requireAuth spender
  let allowed := allowance s from_ spender
  assert (amount ≤ allowed) "Insufficient allowance"
  assert (amount ≤ balance s from_) "Insufficient balance"
  let s ← deductAllowance s from_ spender allowed amount
  let s ← subBalance s from_ amount
  let s ← subSupply s amount
  let s ← updateBurnStats s amount
  pure (s.publish [.symbol "burn", .symbol "from", .address from_] [.i128 amount])

def transfer (env : Env Address) (s : Storage Address) (from_ to_ : Address) (amount : I128) :
    Outcome (Storage Address) := do
  assert (0 < amount) "Amount must be positive"
  env.requireAuth from_
  assert (amount ≤ balance s from_) "Insufficient balance"
  let s ← subBalance s from_ amount
  let s ← addBalance s to_ amount
  pure (s.publish [.symbol "transfer", .symbol "from", .address from_] [.address to_, .i128 amount])

def approve (env : Env Address) (s : Storage Address) (owner spender : Address) (amount : I128) :
    Outcome (Storage Address) := do
  assert (0 ≤ amount) "Allowance must be non-negative"
  env.requireAuth owner
  let s := { s with allowance := s.allowance.set (owner, spender) amount }
  pure (s.publish [.symbol "approve", .symbol "owner", .address owner]
    [.address spender, .i128 amount])

def transferFrom (env : Env Address) (s : Storage Address) (spender from_ to_ : Address)
    (amount : I128) : Outcome (Storage Address) := do
  assert (0 < amount) "Amount must be positive"
  env.requireAuth spender
  let allowed := allowance s from_ spender
  assert (amount ≤ allowed) "Allowance exceeded"
  assert (amount ≤ balance s from_) "Insufficient balance"
  let s ← deductAllowance s from_ spender allowed amount
  let s ← subBalance s from_ amount
  let s ← addBalance s to_ amount
  pure (s.publish [.symbol "transfer", .symbol "from", .address from_] [.address to_, .i128 amount])

/-! ## Vesting -/

def vestedAmount (schedule : VestingSchedule Address) (currentLedger : U32) : Outcome I128 :=
  if currentLedger < schedule.cliffLedger then
    pure 0
  else if schedule.endLedger ≤ currentLedger then
    pure schedule.totalAmount
  else do
    let elapsed ← expect (currentLedger.checkedSub schedule.startLedger) "arithmetic overflow"
    let duration ← expect (schedule.endLedger.checkedSub schedule.startLedger)
      "arithmetic overflow"
    let product ← expect (schedule.totalAmount.checkedMul elapsed.u32AsI128) "arithmetic overflow"
    expect (product.checkedDiv duration.u32AsI128) "arithmetic overflow"

def vestedAmountV2 (schedule : VestingScheduleV2 Address) (currentLedger : U32) : Outcome I128 :=
  if currentLedger < schedule.cliffLedger then
    pure 0
  else if schedule.endLedger ≤ currentLedger then
    pure schedule.totalAmount
  else if schedule.vestingType = .lit 0 then do
    -- Linear vesting
    let elapsed ← expect (currentLedger.checkedSub schedule.startLedger) "arithmetic overflow"
    let duration ← expect (schedule.endLedger.checkedSub schedule.startLedger)
      "arithmetic overflow"
    let product ← expect (schedule.totalAmount.checkedMul elapsed.u32AsI128) "arithmetic overflow"
    expect (product.checkedDiv duration.u32AsI128) "arithmetic overflow"
  else if schedule.vestingType = .lit 1 then
    -- Step vesting
    if schedule.stepCount = 0 then
      pure schedule.totalAmount
    else do
      let elapsed ← expect (currentLedger.checkedSub schedule.startLedger) "arithmetic overflow"
      let duration ← expect (schedule.endLedger.checkedSub schedule.startLedger)
        "arithmetic overflow"
      let stepDuration := (duration.checkedDiv schedule.stepCount).getD (.lit 1)
      let stepsCompleted := (elapsed.checkedDiv stepDuration).getD 0
      let stepsCompleted := min stepsCompleted schedule.stepCount
      let product ← expect (schedule.totalAmount.checkedMul stepsCompleted.u32AsI128)
        "arithmetic overflow"
      expect (product.checkedDiv schedule.stepCount.u32AsI128) "arithmetic overflow"
  else
    pure 0

def createVesting (env : Env Address) (s : Storage Address) (admin beneficiary : Address)
    (totalAmount : I128) (cliffLedger endLedger : U32) : Outcome (Storage Address) := do
  env.requireAuth admin
  let storedAdmin ← unwrap s.admin
  assert (admin = storedAdmin) "Only admin can create vesting"
  assert (0 < totalAmount) "Amount must be positive"
  let startLedger := env.sequence
  assert (startLedger ≤ cliffLedger) "Cliff must be >= start"
  assert (cliffLedger < endLedger) "End must be after cliff"
  pure { s with
    vesting := s.vesting.set beneficiary
      { beneficiary, totalAmount, startLedger, cliffLedger, endLedger, claimed := 0 } }

def claimVesting (env : Env Address) (s : Storage Address) (beneficiary : Address) :
    Outcome (Storage Address) := do
  env.requireAuth beneficiary
  let schedule ← expect (s.vesting.get beneficiary) "No vesting schedule found"
  let vested ← vestedAmount schedule env.sequence
  let claimable ← expect (vested.checkedSub schedule.claimed) "arithmetic overflow"
  assert (0 < claimable) "Nothing to claim yet"
  let claimed ← expect (schedule.claimed.checkedAdd claimable) "arithmetic overflow"
  let s := { s with vesting := s.vesting.set beneficiary { schedule with claimed } }
  let s ← addBalance s beneficiary claimable
  let s ← addSupply s claimable
  pure (s.publish [.symbol "mint", .symbol "to", .address beneficiary] [.i128 claimable])

/-- The schedule id and the storage afterwards. -/
def createVestingV2 (env : Env Address) (s : Storage Address) (admin beneficiary : Address)
    (totalAmount : I128) (cliffLedger endLedger : U32) (vestingType : U8) (stepCount : U32) :
    Outcome (U32 × Storage Address) := do
  env.requireAuth admin
  let storedAdmin ← unwrap s.admin
  assert (admin = storedAdmin) "Only admin can create vesting"
  assert (0 < totalAmount) "Amount must be positive"
  assert (vestingType ≤ .lit 1) "Invalid vesting type"
  let startLedger := env.sequence
  assert (startLedger ≤ cliffLedger) "Cliff must be >= start"
  assert (cliffLedger < endLedger) "End must be after cliff"
  let scheduleId := (s.vestingScheduleCount.get beneficiary).getD 0
  let schedule : VestingScheduleV2 Address :=
    { id := scheduleId, beneficiary, totalAmount, startLedger, cliffLedger, endLedger,
      claimed := 0, vestingType, stepCount }
  let s := { s with vestingV2 := s.vestingV2.set (beneficiary, scheduleId) schedule }
  let nextId ← scheduleId.add (.lit 1)
  let s := { s with vestingScheduleCount := s.vestingScheduleCount.set beneficiary nextId }
  pure (scheduleId, s)

def claimVestingV2 (env : Env Address) (s : Storage Address) (beneficiary : Address)
    (scheduleId : U32) : Outcome (Storage Address) := do
  env.requireAuth beneficiary
  let schedule ← expect (s.vestingV2.get (beneficiary, scheduleId)) "No vesting schedule found"
  let vested ← vestedAmountV2 schedule env.sequence
  let claimable ← expect (vested.checkedSub schedule.claimed) "arithmetic overflow"
  assert (0 < claimable) "Nothing to claim yet"
  let claimed ← expect (schedule.claimed.checkedAdd claimable) "arithmetic overflow"
  let s := { s with
    vestingV2 := s.vestingV2.set (beneficiary, scheduleId) { schedule with claimed } }
  let s ← addBalance s beneficiary claimable
  let s ← addSupply s claimable
  pure (s.publish [.symbol "mint", .symbol "to", .address beneficiary] [.i128 claimable])

def modifyVestingV2 (env : Env Address) (s : Storage Address) (admin beneficiary : Address)
    (scheduleId newEndLedger : U32) : Outcome (Storage Address) := do
  env.requireAuth admin
  let storedAdmin ← unwrap s.admin
  assert (admin = storedAdmin) "Only admin can modify vesting"
  let schedule ← expect (s.vestingV2.get (beneficiary, scheduleId)) "No vesting schedule found"
  assert (schedule.cliffLedger < newEndLedger) "New end must be after cliff"
  pure { s with
    vestingV2 := s.vestingV2.set (beneficiary, scheduleId)
      { schedule with endLedger := newEndLedger } }

/-! ## Airdrop and rewards -/

def createAirdrop (env : Env Address) (s : Storage Address) (admin : Address) (totalAmount : I128)
    (expiryLedger : U32) (merkleRoot : Bytes32) : Outcome (U32 × Storage Address) :=
  Airdrop.createAirdrop env s admin totalAmount expiryLedger merkleRoot

def claimAirdrop [Airdrop.XdrBytes Address] (env : Env Address) (s : Storage Address)
    (campaignId : U32) (recipient : Address) (amount : I128) (proof : List Bytes32) :
    Outcome (Bool × Storage Address) := do
  let (claimed, s) ← Airdrop.claimAirdrop env s campaignId recipient amount proof
  if claimed then do
    let s ← addBalance s recipient amount
    let s ← addSupply s amount
    pure (claimed, s)
  else
    pure (claimed, s)

def recoverUnclaimedAirdrop (env : Env Address) (s : Storage Address) (admin : Address)
    (campaignId : U32) : Outcome (I128 × Storage Address) :=
  Airdrop.recoverUnclaimed env s admin campaignId

/-- Legacy. It takes the lock and never releases it. -/
def mintReward (env : Env Address) (s : Storage Address) (caller recipient : Address)
    (amount : I128) : Outcome (Storage Address) := do
  let s ← acquireLock s
  env.requireAuth caller
  let admin ← unwrap s.admin
  assert (caller = admin) "Only admin can mint"
  assert (0 < amount) "Amount must be positive"
  let s ← addBalance s recipient amount
  let s ← addSupply s amount
  pure (s.publish [.symbol "mint", .symbol "to", .address recipient] [.i128 amount])

/-! ## Calls -/

/-- A call of an entry point that can write, with its arguments. -/
inductive Call (Address : Type)
  | initializeContract (admin : Address)
  | mint (to_ : Address) (amount : I128)
  | burn (from_ : Address) (amount : I128)
  | burnFrom (spender from_ : Address) (amount : I128)
  | transfer (from_ to_ : Address) (amount : I128)
  | approve (owner spender : Address) (amount : I128)
  | transferFrom (spender from_ to_ : Address) (amount : I128)
  | createVesting (admin beneficiary : Address) (totalAmount : I128) (cliffLedger endLedger : U32)
  | claimVesting (beneficiary : Address)
  | createVestingV2 (admin beneficiary : Address) (totalAmount : I128)
      (cliffLedger endLedger : U32) (vestingType : U8) (stepCount : U32)
  | claimVestingV2 (beneficiary : Address) (scheduleId : U32)
  | modifyVestingV2 (admin beneficiary : Address) (scheduleId newEndLedger : U32)
  | createAirdrop (admin : Address) (totalAmount : I128) (expiryLedger : U32)
      (merkleRoot : Bytes32)
  | claimAirdrop (campaignId : U32) (recipient : Address) (amount : I128) (proof : List Bytes32)
  | recoverUnclaimedAirdrop (admin : Address) (campaignId : U32)
  | mintReward (caller recipient : Address) (amount : I128)

/-- One call in its environment. The returned value is dropped; the entry
points above have it. -/
def exec [Airdrop.XdrBytes Address] (s : Storage Address) (i : Env Address × Call Address) :
    Outcome (Storage Address) :=
  match i.2 with
  | .initializeContract admin => initializeContract i.1 s admin
  | .mint to_ amount => mint i.1 s to_ amount
  | .burn from_ amount => burn i.1 s from_ amount
  | .burnFrom spender from_ amount => burnFrom i.1 s spender from_ amount
  | .transfer from_ to_ amount => transfer i.1 s from_ to_ amount
  | .approve owner spender amount => approve i.1 s owner spender amount
  | .transferFrom spender from_ to_ amount => transferFrom i.1 s spender from_ to_ amount
  | .createVesting admin beneficiary totalAmount cliffLedger endLedger =>
    createVesting i.1 s admin beneficiary totalAmount cliffLedger endLedger
  | .claimVesting beneficiary => claimVesting i.1 s beneficiary
  | .createVestingV2 admin beneficiary totalAmount cliffLedger endLedger vestingType stepCount =>
    (createVestingV2 i.1 s admin beneficiary totalAmount cliffLedger endLedger vestingType
      stepCount).map Prod.snd
  | .claimVestingV2 beneficiary scheduleId => claimVestingV2 i.1 s beneficiary scheduleId
  | .modifyVestingV2 admin beneficiary scheduleId newEndLedger =>
    modifyVestingV2 i.1 s admin beneficiary scheduleId newEndLedger
  | .createAirdrop admin totalAmount expiryLedger merkleRoot =>
    (createAirdrop i.1 s admin totalAmount expiryLedger merkleRoot).map Prod.snd
  | .claimAirdrop campaignId recipient amount proof =>
    (claimAirdrop i.1 s campaignId recipient amount proof).map Prod.snd
  | .recoverUnclaimedAirdrop admin campaignId =>
    (recoverUnclaimedAirdrop i.1 s admin campaignId).map Prod.snd
  | .mintReward caller recipient amount => mintReward i.1 s caller recipient amount

end Scoopdope.Token

import Scoopdope.Soroban.Env
import Scoopdope.Soroban.History
import Scoopdope.Soroban.Table

/-!
# Transfer restrictions

`TokenRestrictionsContract` (`contracts/token_restrictions/src/lib.rs`): white- and blacklists,
transfer limits, pending approvals, vesting schedules and lock-ups, all set by the admin except
the requests for an approval.

The lists and limits answer for the last accepted call about an account (`restrictions_after`).
An approval removes the pending mark, and `is_transfer_approved` reads a missing mark as pending,
so it never answers true. `vested_amounts` is about the curve of a stored schedule.
-/

namespace Scoopdope.TokenRestrictions

open Soroban

structure VestingSchedule where
  total : I128
  startLedger : U32
  cliffLedger : U32
  endLedger : U32

structure LockUp where
  amount : I128
  unlockLedger : U32

structure Storage (Address : Type) where
  /- Instance storage. -/
  admin : Option Address
  whitelist : Table Address Bool
  blacklist : Table Address Bool
  transferLimit : Table Address I128
  pendingApprovals : Table (Address × Address) Bool
  vesting : Table Address VestingSchedule
  lockUp : Table Address LockUp
  /-- The events published so far, newest first. -/
  events : List (Event Address)

/-- The storage of a contract just deployed. -/
def Storage.fresh (Address : Type) : Storage Address where
  admin := none
  whitelist := ∅
  blacklist := ∅
  transferLimit := ∅
  pendingApprovals := ∅
  vesting := ∅
  lockUp := ∅
  events := []

variable {Address : Type}

/-- `env.events().publish(topics, data)`. -/
def Storage.publish (s : Storage Address) (topics data : List (Val Address)) : Storage Address :=
  { s with events := ⟨topics, data⟩ :: s.events }

variable [DecidableEq Address]

/-! ## Readers -/

/-- `i128::MAX`. -/
def i128Max : I128 := .lit 170141183460469231731687303715884105727

def isWhitelisted (s : Storage Address) (account : Address) : Bool :=
  (s.whitelist.get account).getD false

def isBlacklisted (s : Storage Address) (account : Address) : Bool :=
  (s.blacklist.get account).getD false

def getTransferLimit (s : Storage Address) (account : Address) : I128 :=
  (s.transferLimit.get account).getD i128Max

def isTransferApproved (s : Storage Address) (from_ to_ : Address) : Bool :=
  !(s.pendingApprovals.get (from_, to_)).getD true

def getVesting (s : Storage Address) (account : Address) : Option VestingSchedule :=
  s.vesting.get account

def vestedAmount (env : Env Address) (s : Storage Address) (account : Address) : Outcome I128 :=
  match s.vesting.get account with
  | none => .ok 0
  | some schedule =>
    let now := env.sequence
    if now < schedule.cliffLedger then .ok 0
    else if schedule.endLedger ≤ now then .ok schedule.total
    else do
      let elapsed ← now.sub schedule.startLedger
      let duration ← schedule.endLedger.sub schedule.startLedger
      let product ← schedule.total.mul elapsed.u32AsI128
      product.div duration.u32AsI128

def getLockup (s : Storage Address) (account : Address) : Option LockUp := s.lockUp.get account

def isLocked (env : Env Address) (s : Storage Address) (account : Address) : Bool :=
  match s.lockUp.get account with
  | none => false
  | some lockup => env.sequence < lockup.unlockLedger

/-! ## Entry points -/

def initializeContract (env : Env Address) (s : Storage Address) (admin : Address) :
    Outcome (Storage Address) := do
  assert (s.admin.isSome = false) "Already initialized"
  env.requireAuth admin
  pure { s with admin := some admin }

/-- The checks that open every entry point of the admin. -/
def requireAdmin (env : Env Address) (s : Storage Address) (admin : Address) (msg : String) :
    Outcome Unit := do
  env.requireAuth admin
  let storedAdmin ← unwrap s.admin
  assert (admin = storedAdmin) msg

def addToWhitelist (env : Env Address) (s : Storage Address) (admin account : Address) :
    Outcome (Storage Address) := do
  requireAdmin env s admin "Only admin can manage whitelist"
  let s := { s with whitelist := s.whitelist.set account true }
  pure (s.publish [.symbol "wl_add", .symbol "addr"] [.address account])

def removeFromWhitelist (env : Env Address) (s : Storage Address) (admin account : Address) :
    Outcome (Storage Address) := do
  requireAdmin env s admin "Only admin can manage whitelist"
  let s := { s with whitelist := s.whitelist.remove account }
  pure (s.publish [.symbol "wl_add", .symbol "rmv"] [.address account])

def addToBlacklist (env : Env Address) (s : Storage Address) (admin account : Address) :
    Outcome (Storage Address) := do
  requireAdmin env s admin "Only admin can manage blacklist"
  let s := { s with blacklist := s.blacklist.set account true }
  pure (s.publish [.symbol "bl_add", .symbol "addr"] [.address account])

def removeFromBlacklist (env : Env Address) (s : Storage Address) (admin account : Address) :
    Outcome (Storage Address) := do
  requireAdmin env s admin "Only admin can manage blacklist"
  let s := { s with blacklist := s.blacklist.remove account }
  pure (s.publish [.symbol "bl_add", .symbol "rmv"] [.address account])

def setTransferLimit (env : Env Address) (s : Storage Address) (admin account : Address)
    (limit : I128) : Outcome (Storage Address) := do
  requireAdmin env s admin "Only admin can set limits"
  assert (0 < limit.val) "Limit must be positive"
  let s := { s with transferLimit := s.transferLimit.set account limit }
  pure (s.publish [.symbol "limit", .symbol "addr"] [.address account, .i128 limit])

def requestTransferApproval (env : Env Address) (s : Storage Address) (from_ to_ : Address)
    (amount : I128) : Outcome (Storage Address) := do
  env.requireAuth from_
  assert (0 < amount.val) "Amount must be positive"
  let s := { s with pendingApprovals := s.pendingApprovals.set (from_, to_) true }
  pure (s.publish [.symbol "appr", .symbol "xfer"] [.address from_, .address to_, .i128 amount])

def approveTransfer (env : Env Address) (s : Storage Address) (admin from_ to_ : Address) :
    Outcome (Storage Address) := do
  requireAdmin env s admin "Only admin can approve transfers"
  let s := { s with pendingApprovals := s.pendingApprovals.remove (from_, to_) }
  pure (s.publish [.symbol "appr", .symbol "appr"] [.address from_, .address to_])

def setVesting (env : Env Address) (s : Storage Address) (admin account : Address)
    (schedule : VestingSchedule) : Outcome (Storage Address) := do
  requireAdmin env s admin "Only admin can set vesting"
  assert (0 < schedule.total.val) "Total must be positive"
  assert (schedule.startLedger ≤ schedule.cliffLedger) "Cliff before start"
  assert (schedule.cliffLedger < schedule.endLedger) "End before cliff"
  let s := { s with vesting := s.vesting.set account schedule }
  pure (s.publish [.symbol "vest", .symbol "set"] [.address account])

def setLockup (env : Env Address) (s : Storage Address) (admin account : Address)
    (lockup : LockUp) : Outcome (Storage Address) := do
  requireAdmin env s admin "Only admin can set lockup"
  assert (0 < lockup.amount.val) "Amount must be positive"
  let s := { s with lockUp := s.lockUp.set account lockup }
  pure (s.publish [.symbol "lock", .symbol "set"] [.address account])

/-- A call of an entry point that can write, with its arguments. -/
inductive Call (Address : Type)
  | initializeContract (admin : Address)
  | addToWhitelist (admin account : Address)
  | removeFromWhitelist (admin account : Address)
  | addToBlacklist (admin account : Address)
  | removeFromBlacklist (admin account : Address)
  | setTransferLimit (admin account : Address) (limit : I128)
  | requestTransferApproval (from_ to_ : Address) (amount : I128)
  | approveTransfer (admin from_ to_ : Address)
  | setVesting (admin account : Address) (schedule : VestingSchedule)
  | setLockup (admin account : Address) (lockup : LockUp)

/-- One call in its environment. -/
def exec (s : Storage Address) (i : Env Address × Call Address) : Outcome (Storage Address) :=
  match i.2 with
  | .initializeContract admin => initializeContract i.1 s admin
  | .addToWhitelist admin account => addToWhitelist i.1 s admin account
  | .removeFromWhitelist admin account => removeFromWhitelist i.1 s admin account
  | .addToBlacklist admin account => addToBlacklist i.1 s admin account
  | .removeFromBlacklist admin account => removeFromBlacklist i.1 s admin account
  | .setTransferLimit admin account limit => setTransferLimit i.1 s admin account limit
  | .requestTransferApproval from_ to_ amount => requestTransferApproval i.1 s from_ to_ amount
  | .approveTransfer admin from_ to_ => approveTransfer i.1 s admin from_ to_
  | .setVesting admin account schedule => setVesting i.1 s admin account schedule
  | .setLockup admin account lockup => setLockup i.1 s admin account lockup

/-! ## What an accepted call does -/

/-- The tables after a call that is accepted. -/
def written (s : Storage Address) : Call Address → Storage Address
  | .initializeContract admin => { s with admin := some admin }
  | .addToWhitelist _ account => { s with whitelist := s.whitelist.set account true }
  | .removeFromWhitelist _ account => { s with whitelist := s.whitelist.remove account }
  | .addToBlacklist _ account => { s with blacklist := s.blacklist.set account true }
  | .removeFromBlacklist _ account => { s with blacklist := s.blacklist.remove account }
  | .setTransferLimit _ account limit =>
    { s with transferLimit := s.transferLimit.set account limit }
  | .requestTransferApproval from_ to_ _ =>
    { s with pendingApprovals := s.pendingApprovals.set (from_, to_) true }
  | .approveTransfer _ from_ to_ =>
    { s with pendingApprovals := s.pendingApprovals.remove (from_, to_) }
  | .setVesting _ account schedule => { s with vesting := s.vesting.set account schedule }
  | .setLockup _ account lockup => { s with lockUp := s.lockUp.set account lockup }

/-- Who has to authorise a call. -/
def Call.caller : Call Address → Address
  | .initializeContract admin => admin
  | .addToWhitelist admin _ => admin
  | .removeFromWhitelist admin _ => admin
  | .addToBlacklist admin _ => admin
  | .removeFromBlacklist admin _ => admin
  | .setTransferLimit admin _ _ => admin
  | .requestTransferApproval from_ _ _ => from_
  | .approveTransfer admin _ _ => admin
  | .setVesting admin _ _ => admin
  | .setLockup admin _ _ => admin

/-- The checks on a call beyond the authorisation. -/
def Allowed (s : Storage Address) : Call Address → Prop
  | .initializeContract _ => s.admin = none
  | .requestTransferApproval _ _ amount => 0 < amount.val
  | .setTransferLimit admin _ limit => s.admin = some admin ∧ 0 < limit.val
  | .setVesting admin _ schedule => s.admin = some admin ∧ 0 < schedule.total.val ∧
      schedule.startLedger ≤ schedule.cliffLedger ∧ schedule.cliffLedger < schedule.endLedger
  | .setLockup admin _ lockup => s.admin = some admin ∧ 0 < lockup.amount.val
  | .addToWhitelist admin _ => s.admin = some admin
  | .removeFromWhitelist admin _ => s.admin = some admin
  | .addToBlacklist admin _ => s.admin = some admin
  | .removeFromBlacklist admin _ => s.admin = some admin
  | .approveTransfer admin _ _ => s.admin = some admin

theorem requireAdmin_eq_ok {env : Env Address} {s : Storage Address} {admin : Address}
    {msg : String} {u : Unit} :
    requireAdmin env s admin msg = .ok u ↔ admin ∈ env.auths ∧ s.admin = some admin := by
  simp only [requireAdmin, bind_eq_ok, Env.requireAuth_eq_ok, unwrap_eq_ok, assert_eq_ok,
    exists_const]
  refine and_congr_right fun _ => ⟨?_, fun hs => ⟨admin, hs, rfl⟩⟩
  rintro ⟨_, hs, rfl⟩
  exact hs

/-- What an accepted call passed and wrote; it publishes one event besides. -/
theorem exec_ok {s s' : Storage Address} {i : Env Address × Call Address}
    (h : exec s i = .ok s') :
    i.2.caller ∈ i.1.auths ∧ Allowed s i.2 ∧ ∃ events, s' = { written s i.2 with events } := by
  obtain ⟨env, call⟩ := i
  cases call <;>
    simp only [exec, initializeContract, addToWhitelist, removeFromWhitelist, addToBlacklist,
      removeFromBlacklist, setTransferLimit, requestTransferApproval, approveTransfer, setVesting,
      setLockup, bind_eq_ok, assert_eq_ok, Env.requireAuth_eq_ok, requireAdmin_eq_ok, exists_const,
      pure_eq_ok, Option.isSome_eq_false_iff, Option.isNone_iff_eq_none] at h
  case initializeContract admin =>
    obtain ⟨hnone, hauth, rfl⟩ := h
    exact ⟨hauth, hnone, s.events, rfl⟩
  case requestTransferApproval from_ to_ amount =>
    obtain ⟨hauth, hpos, rfl⟩ := h
    exact ⟨hauth, hpos, _, rfl⟩
  case setTransferLimit admin account limit =>
    obtain ⟨⟨hauth, hadmin⟩, hpos, rfl⟩ := h
    exact ⟨hauth, ⟨hadmin, hpos⟩, _, rfl⟩
  case setVesting admin account schedule =>
    obtain ⟨⟨hauth, hadmin⟩, hpos, hcliff, hend, rfl⟩ := h
    exact ⟨hauth, ⟨hadmin, hpos, hcliff, hend⟩, _, rfl⟩
  case setLockup admin account lockup =>
    obtain ⟨⟨hauth, hadmin⟩, hpos, rfl⟩ := h
    exact ⟨hauth, ⟨hadmin, hpos⟩, _, rfl⟩
  all_goals
    obtain ⟨⟨hauth, hadmin⟩, rfl⟩ := h
    exact ⟨hauth, hadmin, _, rfl⟩

/-! ## Lists, limits and approvals -/

/-- Whether the account is on the whitelist after a call. -/
def whitelistStep (account : Address) (listed : Bool) : Call Address → Bool
  | .addToWhitelist _ x => if account = x then true else listed
  | .removeFromWhitelist _ x => if account = x then false else listed
  | _ => listed

/-- Whether the account is on the blacklist after a call. -/
def blacklistStep (account : Address) (listed : Bool) : Call Address → Bool
  | .addToBlacklist _ x => if account = x then true else listed
  | .removeFromBlacklist _ x => if account = x then false else listed
  | _ => listed

/-- The account's limit after a call. -/
def limitStep (account : Address) (limit : I128) : Call Address → I128
  | .setTransferLimit _ x limit' => if account = x then limit' else limit
  | _ => limit

/-- The value that the accepted calls of a run make of `x`, one after the other. -/
def lastSet {X : Type} (step : X → Call Address → X) (x : X)
    (past : List (Env Address × Call Address)) : X :=
  traced exec (Storage.fresh Address) (fun x _ i => step x i.2) x past

section Steps

variable {s : Storage Address} {account : Address} {call : Call Address}

theorem isWhitelisted_written :
    isWhitelisted (written s call) account =
      whitelistStep account (isWhitelisted s account) call := by
  cases call <;> simp only [isWhitelisted, written, whitelistStep, Table.get_set, Table.get_remove]
  all_goals split <;> rfl

theorem isBlacklisted_written :
    isBlacklisted (written s call) account =
      blacklistStep account (isBlacklisted s account) call := by
  cases call <;> simp only [isBlacklisted, written, blacklistStep, Table.get_set, Table.get_remove]
  all_goals split <;> rfl

theorem getTransferLimit_written :
    getTransferLimit (written s call) account =
      limitStep account (getTransferLimit s account) call := by
  cases call <;> simp only [getTransferLimit, written, limitStep, Table.get_set]
  split <;> rfl

/-- The marks of pending approvals are never false. -/
theorem pendingApprovals_written (h : ∀ k b, s.pendingApprovals.get k = some b → b = true)
    {k : Address × Address} {b : Bool} (hget : (written s call).pendingApprovals.get k = some b) :
    b = true := by
  cases call with
  | requestTransferApproval from_ to_ amount =>
    rw [written, Table.get_set] at hget
    split at hget
    · exact (Option.some.inj hget).symm
    · exact h k b hget
  | approveTransfer admin from_ to_ =>
    rw [written, Table.get_remove] at hget
    split at hget
    · cases hget
    · exact h k b hget
  | initializeContract admin => exact h k b hget
  | addToWhitelist admin account => exact h k b hget
  | removeFromWhitelist admin account => exact h k b hget
  | addToBlacklist admin account => exact h k b hget
  | removeFromBlacklist admin account => exact h k b hget
  | setTransferLimit admin account limit => exact h k b hget
  | setVesting admin account schedule => exact h k b hget
  | setLockup admin account lockup => exact h k b hget

end Steps

/-- A reader that every call changes by `step` reads, after a run, what the accepted calls made
of its first answer. -/
theorem read_after {X : Type} (read : Storage Address → X) {step : X → Call Address → X}
    (hstep : ∀ s call events, read { written s call with events } = step (read s) call)
    (past : List (Env Address × Call Address)) :
    read (after exec (Storage.fresh Address) past) =
      lastSet step (read (Storage.fresh Address)) past := by
  refine after_traced (R := fun s x => read s = x) rfl past fun e i s' _ hs he => ?_
  obtain ⟨-, -, events, rfl⟩ := exec_ok he
  rw [hstep, hs]

/-- The first admin stays. -/
theorem admin_kept {earlier past : List (Env Address × Call Address)} (hsuf : earlier <:+ past)
    {admin : Address} (hadmin : (after exec (Storage.fresh Address) earlier).admin = some admin) :
    (after exec (Storage.fresh Address) past).admin = some admin := by
  refine after_kept (P := fun s : Storage Address => s.admin = some admin) hsuf hadmin ?_
  rintro ⟨env, call⟩ e s' - - hs he
  obtain ⟨-, hallowed, events, rfl⟩ := exec_ok he
  cases call with
  | initializeContract caller =>
    rw [Allowed, hs] at hallowed
    cases hallowed
  | _ => exact hs

theorem isWhitelisted_after (past : List (Env Address × Call Address)) (account : Address) :
    isWhitelisted (after exec (Storage.fresh Address) past) account =
      lastSet (whitelistStep account) false past :=
  read_after (fun s => isWhitelisted s account) (fun _ _ _ => isWhitelisted_written) past

theorem isBlacklisted_after (past : List (Env Address × Call Address)) (account : Address) :
    isBlacklisted (after exec (Storage.fresh Address) past) account =
      lastSet (blacklistStep account) false past :=
  read_after (fun s => isBlacklisted s account) (fun _ _ _ => isBlacklisted_written) past

theorem getTransferLimit_after (past : List (Env Address × Call Address)) (account : Address) :
    getTransferLimit (after exec (Storage.fresh Address) past) account =
      lastSet (limitStep account) i128Max past :=
  read_after (fun s => getTransferLimit s account) (fun _ _ _ => getTransferLimit_written) past

/-- Only positive limits are accepted. -/
theorem transferLimit_pos (past : List (Env Address × Call Address)) (account : Address) :
    0 < (getTransferLimit (after exec (Storage.fresh Address) past) account).val := by
  have hfresh : 0 < (getTransferLimit (Storage.fresh Address) account).val :=
    show 0 < i128Max.val by decide
  refine after_invariant (P := fun s => 0 < (getTransferLimit s account).val) hfresh
    (fun s i s' hs he => ?_) past
  obtain ⟨-, hallowed, events, rfl⟩ := exec_ok he
  show 0 < (getTransferLimit (written s i.2) account).val
  rw [getTransferLimit_written]
  obtain ⟨env, call⟩ := i
  cases call with
  | setTransferLimit admin x limit =>
    rw [limitStep]
    split
    · exact hallowed.2
    · exact hs
  | _ => exact hs

/-- All marks that are there are pending. -/
theorem pendingApprovals_after (past : List (Env Address × Call Address)) :
    ∀ k b, (after exec (Storage.fresh Address) past).pendingApprovals.get k = some b →
      b = true := by
  refine after_invariant
    (P := fun s : Storage Address => ∀ k b, s.pendingApprovals.get k = some b → b = true)
    (fun k b hget => absurd hget Table.get_empty_ne_some) (fun s i s' hs he => ?_) past
  obtain ⟨-, -, events, rfl⟩ := exec_ok he
  exact fun k b hget => pendingApprovals_written hs hget

/-- A mark is pending, and so is a missing one. -/
theorem isTransferApproved_after (past : List (Env Address × Call Address)) (from_ to_ : Address) :
    isTransferApproved (after exec (Storage.fresh Address) past) from_ to_ = false := by
  rw [isTransferApproved]
  cases hget : (after exec (Storage.fresh Address) past).pendingApprovals.get (from_, to_) with
  | none => rfl
  | some b =>
    rw [pendingApprovals_after past _ b hget]
    rfl

/-- Calls other than requests are accepted from the first admin only. -/
theorem caller_of_accepted (past : List (Env Address × Call Address))
    (i : Env Address × Call Address) (e : List (Env Address × Call Address))
    (hs : i :: e <:+ past) (haccepted : Accepted exec (Storage.fresh Address) e i) :
    i.2.caller ∈ i.1.auths ∧
      ((∃ from_ to_ amount, i.2 = .requestTransferApproval from_ to_ amount) ∨
        (after exec (Storage.fresh Address) past).admin = some i.2.caller) := by
  obtain ⟨env, call⟩ := i
  obtain ⟨s', he⟩ := haccepted
  obtain ⟨hauth, hallowed, events, heq⟩ := exec_ok he
  refine ⟨hauth, ?_⟩
  have hpast := (List.suffix_cons (env, call) e).trans hs
  cases call with
  | requestTransferApproval from_ to_ amount => exact .inl ⟨from_, to_, amount, rfl⟩
  | initializeContract admin =>
    refine .inr (admin_kept hs ?_)
    rw [after, apply_ok he, heq]
    rfl
  | setTransferLimit admin account limit => exact .inr (admin_kept hpast hallowed.1)
  | setVesting admin account schedule => exact .inr (admin_kept hpast hallowed.1)
  | setLockup admin account lockup => exact .inr (admin_kept hpast hallowed.1)
  | addToWhitelist admin account => exact .inr (admin_kept hpast hallowed)
  | removeFromWhitelist admin account => exact .inr (admin_kept hpast hallowed)
  | addToBlacklist admin account => exact .inr (admin_kept hpast hallowed)
  | removeFromBlacklist admin account => exact .inr (admin_kept hpast hallowed)
  | approveTransfer admin from_ to_ => exact .inr (admin_kept hpast hallowed)

/-- In every run of a contract just deployed, the whitelist, the blacklist and the limits answer
for the last accepted call about the account, which only the first admin can make. No transfer
ever reads as approved, whatever was requested and approved. -/
theorem restrictions_after (past : List (Env Address × Call Address)) :
    (∀ account, isWhitelisted (after exec (Storage.fresh Address) past) account =
      lastSet (whitelistStep account) false past) ∧
    (∀ account, isBlacklisted (after exec (Storage.fresh Address) past) account =
      lastSet (blacklistStep account) false past) ∧
    (∀ account, getTransferLimit (after exec (Storage.fresh Address) past) account =
      lastSet (limitStep account) i128Max past) ∧
    (∀ account, 0 < (getTransferLimit (after exec (Storage.fresh Address) past) account).val) ∧
    (∀ from_ to_, isTransferApproved (after exec (Storage.fresh Address) past) from_ to_ = false) ∧
    ∀ i e, i :: e <:+ past → Accepted exec (Storage.fresh Address) e i →
      i.2.caller ∈ i.1.auths ∧
      ((∃ from_ to_ amount, i.2 = .requestTransferApproval from_ to_ amount) ∨
        (after exec (Storage.fresh Address) past).admin = some i.2.caller) :=
  ⟨isWhitelisted_after past, isBlacklisted_after past, getTransferLimit_after past,
    transferLimit_pos past, isTransferApproved_after past, caller_of_accepted past⟩

/-! ## Vested amounts -/

/-- The schedules that `set_vesting` accepts. -/
structure VestingSchedule.Valid (schedule : VestingSchedule) : Prop where
  total : 0 < schedule.total.val
  cliff : schedule.startLedger.val ≤ schedule.cliffLedger.val
  end_ : schedule.cliffLedger.val < schedule.endLedger.val

/-- The curve needs no product, or one that fits. -/
def VestingSchedule.Computable (schedule : VestingSchedule) (now : U32) : Prop :=
  now < schedule.cliffLedger ∨ schedule.endLedger ≤ now ∨
    schedule.total.val * (now.val - schedule.startLedger.val) ≤ i128Max.val

/-- The curve in exact arithmetic. -/
def VestingSchedule.vested (schedule : VestingSchedule) (now : U32) : Int :=
  if now < schedule.cliffLedger then 0
  else if schedule.endLedger ≤ now then schedule.total.val
  else schedule.total.val * (now.val - schedule.startLedger.val) /
    (schedule.endLedger.val - schedule.startLedger.val)

namespace VestingSchedule.Valid

variable {schedule : VestingSchedule}

/-- A part of the total that has passed is within the total. -/
theorem part_mem (h : schedule.Valid) {now : U32} (hcliff : ¬ now < schedule.cliffLedger)
    (hend : ¬ schedule.endLedger ≤ now) :
    0 ≤ now.val - schedule.startLedger.val ∧
      now.val - schedule.startLedger.val ≤ schedule.endLedger.val - schedule.startLedger.val ∧
      0 < schedule.endLedger.val - schedule.startLedger.val := by
  have hle := h.cliff
  rw [BoundedInt.lt_def, not_lt] at hcliff
  rw [BoundedInt.le_def, not_le] at hend
  omega

theorem vested_nonneg (h : schedule.Valid) (now : U32) : 0 ≤ schedule.vested now := by
  have htotal := h.total
  unfold VestingSchedule.vested
  split
  · exact le_refl 0
  split
  · exact htotal.le
  · next hcliff hend =>
    obtain ⟨hlo, -, hpos⟩ := h.part_mem hcliff hend
    exact Int.ediv_nonneg (Int.mul_nonneg htotal.le hlo) hpos.le

theorem vested_le (h : schedule.Valid) (now : U32) : schedule.vested now ≤ schedule.total.val := by
  have htotal := h.total
  unfold VestingSchedule.vested
  split
  · exact htotal.le
  split
  · exact le_refl _
  · next hcliff hend =>
    obtain ⟨-, hhi, hpos⟩ := h.part_mem hcliff hend
    refine (Int.ediv_le_ediv hpos (Int.mul_le_mul_of_nonneg_left hhi htotal.le)).trans_eq ?_
    exact Int.mul_ediv_cancel _ hpos.ne'

/-- Time only adds to what is vested. -/
theorem vested_mono (h : schedule.Valid) {now later : U32} (hle : now ≤ later) :
    schedule.vested now ≤ schedule.vested later := by
  rw [BoundedInt.le_def] at hle
  by_cases hcliff : now < schedule.cliffLedger
  · rw [VestingSchedule.vested, if_pos hcliff]
    exact h.vested_nonneg later
  by_cases hend : schedule.endLedger ≤ later
  · have hafter : ¬ later < schedule.cliffLedger := by
      rw [BoundedInt.lt_def] at hcliff ⊢
      omega
    rw [VestingSchedule.vested.eq_def schedule later, if_neg hafter, if_pos hend]
    exact h.vested_le now
  have hbefore : ¬ schedule.endLedger ≤ now := by
    rw [BoundedInt.le_def] at hend ⊢
    omega
  have hafter : ¬ later < schedule.cliffLedger := by
    rw [BoundedInt.lt_def] at hcliff ⊢
    omega
  obtain ⟨-, -, hpos⟩ := h.part_mem hcliff hbefore
  rw [VestingSchedule.vested, if_neg hcliff, if_neg hbefore, VestingSchedule.vested,
    if_neg hafter, if_neg hend]
  exact Int.ediv_le_ediv hpos (Int.mul_le_mul_of_nonneg_left (by omega) h.total.le)

end VestingSchedule.Valid

/-- The stored schedules passed the checks of `set_vesting`. -/
theorem getVesting_valid (past : List (Env Address × Call Address)) {account : Address}
    {schedule : VestingSchedule}
    (h : getVesting (after exec (Storage.fresh Address) past) account = some schedule) :
    schedule.Valid := by
  refine after_invariant (P := fun s : Storage Address =>
    ∀ account schedule, getVesting s account = some schedule → schedule.Valid) ?_
    (fun s i s' hs he => ?_) past account schedule h
  · intro account schedule hget
    exact absurd hget Table.get_empty_ne_some
  obtain ⟨-, hallowed, events, rfl⟩ := exec_ok he
  obtain ⟨env, call⟩ := i
  cases call with
  | setVesting admin x new =>
    obtain ⟨-, htotal, hcliff, hend⟩ := hallowed
    intro account schedule hget
    replace hget : (s.vesting.set x new).get account = some schedule := hget
    rw [Table.get_set] at hget
    split at hget
    · cases hget
      exact ⟨htotal, hcliff, hend⟩
    · exact hs account schedule hget
  | _ => exact hs

/-- The code computes the exact curve where the product fits, and overflows elsewhere. -/
theorem vestedAmount_eq_ok {s : Storage Address} {account : Address} {schedule : VestingSchedule}
    (hget : getVesting s account = some schedule) (hvalid : schedule.Valid) (env : Env Address)
    (v : I128) :
    vestedAmount env s account = .ok v ↔
      schedule.Computable env.sequence ∧ v.val = schedule.vested env.sequence := by
  have hs : s.vesting.get account = some schedule := hget
  have hok : ∀ w : I128, (.ok w : Outcome I128) = .ok v ↔ v.val = w.val := fun w =>
    ⟨fun h => congrArg BoundedInt.val (Except.ok.inj h).symm,
      fun h => congrArg Except.ok (BoundedInt.ext h.symm)⟩
  simp only [vestedAmount, hs, VestingSchedule.Computable, VestingSchedule.vested]
  split
  · next hcliff => simp only [hcliff, true_or, true_and, hok, BoundedInt.i128_zero_val]
  split
  · next hend => simp only [hend, true_or, or_true, true_and, hok]
  next hcliff hend =>
  obtain ⟨hlo, -, hpos⟩ := hvalid.part_mem hcliff hend
  have hproduct := Int.mul_nonneg hvalid.total.le hlo
  have hdiv := Int.tdiv_eq_ediv_of_nonneg (b := schedule.endLedger.val - schedule.startLedger.val)
    hproduct
  simp only [hcliff, hend, false_or, bind_eq_ok, BoundedInt.sub_eq_ok, BoundedInt.mul_eq_ok,
    BoundedInt.div_eq_ok, BoundedInt.u32AsI128_val]
  constructor
  · rintro ⟨elapsed, helapsed, duration, hduration, product, hp, -, hv⟩
    rw [hv, hp, helapsed, hduration, hdiv]
    rw [helapsed] at hp
    exact ⟨hp ▸ product.le_hi, rfl⟩
  · rintro ⟨hfits, hv⟩
    have hnow := env.sequence.le_hi
    have hends := schedule.endLedger.le_hi
    have hstart := schedule.startLedger.lo_le
    have hmin : (-170141183460469231731687303715884105728 : Int) ≤ 0 := by decide
    refine ⟨⟨_, hlo, by omega⟩, rfl, ⟨_, hpos.le, by omega⟩, rfl, ⟨_, hmin.trans hproduct, hfits⟩,
      rfl, hpos.ne', ?_⟩
    rw [hv, hdiv]

theorem vestedAmount_traps {s : Storage Address} {account : Address} {schedule : VestingSchedule}
    (hget : getVesting s account = some schedule) (hvalid : schedule.Valid) (env : Env Address) :
    TrapsOnly .overflow (vestedAmount env s account) := by
  have hs : s.vesting.get account = some schedule := hget
  simp only [vestedAmount, hs]
  split
  · exact .of_ok rfl
  split
  · exact .of_ok rfl
  next hcliff hend =>
  obtain ⟨-, -, hpos⟩ := hvalid.part_mem hcliff hend
  refine (BoundedInt.orOverflow_traps _).bind fun elapsed _ => ?_
  refine (BoundedInt.orOverflow_traps _).bind fun duration hduration => ?_
  refine (BoundedInt.orOverflow_traps _).bind fun product _ => ?_
  have hval := BoundedInt.sub_eq_ok.mp hduration
  have hne : duration.u32AsI128.val ≠ 0 := by
    rw [BoundedInt.u32AsI128_val, hval]
    exact hpos.ne'
  unfold BoundedInt.div
  rw [if_neg hne]
  exact BoundedInt.orOverflow_traps _

/-- In every run of a contract just deployed: an account without a schedule has nothing vested.
With one, the amount is the exact curve, cut to whole units. It lies between zero and the total,
never falls from a ledger to a later one, and is the total from the end on. Between the cliff and
the end it can be read exactly while the total times the ledgers elapsed is an `i128`; after
that, until the end, every reading traps with an overflow. -/
theorem vested_amounts (past : List (Env Address × Call Address)) (account : Address) :
    (getVesting (after exec (Storage.fresh Address) past) account = none → ∀ env : Env Address,
      vestedAmount env (after exec (Storage.fresh Address) past) account = .ok 0) ∧
    ∀ schedule, getVesting (after exec (Storage.fresh Address) past) account = some schedule →
      (∀ env : Env Address, ∀ v,
        vestedAmount env (after exec (Storage.fresh Address) past) account = .ok v ↔
          schedule.Computable env.sequence ∧ v.val = schedule.vested env.sequence) ∧
      (∀ env : Env Address,
        TrapsOnly .overflow
          (vestedAmount env (after exec (Storage.fresh Address) past) account)) ∧
      (∀ now, 0 ≤ schedule.vested now ∧ schedule.vested now ≤ schedule.total.val) ∧
      (∀ now later, now ≤ later → schedule.vested now ≤ schedule.vested later) ∧
      (∀ now later, schedule.cliffLedger ≤ now → now ≤ later → later < schedule.endLedger →
        ¬ schedule.Computable now → ¬ schedule.Computable later) ∧
      ∀ env : Env Address, schedule.endLedger ≤ env.sequence →
        vestedAmount env (after exec (Storage.fresh Address) past) account =
          .ok schedule.total := by
  refine ⟨fun hnone env => ?_, fun schedule hget => ?_⟩
  · have hs : (after exec (Storage.fresh Address) past).vesting.get account = none := hnone
    simp only [vestedAmount, hs]
  have hvalid := getVesting_valid past hget
  have heq := vestedAmount_eq_ok hget hvalid
  refine ⟨heq, vestedAmount_traps hget hvalid,
    fun now => ⟨hvalid.vested_nonneg now, hvalid.vested_le now⟩,
    fun now later hle => hvalid.vested_mono hle, ?_, fun env hend => ?_⟩
  · intro now later hcliff hle hend hnot hlater
    rw [BoundedInt.le_def] at hcliff hle
    rw [BoundedInt.lt_def] at hend
    simp only [VestingSchedule.Computable, BoundedInt.lt_def, BoundedInt.le_def] at hnot hlater
    rcases hlater with hbefore | hafter | hfits
    · omega
    · omega
    · refine hnot (.inr (.inr (le_trans ?_ hfits)))
      exact Int.mul_le_mul_of_nonneg_left (by omega) hvalid.total.le
  · have hafter : ¬ env.sequence < schedule.cliffLedger := by
      have hlt := hvalid.end_
      rw [BoundedInt.le_def] at hend
      rw [BoundedInt.lt_def]
      omega
    refine (heq env _).mpr ⟨.inr (.inl hend), ?_⟩
    rw [VestingSchedule.vested, if_neg hafter, if_pos hend]

end Scoopdope.TokenRestrictions

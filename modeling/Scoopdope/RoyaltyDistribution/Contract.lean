import Scoopdope.Soroban.Env
import Scoopdope.Soroban.Table

/-!
# Royalty distribution: storage and entry points

`RoyaltyDistributionContract` (`contracts/royalty_distribution/src/lib.rs`). A field of
the storage is one storage key, or a table for a family of keys; no function uses
`PaymentRecord`.

The second half has, for each call that returned, the checks that passed and the
storage it wrote.
-/

namespace Scoopdope.RoyaltyDistribution

open Soroban

structure RoyaltySplit where
  courseId : U64
  creatorPercentage : U32
  contributorPercentage : U32
  platformPercentage : U32

section Types

variable (Address : Type)

structure Storage where
  /- Instance storage. -/
  admin : Option Address
  /- Persistent storage. -/
  royaltySplit : Table U64 RoyaltySplit
  /-- `RoyaltyRecipient(course_id, index)`. -/
  royaltyRecipient : Table (U64 × U32) Address
  recipientCount : Table U64 U32
  royaltyBalance : Table Address I128
  /-- The events published so far, newest first. -/
  events : List (Event Address)

/-- The storage of a contract just deployed. -/
def Storage.fresh : Storage Address where
  admin := none
  royaltySplit := ∅
  royaltyRecipient := ∅
  recipientCount := ∅
  royaltyBalance := ∅
  events := []

end Types

variable {Address : Type}

/-- `env.events().publish(topics, data)`. -/
def Storage.publish (s : Storage Address) (topics data : List (Val Address)) : Storage Address :=
  { s with events := ⟨topics, data⟩ :: s.events }

def getRoyaltySplit (s : Storage Address) (courseId : U64) : Option RoyaltySplit :=
  s.royaltySplit.get courseId

def recipientCount (s : Storage Address) (courseId : U64) : U32 :=
  (s.recipientCount.get courseId).getD 0

variable [DecidableEq Address]

def getRoyaltyBalance (s : Storage Address) (recipient : Address) : I128 :=
  s.royaltyBalance.amount recipient

/-! ## Entry points -/

def initializeContract (env : Env Address) (s : Storage Address) (admin : Address) :
    Outcome (Storage Address) := do
  assert (s.admin.isSome = false) "Already initialized"
  env.requireAuth admin
  pure { s with admin := some admin }

def setRoyaltySplit (env : Env Address) (s : Storage Address) (admin : Address) (courseId : U64)
    (creatorPct contributorPct platformPct : U32) : Outcome (Storage Address) := do
  env.requireAuth admin
  let storedAdmin ← unwrap s.admin
  assert (admin = storedAdmin) "Only admin can set splits"
  let sum ← creatorPct.add contributorPct
  let sum ← sum.add platformPct
  assert (sum = .lit 100) "Percentages must sum to 100"
  let split : RoyaltySplit :=
    { courseId, creatorPercentage := creatorPct, contributorPercentage := contributorPct,
      platformPercentage := platformPct }
  let s := { s with royaltySplit := s.royaltySplit.set courseId split }
  pure (s.publish [.symbol "split", .symbol "crs"] [.u64 courseId])

def addRoyaltyRecipient (env : Env Address) (s : Storage Address) (admin : Address)
    (courseId : U64) (recipient : Address) : Outcome (Storage Address) := do
  env.requireAuth admin
  let storedAdmin ← unwrap s.admin
  assert (admin = storedAdmin) "Only admin can add recipients"
  let count := recipientCount s courseId
  let s := { s with royaltyRecipient := s.royaltyRecipient.set (courseId, count) recipient }
  let next ← count.add (.lit 1)
  pure { s with recipientCount := s.recipientCount.set courseId next }

/-- One of the three read-modify-writes of a balance in `distribute_royalties`. -/
def credit (s : Storage Address) (recipient : Address) (amount : I128) :
    Outcome (Storage Address) := do
  let balance ← (getRoyaltyBalance s recipient).add amount
  pure { s with royaltyBalance := s.royaltyBalance.set recipient balance }

/-- `(total_amount * percentage as i128) / 100`. -/
def percentage (totalAmount : I128) (pct : U32) : Outcome I128 :=
  totalAmount.mulDiv pct.u32AsI128 (.lit 100)

def distributeRoyalties (env : Env Address) (s : Storage Address) (admin : Address)
    (courseId : U64) (totalAmount : I128) : Outcome (Storage Address) := do
  env.requireAuth admin
  let storedAdmin ← unwrap s.admin
  assert (admin = storedAdmin) "Only admin can distribute"
  assert ((0 : I128) < totalAmount) "Amount must be positive"
  let split ← expect (getRoyaltySplit s courseId) "Royalty split not configured"
  let creatorAmount ← percentage totalAmount split.creatorPercentage
  let contributorAmount ← percentage totalAmount split.contributorPercentage
  let platformAmount ← percentage totalAmount split.platformPercentage
  let creator ← expect (s.royaltyRecipient.get (courseId, 0)) "Creator not set"
  let s ← credit s creator creatorAmount
  let count := recipientCount s courseId
  let s ← (if (.lit 1 : U32) < count then do
      let contributor ← expect (s.royaltyRecipient.get (courseId, .lit 1)) "Contributor not set"
      credit s contributor contributorAmount
    else pure s)
  -- The last recipient is the platform; it can be the creator or the contributor too.
  let platform ← expect (s.royaltyRecipient.get (courseId, count.saturatingSub (.lit 1)))
    "Platform not set"
  let s ← credit s platform platformAmount
  pure (s.publish [.symbol "dist", .symbol "crs"] [.u64 courseId, .i128 totalAmount])

/-- The amount withdrawn and the storage afterwards. -/
def withdrawRoyalties (env : Env Address) (s : Storage Address) (recipient : Address) :
    Outcome (I128 × Storage Address) := do
  env.requireAuth recipient
  let balance := getRoyaltyBalance s recipient
  assert ((0 : I128) < balance) "No royalties to withdraw"
  let s := { s with royaltyBalance := s.royaltyBalance.set recipient 0 }
  pure (balance, s.publish [.symbol "wdraw", .symbol "addr"] [.address recipient, .i128 balance])

/-- A call of an entry point that can write, with its arguments. -/
inductive Call (Address : Type)
  | initializeContract (admin : Address)
  | setRoyaltySplit (admin : Address) (courseId : U64)
      (creatorPct contributorPct platformPct : U32)
  | addRoyaltyRecipient (admin : Address) (courseId : U64) (recipient : Address)
  | distributeRoyalties (admin : Address) (courseId : U64) (totalAmount : I128)
  | withdrawRoyalties (recipient : Address)

/-- One call in its environment. The returned value is dropped; the entry points
above have it. -/
def exec (s : Storage Address) (i : Env Address × Call Address) : Outcome (Storage Address) :=
  match i.2 with
  | .initializeContract admin => initializeContract i.1 s admin
  | .setRoyaltySplit admin courseId creatorPct contributorPct platformPct =>
    setRoyaltySplit i.1 s admin courseId creatorPct contributorPct platformPct
  | .addRoyaltyRecipient admin courseId recipient =>
    addRoyaltyRecipient i.1 s admin courseId recipient
  | .distributeRoyalties admin courseId totalAmount =>
    distributeRoyalties i.1 s admin courseId totalAmount
  | .withdrawRoyalties recipient => (withdrawRoyalties i.1 s recipient).map Prod.snd

/-! ## What an accepted call does -/

section Steps

variable {env : Env Address} {s s' : Storage Address} {admin : Address} {courseId : U64}

/-- The recipients of the courses stay as they are. -/
def SameRecipients (s s' : Storage Address) : Prop :=
  s'.royaltyRecipient = s.royaltyRecipient ∧ s'.recipientCount = s.recipientCount

theorem initializeContract_ok :
    initializeContract env s admin = .ok s' ↔
      s.admin.isSome = false ∧ admin ∈ env.auths ∧ s' = { s with admin := some admin } := by
  simp only [initializeContract, bind_eq_ok, assert_eq_ok, Env.requireAuth_eq_ok, exists_const,
    pure_eq_ok, @eq_comm _ s']

theorem setRoyaltySplit_ok {creatorPct contributorPct platformPct : U32}
    (h : setRoyaltySplit env s admin courseId creatorPct contributorPct platformPct = .ok s') :
    creatorPct.val + contributorPct.val + platformPct.val = 100 ∧
      s'.royaltySplit = s.royaltySplit.set courseId
        ⟨courseId, creatorPct, contributorPct, platformPct⟩ ∧
      s'.royaltyBalance = s.royaltyBalance ∧ SameRecipients s s' := by
  simp only [setRoyaltySplit, bind_eq_ok, assert_eq_ok, Env.requireAuth_eq_ok, unwrap_eq_ok,
    BoundedInt.add_eq_ok, exists_const, pure_eq_ok] at h
  obtain ⟨_, _, _, _, sum₁, hsum₁, sum₂, hsum₂, heq, rfl⟩ := h
  rw [heq, hsum₁] at hsum₂
  exact ⟨hsum₂.symm, rfl, rfl, rfl, rfl⟩

theorem addRoyaltyRecipient_ok {recipient : Address}
    (h : addRoyaltyRecipient env s admin courseId recipient = .ok s') :
    s'.royaltySplit = s.royaltySplit ∧ s'.royaltyBalance = s.royaltyBalance ∧
      ∃ next : U32, next.val = (recipientCount s courseId).val + 1 ∧
        s'.royaltyRecipient =
          s.royaltyRecipient.set (courseId, recipientCount s courseId) recipient ∧
        s'.recipientCount = s.recipientCount.set courseId next := by
  simp only [addRoyaltyRecipient, bind_eq_ok, assert_eq_ok, Env.requireAuth_eq_ok, unwrap_eq_ok,
    BoundedInt.add_eq_ok, exists_const, pure_eq_ok] at h
  obtain ⟨_, _, _, _, next, hnext, rfl⟩ := h
  exact ⟨rfl, rfl, next, hnext, rfl, rfl⟩

theorem credit_ok {recipient : Address} {amount : I128} :
    credit s recipient amount = .ok s' ↔
      ∃ balance : I128, balance.val = (getRoyaltyBalance s recipient).val + amount.val ∧
        s' = { s with royaltyBalance := s.royaltyBalance.set recipient balance } := by
  simp only [credit, bind_eq_ok, BoundedInt.add_eq_ok, pure_eq_ok, @eq_comm _ s']

/-- A credit writes a balance only. -/
theorem credit_keeps {recipient : Address} {amount : I128}
    (h : credit s recipient amount = .ok s') :
    s'.royaltySplit = s.royaltySplit ∧ SameRecipients s s' := by
  obtain ⟨_, _, rfl⟩ := credit_ok.mp h
  exact ⟨rfl, rfl, rfl⟩

omit [DecidableEq Address] in
theorem keeps_trans {t : Storage Address}
    (h : s'.royaltySplit = s.royaltySplit ∧ SameRecipients s s')
    (h' : t.royaltySplit = s'.royaltySplit ∧ SameRecipients s' t) :
    t.royaltySplit = s.royaltySplit ∧ SameRecipients s t :=
  ⟨h'.1.trans h.1, h'.2.1.trans h.2.1, h'.2.2.trans h.2.2⟩

theorem percentage_ok {totalAmount amount : I128} {pct : U32}
    (h : percentage totalAmount pct = .ok amount) :
    amount.val = (totalAmount.val * pct.val).tdiv 100 :=
  (BoundedInt.mulDiv_ok h).2

/-- A distribution credits the creator, the contributor if there is a second recipient,
and the platform, one after the other. -/
theorem distributeRoyalties_ok {totalAmount : I128}
    (h : distributeRoyalties env s admin courseId totalAmount = .ok s') :
    ∃ (split : RoyaltySplit) (creatorAmount contributorAmount platformAmount : I128)
      (creator contributor platform : Address) (s₁ s₂ s₃ : Storage Address),
      0 < totalAmount.val ∧ getRoyaltySplit s courseId = some split ∧
      creatorAmount.val = (totalAmount.val * split.creatorPercentage.val).tdiv 100 ∧
      contributorAmount.val = (totalAmount.val * split.contributorPercentage.val).tdiv 100 ∧
      platformAmount.val = (totalAmount.val * split.platformPercentage.val).tdiv 100 ∧
      credit s creator creatorAmount = .ok s₁ ∧
      (if (.lit 1 : U32) < recipientCount s courseId then
        credit s₁ contributor contributorAmount = .ok s₂ else s₂ = s₁) ∧
      credit s₂ platform platformAmount = .ok s₃ ∧
      s'.royaltySplit = s.royaltySplit ∧ s'.royaltyBalance = s₃.royaltyBalance ∧
      SameRecipients s s' := by
  simp only [distributeRoyalties, bind_eq_ok, assert_eq_ok, Env.requireAuth_eq_ok, unwrap_eq_ok,
    expect_eq_ok, exists_const, pure_eq_ok] at h
  obtain ⟨_, _, _, _, hpos, split, hsplit, creatorAmount, hcreator, contributorAmount,
    hcontributor, platformAmount, hplatform, creator, _, s₁, h₁, s₂, h₂, platform, _, s₃, h₃,
    rfl⟩ := h
  have hcount : recipientCount s₁ courseId = recipientCount s courseId := by
    obtain ⟨_, _, rfl⟩ := credit_ok.mp h₁
    rfl
  have hkept : s₁.royaltySplit = s.royaltySplit ∧ SameRecipients s s₁ := credit_keeps h₁
  rw [hcount] at h₂
  split at h₂
  · next hsecond =>
    obtain ⟨contributor, _, h₂⟩ := bind_eq_ok.mp h₂
    have hkept₂ : s₃.royaltySplit = s.royaltySplit ∧ SameRecipients s s₃ :=
      keeps_trans hkept (keeps_trans (credit_keeps h₂) (credit_keeps h₃))
    exact ⟨split, creatorAmount, contributorAmount, platformAmount, creator, contributor, platform,
      s₁, s₂, s₃, hpos, hsplit, percentage_ok hcreator, percentage_ok hcontributor,
      percentage_ok hplatform, h₁, by rw [if_pos hsecond]; exact h₂, h₃, hkept₂.1, rfl, hkept₂.2⟩
  · next hsole =>
    cases pure_eq_ok.mp h₂
    have hkept₂ : s₃.royaltySplit = s.royaltySplit ∧ SameRecipients s s₃ :=
      keeps_trans hkept (credit_keeps h₃)
    exact ⟨split, creatorAmount, contributorAmount, platformAmount, creator, creator, platform,
      s₁, s₁, s₃, hpos, hsplit, percentage_ok hcreator, percentage_ok hcontributor,
      percentage_ok hplatform, h₁, by rw [if_neg hsole], h₃, hkept₂.1, rfl, hkept₂.2⟩

theorem withdrawRoyalties_ok {recipient : Address} {withdrawn : I128}
    (h : withdrawRoyalties env s recipient = .ok (withdrawn, s')) :
    withdrawn = getRoyaltyBalance s recipient ∧
      s'.royaltyBalance = s.royaltyBalance.set recipient 0 ∧
      s'.royaltySplit = s.royaltySplit ∧ SameRecipients s s' := by
  simp only [withdrawRoyalties, bind_eq_ok, assert_eq_ok, Env.requireAuth_eq_ok, exists_const,
    pure_eq_ok] at h
  obtain ⟨_, _, heq⟩ := h
  cases heq
  exact ⟨rfl, rfl, rfl, rfl, rfl⟩

end Steps

/-! ## Initialised storages -/

/-- The storage after `initialize`. -/
def Initialised (admin : Address) (s : Storage Address) : Prop :=
  ∃ env, initializeContract env (Storage.fresh Address) admin = .ok s

/-- The contract with contract 1 as admin. -/
def exampleRoyalties : Storage Nat := { Storage.fresh Nat with admin := some 1 }

theorem exampleRoyalties_initialised : Initialised 1 exampleRoyalties := ⟨exampleEnv 0 [1], rfl⟩

end Scoopdope.RoyaltyDistribution

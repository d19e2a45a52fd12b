import Scoopdope.Soroban.Env
import Scoopdope.Soroban.Table

/-!
# Scholarship fund: storage and entry points

`ScholarshipFundContract` (`contracts/scholarship_fund/src/lib.rs`). A field of the
storage is one storage key, or a table for a family of keys.

The second half has, for each call that returned, the checks that passed and the
storage it wrote (`Effect`).
-/

namespace Scoopdope.ScholarshipFund

open Soroban

section Types

variable (Address : Type)

structure ScholarshipApplication where
  id : U64
  student : Address
  amountRequested : I128
  /-- 0 = pending, 1 = approved, 2 = rejected. -/
  status : U8
  appliedAt : U64

structure Storage where
  /- Instance storage. -/
  admin : Option Address
  fundBalance : Option I128
  applicationCount : Option U64
  /- Persistent storage. -/
  application : Table U64 (ScholarshipApplication Address)
  donorTotal : Table Address I128
  /-- The events published so far, newest first. -/
  events : List (Event Address)

/-- The storage of a contract just deployed. -/
def Storage.fresh : Storage Address where
  admin := none
  fundBalance := none
  applicationCount := none
  application := ∅
  donorTotal := ∅
  events := []

end Types

variable {Address : Type}

/-- `env.events().publish(topics, data)`. -/
def Storage.publish (s : Storage Address) (topics data : List (Val Address)) : Storage Address :=
  { s with events := ⟨topics, data⟩ :: s.events }

def getFundBalance (s : Storage Address) : I128 := s.fundBalance.getD 0

def getApplication (s : Storage Address) (appId : U64) :
    Option (ScholarshipApplication Address) :=
  s.application.get appId

def applicationCount (s : Storage Address) : U64 := s.applicationCount.getD 0

variable [DecidableEq Address]

def getDonorTotal (s : Storage Address) (donor : Address) : I128 := s.donorTotal.amount donor

/-! ## Entry points -/

def initializeContract (env : Env Address) (s : Storage Address) (admin : Address) :
    Outcome (Storage Address) := do
  assert (s.admin.isSome = false) "Already initialized"
  env.requireAuth admin
  pure { s with admin := some admin, fundBalance := some 0, applicationCount := some 0 }

def donate (env : Env Address) (s : Storage Address) (donor : Address) (amount : I128) :
    Outcome (Storage Address) := do
  env.requireAuth donor
  assert ((0 : I128) < amount) "Donation must be positive"
  let balance ← (getFundBalance s).add amount
  let s := { s with fundBalance := some balance }
  let donorTotal ← (getDonorTotal s donor).add amount
  let s := { s with donorTotal := s.donorTotal.set donor donorTotal }
  pure (s.publish [.symbol "donate", .symbol "fund"] [.address donor, .i128 amount])

/-- The id of the application and the storage afterwards. -/
def applyForScholarship (env : Env Address) (s : Storage Address) (student : Address)
    (amountRequested : I128) : Outcome (U64 × Storage Address) := do
  env.requireAuth student
  assert ((0 : I128) < amountRequested) "Amount must be positive"
  let appId := applicationCount s
  let application : ScholarshipApplication Address :=
    { id := appId, student, amountRequested, status := .lit 0, appliedAt := env.timestamp }
  let s := { s with application := s.application.set appId application }
  let count ← appId.add (.lit 1)
  let s := { s with applicationCount := some count }
  pure (appId, s.publish [.symbol "apply", .symbol "stud"] [.address student, .u64 appId])

/-- The common part of `approve_application` and `reject_application`. -/
def processApplication (env : Env Address) (s : Storage Address) (admin : Address) (appId : U64)
    (onlyAdmin : String) (status : U8) : Outcome (Storage Address) := do
  env.requireAuth admin
  let storedAdmin ← unwrap s.admin
  assert (admin = storedAdmin) onlyAdmin
  let app ← expect (getApplication s appId) "Application not found"
  assert (app.status = .lit 0) "Application already processed"
  pure { s with application := s.application.set appId { app with status } }

def approveApplication (env : Env Address) (s : Storage Address) (admin : Address) (appId : U64) :
    Outcome (Storage Address) := do
  let s ← processApplication env s admin appId "Only admin can approve" (.lit 1)
  pure (s.publish [.symbol "appr", .symbol "app"] [.u64 appId])

def rejectApplication (env : Env Address) (s : Storage Address) (admin : Address) (appId : U64) :
    Outcome (Storage Address) :=
  processApplication env s admin appId "Only admin can reject" (.lit 2)

def distributeScholarship (env : Env Address) (s : Storage Address) (admin : Address)
    (appId : U64) : Outcome (Storage Address) := do
  env.requireAuth admin
  let storedAdmin ← unwrap s.admin
  assert (admin = storedAdmin) "Only admin can distribute"
  let app ← expect (getApplication s appId) "Application not found"
  assert (app.status = .lit 1) "Application not approved"
  assert (app.amountRequested ≤ getFundBalance s) "Insufficient fund balance"
  let balance ← (getFundBalance s).sub app.amountRequested
  -- The application stays approved.
  let s := { s with fundBalance := some balance }
  pure (s.publish [.symbol "dist", .symbol "stud"]
    [.address app.student, .i128 app.amountRequested])

/-- A call of an entry point that can write, with its arguments. -/
inductive Call (Address : Type)
  | initializeContract (admin : Address)
  | donate (donor : Address) (amount : I128)
  | applyForScholarship (student : Address) (amountRequested : I128)
  | approveApplication (admin : Address) (appId : U64)
  | rejectApplication (admin : Address) (appId : U64)
  | distributeScholarship (admin : Address) (appId : U64)

/-- One call in its environment. The returned value is dropped; the entry points
above have it. -/
def exec (s : Storage Address) (i : Env Address × Call Address) : Outcome (Storage Address) :=
  match i.2 with
  | .initializeContract admin => initializeContract i.1 s admin
  | .donate donor amount => donate i.1 s donor amount
  | .applyForScholarship student amountRequested =>
    (applyForScholarship i.1 s student amountRequested).map Prod.snd
  | .approveApplication admin appId => approveApplication i.1 s admin appId
  | .rejectApplication admin appId => rejectApplication i.1 s admin appId
  | .distributeScholarship admin appId => distributeScholarship i.1 s admin appId

/-! ## What an accepted call does -/

/-- The keys that hold applications are unchanged. -/
structure SameApplications (s s' : Storage Address) : Prop where
  application : s'.application = s.application
  applicationCount : s'.applicationCount = s.applicationCount

/-- The keys that hold money are unchanged. -/
structure SameFunds (s s' : Storage Address) : Prop where
  fundBalance : s'.fundBalance = s.fundBalance
  donorTotal : s'.donorTotal = s.donorTotal

/-- The call approves the application, which gives it status 1, or rejects it, which
gives it status 2. -/
def Call.Decides (call : Call Address) (appId : U64) (status : U8) : Prop :=
  (∃ admin, call = .approveApplication admin appId ∧ status = .lit 1) ∨
    ∃ admin, call = .rejectApplication admin appId ∧ status = .lit 2

/-- The checks of `distribute_scholarship`. -/
structure Distributable (env : Env Address) (s : Storage Address) (admin : Address) (appId : U64)
    (app : ScholarshipApplication Address) : Prop where
  auth : admin ∈ env.auths
  admin : s.admin = some admin
  get : getApplication s appId = some app
  approved : app.status = .lit 1
  covered : app.amountRequested.val ≤ (getFundBalance s).val

inductive Effect (s : Storage Address) (i : Env Address × Call Address) (s' : Storage Address) :
    Prop
  | donated (donor : Address) (amount balance donorTotal : I128)
      (hcall : i.2 = .donate donor amount) (hpos : 0 < amount.val)
      (hbalance : balance.val = (getFundBalance s).val + amount.val)
      (hdonor : donorTotal.val = (getDonorTotal s donor).val + amount.val)
      (hfund : s'.fundBalance = some balance)
      (hdonors : s'.donorTotal = s.donorTotal.set donor donorTotal) (h : SameApplications s s')
  | applied (student : Address) (amountRequested : I128) (count : U64)
      (app : ScholarshipApplication Address)
      (hcall : i.2 = .applyForScholarship student amountRequested)
      (hpos : 0 < amountRequested.val) (hamount : app.amountRequested = amountRequested)
      (hstatus : app.status = .lit 0) (hcount : count.val = (applicationCount s).val + 1)
      (happs : s'.application = s.application.set (applicationCount s) app)
      (hnext : s'.applicationCount = some count) (h : SameFunds s s')
  | decided (appId : U64) (app : ScholarshipApplication Address) (status : U8)
      (hcall : i.2.Decides appId status) (hget : getApplication s appId = some app)
      (hpending : app.status = .lit 0)
      (happs : s'.application = s.application.set appId { app with status })
      (hnext : s'.applicationCount = s.applicationCount) (h : SameFunds s s')
  | distributed (admin : Address) (appId : U64) (app : ScholarshipApplication Address)
      (balance : I128) (hcall : i.2 = .distributeScholarship admin appId)
      (hcheck : Distributable i.1 s admin appId app)
      (hbalance : balance.val = (getFundBalance s).val - app.amountRequested.val)
      (hfund : s'.fundBalance = some balance) (hdonors : s'.donorTotal = s.donorTotal)
      (h : SameApplications s s')

section Steps

variable {env : Env Address} {s s' : Storage Address} {admin : Address} {appId : U64}

theorem initializeContract_ok :
    initializeContract env s admin = .ok s' ↔ s.admin.isSome = false ∧ admin ∈ env.auths ∧
      s' = { s with admin := some admin, fundBalance := some 0, applicationCount := some 0 } := by
  simp only [initializeContract, bind_eq_ok, assert_eq_ok, Env.requireAuth_eq_ok, exists_const,
    pure_eq_ok, @eq_comm _ s']

theorem processApplication_ok {onlyAdmin : String} {status : U8}
    (h : processApplication env s admin appId onlyAdmin status = .ok s') :
    ∃ app, getApplication s appId = some app ∧ app.status = .lit 0 ∧
      s' = { s with application := s.application.set appId { app with status } } := by
  simp only [processApplication, bind_eq_ok, assert_eq_ok, Env.requireAuth_eq_ok, unwrap_eq_ok,
    expect_eq_ok, exists_const, pure_eq_ok] at h
  obtain ⟨_, _, _, _, app, hget, hpending, rfl⟩ := h
  exact ⟨app, hget, hpending, rfl⟩

theorem distributeScholarship_ok :
    distributeScholarship env s admin appId = .ok s' ↔ ∃ app, ∃ balance : I128,
      Distributable env s admin appId app ∧
      balance.val = (getFundBalance s).val - app.amountRequested.val ∧
      s' = Storage.publish { s with fundBalance := some balance }
        [.symbol "dist", .symbol "stud"] [.address app.student, .i128 app.amountRequested] := by
  simp only [distributeScholarship, bind_eq_ok, assert_eq_ok, Env.requireAuth_eq_ok, unwrap_eq_ok,
    expect_eq_ok, BoundedInt.sub_eq_ok, exists_const, pure_eq_ok]
  constructor
  · rintro ⟨hauth, stored, hadmin, rfl, app, hget, happroved, hcovered, balance, hbalance, rfl⟩
    exact ⟨app, balance, ⟨hauth, hadmin, hget, happroved, hcovered⟩, hbalance, rfl⟩
  · rintro ⟨app, balance, h, hbalance, rfl⟩
    exact ⟨h.auth, admin, h.admin, rfl, app, h.get, h.approved, h.covered, balance, hbalance, rfl⟩

/-- What an accepted call does to an initialised fund, of which the admin stays. -/
theorem exec_effect {i : Env Address × Call Address} (hadmin : s.admin = some admin)
    (h : exec s i = .ok s') : Effect s i s' ∧ s'.admin = some admin := by
  obtain ⟨env, call⟩ := i
  cases call with
  | initializeContract admin' =>
    obtain ⟨hnone, _⟩ := initializeContract_ok.mp h
    rw [hadmin] at hnone
    cases hnone
  | donate donor amount =>
    have hd : donate env s donor amount = .ok s' := h
    simp only [donate, bind_eq_ok, assert_eq_ok, Env.requireAuth_eq_ok, BoundedInt.add_eq_ok,
      exists_const, pure_eq_ok] at hd
    obtain ⟨_, hpos, balance, hbalance, donorTotal, hdonor, rfl⟩ := hd
    exact ⟨.donated donor amount balance donorTotal rfl hpos hbalance hdonor rfl rfl ⟨rfl, rfl⟩,
      hadmin⟩
  | applyForScholarship student amountRequested =>
    obtain ⟨id, ha⟩ := map_snd_eq_ok.mp h
    simp only [applyForScholarship, bind_eq_ok, assert_eq_ok, Env.requireAuth_eq_ok,
      BoundedInt.add_eq_ok, exists_const, pure_eq_ok, BoundedInt.lit_val] at ha
    obtain ⟨_, hpos, count, hcount, heq⟩ := ha
    cases heq
    exact ⟨.applied student amountRequested count _ rfl hpos rfl rfl hcount rfl rfl ⟨rfl, rfl⟩,
      hadmin⟩
  | approveApplication admin' appId =>
    have hcall : approveApplication env s admin' appId = .ok s' := h
    obtain ⟨s₁, hp, hs'⟩ := bind_eq_ok.mp hcall
    obtain ⟨app, hget, hpending, rfl⟩ := processApplication_ok hp
    cases pure_eq_ok.mp hs'
    exact ⟨.decided appId app _ (.inl ⟨admin', rfl, rfl⟩) hget hpending rfl rfl ⟨rfl, rfl⟩, hadmin⟩
  | rejectApplication admin' appId =>
    obtain ⟨app, hget, hpending, rfl⟩ := processApplication_ok
      (show processApplication env s admin' appId "Only admin can reject" (.lit 2) = .ok s' from h)
    exact ⟨.decided appId app _ (.inr ⟨admin', rfl, rfl⟩) hget hpending rfl rfl ⟨rfl, rfl⟩, hadmin⟩
  | distributeScholarship admin' appId =>
    obtain ⟨app, balance, hcheck, hbalance, rfl⟩ := distributeScholarship_ok.mp h
    exact ⟨.distributed admin' appId app balance rfl hcheck hbalance rfl rfl ⟨rfl, rfl⟩, hadmin⟩

end Steps

/-! ## Initialised storages -/

/-- The storage after `initialize`. -/
def Initialised (admin : Address) (s : Storage Address) : Prop :=
  ∃ env, initializeContract env (Storage.fresh Address) admin = .ok s

/-- The fund with contract 1 as admin. -/
def exampleFund : Storage Nat :=
  { Storage.fresh Nat with admin := some 1, fundBalance := some 0, applicationCount := some 0 }

theorem exampleFund_initialised : Initialised 1 exampleFund := ⟨exampleEnv 0 [1], rfl⟩

end Scoopdope.ScholarshipFund

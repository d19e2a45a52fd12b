import Scoopdope.Database.Repository
import Scoopdope.Server.Http

/-!
# Users: the service

`UsersService` (`users/users.service.ts`), as far as the authentication uses it, over three
operations of the repository. `save` writes every column of the object it is given. A
`save` or an insertion that breaks a unique constraint writes nothing and is an error.
-/

namespace Scoopdope.Users

open Async Database Server

/-! ## The entity

The columns of the table `users` (`users/user.entity.ts`). Dates are milliseconds; a
column that may be NULL has an `Option` type. -/

inductive SubscriptionTier
  | free
  | pro
  | enterprise
deriving DecidableEq

structure NotificationPreferences where
  courseUpdates : Bool
  liveSessions : Bool
  tokenRewards : Bool
  pushEnabled : Bool
deriving DecidableEq

inductive Column
  | id
  | email
  | username
  | passwordHash
  | avatar
  | bio
  | stellarPublicKey
  | role
  | isBanned
  | isVerified
  | deletedAt
  | verificationToken
  | verificationTokenExpiresAt
  | mfaEnabled
  | mfaSecret
  | mfaBackupCodes
  | referralCode
  | referredBy
  | currentStreak
  | longestStreak
  | lastActivityAt
  | subscriptionTier
  | stripeCustomerId
  | stripeSubscriptionId
  | subscriptionExpiresAt
  | notificationPreferences
  | createdAt
deriving DecidableEq

/-- The values of a column. -/
abbrev Column.type : Column → Type
  | .id => String
  | .email => String
  | .username => Option String
  | .passwordHash => String
  | .avatar => Option String
  | .bio => Option String
  | .stellarPublicKey => Option String
  | .role => String
  | .isBanned => Bool
  | .isVerified => Bool
  | .deletedAt => Option Int
  | .verificationToken => Option String
  | .verificationTokenExpiresAt => Option Int
  | .mfaEnabled => Bool
  | .mfaSecret => Option String
  | .mfaBackupCodes => Option (List String)
  | .referralCode => Option String
  | .referredBy => Option String
  | .currentStreak => Int
  | .longestStreak => Int
  | .lastActivityAt => Option Int
  | .subscriptionTier => SubscriptionTier
  | .stripeCustomerId => Option String
  | .stripeSubscriptionId => Option String
  | .subscriptionExpiresAt => Option Int
  | .notificationPreferences => Option NotificationPreferences
  | .createdAt => Int

abbrev User : Type := Row Column.type

/-- `Partial<User>`. -/
abbrev UserData : Type := Patch Column.type

/-- The defaults of the columns. `id` and `createdAt` are generated at the insertion. -/
def User.default (id : String) (createdAt : Int) : User
  | .id => id
  | .email => ""
  | .username => none
  | .passwordHash => ""
  | .avatar => none
  | .bio => none
  | .stellarPublicKey => none
  | .role => "student"
  | .isBanned => false
  | .isVerified => false
  | .deletedAt => none
  | .verificationToken => none
  | .verificationTokenExpiresAt => none
  | .mfaEnabled => false
  | .mfaSecret => none
  | .mfaBackupCodes => none
  | .referralCode => none
  | .referredBy => none
  | .currentStreak => 0
  | .longestStreak => 0
  | .lastActivityAt => none
  | .subscriptionTier => .free
  | .stripeCustomerId => none
  | .stripeSubscriptionId => none
  | .subscriptionExpiresAt => none
  | .notificationPreferences => some
      { courseUpdates := true, liveSessions := true, tokenRewards := true, pushEnabled := false }
  | .createdAt => createdAt

/-! ## The repository -/

/-- The conditions rows are looked up by. -/
inductive Where
  | id (id : String)
  | email (email : String)
  | verificationToken (hash : String)
  | stellarPublicKey (stellarPublicKey : String)
  | referralCode (code : String)
deriving DecidableEq

def Where.holds : Where → User → Bool
  | .id key, user => user .id = key
  | .email address, user => user .email = address
  | .verificationToken hash, user => user .verificationToken = some hash
  | .stellarPublicKey key, user => user .stellarPublicKey = some key
  | .referralCode code, user => user .referralCode = some code

inductive Op
  | findOne (condition : Where)
  | save (user : User)
  | insert (data : UserData)

/-- `save` answers whether the row was written, `insert` with the new row. -/
abbrev Op.answer : Op → Type
  | .findOne _ => Option User
  | .save _ => Bool
  | .insert _ => Option User

abbrev usersInterface : Interface where
  Op := Op
  Answer := Op.answer

/-- The rows of `users`, by id. -/
abbrev UserTable : Type := Repository fun user : User => user .id

/-- Some other row has the email, the username or the referral code of this one. -/
def conflicts (users : UserTable) (user : User) : Bool :=
  (users.findOne fun other =>
    other .id ≠ user .id ∧
      (other .email = user .email ∨
        (user .username).isSome ∧ other .username = user .username ∨
        (user .referralCode).isSome ∧ other .referralCode = user .referralCode)).isSome

/-- The row that an insertion makes. -/
def inserted (env : Env) (data : UserData) : User := spread (User.default env.uuid env.now) data

def handle (env : Env) (users : UserTable) : (o : Op) → o.answer × UserTable
  | .findOne (.id id) => (users.get id, users)
  | .findOne condition => (users.findOne condition.holds, users)
  | .save user =>
    if conflicts users user then (false, users) else (true, users.save user)
  | .insert data =>
    let user := inserted env data
    if (users.get (user .id)).isSome || conflicts users user then (none, users)
    else (some user, users.save user)

theorem handle_findOne (env : Env) (users : UserTable) (condition : Where) :
    (handle env users (.findOne condition)).2 = users := by
  cases condition <;> rfl

theorem handle_save (env : Env) {users : UserTable} {user : User}
    (h : conflicts users user = false) :
    handle env users (.save user) = (true, users.save user) := by
  simp [handle, h]

theorem handle_save_conflict (env : Env) {users : UserTable} {user : User}
    (h : conflicts users user = true) : handle env users (.save user) = (false, users) := by
  simp [handle, h]

/-! ## Methods -/

def query (o : Op) : Service usersInterface o.answer := Process.perform (I := usersInterface) o

def findByEmail (email : String) : Service usersInterface (Option User) :=
  query (.findOne (.email email))

def findByVerificationToken (hash : String) : Service usersInterface (Option User) :=
  query (.findOne (.verificationToken hash))

def findById (id : String) : Service usersInterface (Option User) :=
  query (.findOne (.id id))

def findByStellarPublicKey (stellarPublicKey : String) : Service usersInterface (Option User) :=
  query (.findOne (.stellarPublicKey stellarPublicKey))

def findByReferralCode (code : String) : Service usersInterface (Option User) :=
  query (.findOne (.referralCode code))

def duplicateKey : HttpException := .internal "duplicate key value"

/-- `repo.save(user)`. -/
def save (user : User) : Service usersInterface User := do
  let written ← query (.save user)
  if written then pure user else .fail duplicateKey

/-- `repo.save(repo.create(data))`. -/
def create (data : UserData) : Service usersInterface User := do
  orThrow duplicateKey (← query (.insert data))

/-- The row is read, some columns of it are replaced, and all of it is written back. -/
def modify (id : String) (data : Env → UserData) : Service usersInterface User := do
  let user ← orThrow (.notFound "User not found") (← findById id)
  let env ← Process.env
  save (spread user (data env))

def update (id : String) (data : UserData) : Service usersInterface User :=
  modify id fun _ => data

def banUser (id : String) (isBanned : Bool) : Service usersInterface User :=
  modify id fun _ => Patch.empty.set .isBanned isBanned

def changeRole (id role : String) : Service usersInterface User :=
  modify id fun _ => Patch.empty.set .role role

def softDelete (id : String) : Service usersInterface User :=
  modify id fun env => Patch.empty.set .deletedAt (some env.now)

/-- `id.slice(0, 8)` -/
def shortId (id : String) : String := String.ofList (id.toList.take 8)

/-- What is left of a user: no password, and an address that no mail is sent to. -/
def anonymized (id : String) (env : Env) : UserData :=
  ((((((((((Patch.empty.set .email ("deleted-" ++ shortId id ++ "@anonymized.invalid")).set
    .username (some ("deleted-user-" ++ shortId id))).set .passwordHash "").set .avatar none).set
    .bio none).set .stellarPublicKey none).set .referralCode none).set .stripeCustomerId none).set
    .stripeSubscriptionId none).set .deletedAt (some env.now))

def anonymizeUser (id : String) : Service usersInterface Unit := do
  let _ ← modify id (anonymized id)
  pure ()

/-! ## Running alone -/

section Run

variable {env : Env} {users : UserTable}

theorem run_save (user : User) :
    (save user).run handle env users =
      if conflicts users user then (.error duplicateKey, users)
      else (.ok user, users.save user) := by
  have hsave : (save user).run handle env users =
      Process.run (I := usersInterface) handle env (handle env users (.save user)).2
        (if (handle env users (.save user)).1 then .ret user else .fail duplicateKey) := rfl
  rw [hsave]
  cases h : conflicts users user with
  | false => rw [handle_save env h]; rfl
  | true => rw [handle_save_conflict env h]; rfl

theorem run_create (data : UserData) :
    (create data).run handle env users =
      if (users.get (inserted env data .id)).isSome || conflicts users (inserted env data) then
        (.error duplicateKey, users)
      else (.ok (inserted env data), users.save (inserted env data)) := by
  have hcreate : (create data).run handle env users =
      Process.run (I := usersInterface) handle env (handle env users (.insert data)).2
        (orThrow duplicateKey (handle env users (.insert data)).1) := rfl
  rw [hcreate]
  simp only [handle]
  split <;> rfl

theorem run_modify (id : String) (data : Env → UserData) :
    (modify id data).run handle env users =
      match users.get id with
      | none => (.error (.notFound "User not found"), users)
      | some user => (save (spread user (data env))).run handle env users := by
  have hmodify : (modify id data).run handle env users =
      Process.run (I := usersInterface) handle env users
        (orThrow (.notFound "User not found") (users.get id) >>= fun user =>
          .ask fun env => save (spread user (data env))) := rfl
  rw [hmodify]
  cases users.get id <;> rfl

theorem run_update (id : String) (data : UserData) :
    (update id data).run handle env users =
      match users.get id with
      | none => (.error (.notFound "User not found"), users)
      | some user =>
        if conflicts users (spread user data) then (.error duplicateKey, users)
        else (.ok (spread user data), users.save (spread user data)) := by
  rw [update, run_modify]
  cases users.get id with
  | none => rfl
  | some user => exact run_save _

end Run

end Scoopdope.Users

import Scoopdope.Users.Service

/-!
# Authentication: the tables

Users, refresh tokens, password reset tokens and the audit log, with the operations that
the services of `auth/` await. An insertion whose primary key is taken is an error. Failures
to write the audit log are caught where they occur.
-/

namespace Scoopdope.Auth

open Async Database Server Users

/-- `refresh-token.entity.ts`. -/
structure RefreshToken where
  id : String
  tokenHash : String
  userId : String
  expiresAt : Int
  revoked : Bool
  createdAt : Int
deriving DecidableEq

/-- `password-reset-token.entity.ts`. -/
structure PasswordResetToken where
  id : String
  tokenHash : String
  userId : String
  expiresAt : Int
  used : Bool
  createdAt : Int
deriving DecidableEq

/-- The actions that are logged here, of those in `audit/audit-log.entity.ts`. -/
inductive AuditAction
  | loginSuccess
  | loginFailure
  | logout
  | passwordResetComplete
  | mfaEnabled
  | mfaDisabled
deriving DecidableEq

structure AuditLog where
  action : AuditAction
  userId : Option String
  success : Bool
  metadata : List (String × String)
  ipAddress : Option String
  userAgent : Option String
deriving DecidableEq

structure State where
  users : UserTable
  refreshTokens : Repository RefreshToken.id
  resetTokens : Repository PasswordResetToken.id
  /-- Newest first. -/
  auditLogs : List AuditLog

inductive Op
  | users (o : Users.Op)
  /-- `findOne({ where: { tokenHash, revoked: false } })`. -/
  | findRefreshToken (tokenHash : String)
  | saveRefreshToken (token : RefreshToken)
  | insertRefreshToken (tokenHash userId : String) (expiresAt : Int)
  /-- `findOne({ where: { tokenHash, used: false } })`. -/
  | findResetToken (tokenHash : String)
  | saveResetToken (token : PasswordResetToken)
  | log (entry : AuditLog)

abbrev Op.answer : Op → Type
  | .users o => o.answer
  | .findRefreshToken _ => Option RefreshToken
  | .saveRefreshToken _ => Unit
  | .insertRefreshToken _ _ _ => Option RefreshToken
  | .findResetToken _ => Option PasswordResetToken
  | .saveResetToken _ => Unit
  | .log _ => Unit

abbrev authInterface : Interface where
  Op := Op
  Answer := Op.answer

/-- The row that an insertion into the refresh tokens makes. -/
def issued (env : Env) (tokenHash userId : String) (expiresAt : Int) : RefreshToken :=
  { id := env.uuid, tokenHash, userId, expiresAt, revoked := false, createdAt := env.now }

def handle (env : Env) (s : State) : (o : Op) → o.answer × State
  | .users o =>
    let (answer, users) := Users.handle env s.users o
    (answer, { s with users })
  | .findRefreshToken tokenHash =>
    (s.refreshTokens.findOne fun token => token.tokenHash = tokenHash ∧ token.revoked = false, s)
  | .saveRefreshToken token => ((), { s with refreshTokens := s.refreshTokens.save token })
  | .insertRefreshToken tokenHash userId expiresAt =>
    let token := issued env tokenHash userId expiresAt
    if (s.refreshTokens.get token.id).isSome then (none, s)
    else (some token, { s with refreshTokens := s.refreshTokens.save token })
  | .findResetToken tokenHash =>
    (s.resetTokens.findOne fun token => token.tokenHash = tokenHash ∧ token.used = false, s)
  | .saveResetToken token => ((), { s with resetTokens := s.resetTokens.save token })
  | .log entry => ((), { s with auditLogs := entry :: s.auditLogs })

def query (o : Op) : Service authInterface o.answer := Process.perform (I := authInterface) o

theorem run_query {A : Type} {env : Env} {s : State} (o : Op)
    (f : o.answer → Service authInterface A) :
    (query o >>= f).run handle env s = (f (handle env s o).1).run handle env (handle env s o).2 :=
  rfl

/-- A method of `UsersService` awaits operations on the users only. -/
def ofUsers : Process.Inclusion usersInterface authInterface where
  op := .users
  answer := fun _ answer => answer

instance : MonadLift (Service usersInterface) (Service authInterface) where
  monadLift p := p.lift ofUsers

@[simp] theorem lift_users {A : Type} (p : Service usersInterface A) :
    (liftM p : Service authInterface A) = p.lift ofUsers := rfl

/-- It runs on the table of users as it does by itself. -/
theorem run_users {A : Type} {env : Env} {s : State} (p : Service usersInterface A) :
    (p.lift ofUsers : Service authInterface A).run handle env s =
      ((p.run Users.handle env s.users).1,
        { s with users := (p.run Users.handle env s.users).2 }) :=
  Process.run_lift State.users (fun s users => { s with users }) (fun _ _ => rfl)
    (fun _ => rfl) (fun _ _ _ => rfl) (fun _ _ _ => ⟨rfl, rfl⟩) s p

@[simp] theorem run_findById {env : Env} {s : State} (id : String) :
    ((findById id).lift ofUsers : Service authInterface (Option User)).run handle env s =
      (.ok (s.users.get id), s) := rfl

@[simp] theorem run_findByEmail {env : Env} {s : State} (email : String) :
    ((findByEmail email).lift ofUsers : Service authInterface (Option User)).run handle env s =
      (.ok (s.users.findOne (Where.email email).holds), s) := rfl

theorem run_update {env : Env} {s : State} (id : String) (data : UserData) :
    ((update id data).lift ofUsers : Service authInterface User).run handle env s =
      match s.users.get id with
      | none => (.error (.notFound "User not found"), s)
      | some user =>
        if conflicts s.users (spread user data) then (.error duplicateKey, s)
        else (.ok (spread user data), { s with users := s.users.save (spread user data) }) := by
  rw [run_users, Users.run_update]
  cases s.users.get id with
  | none => rfl
  | some user => cases h : conflicts s.users (spread user data) <;> simp [h]

theorem run_update_of_get {env : Env} {s : State} {id : String} {user : User}
    (h : s.users.get id = some user) (data : UserData) :
    ((update id data).lift ofUsers : Service authInterface User).run handle env s =
      if conflicts s.users (spread user data) then (.error duplicateKey, s)
      else (.ok (spread user data), { s with users := s.users.save (spread user data) }) := by
  rw [run_update, h]

/-- `AuditService.log`. -/
def log (action : AuditAction) (userId : Option String) (success : Bool)
    (metadata : List (String × String)) (ipAddress userAgent : Option String) :
    Service authInterface Unit :=
  query (.log { action, userId, success, metadata, ipAddress, userAgent })

end Scoopdope.Auth

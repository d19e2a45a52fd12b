import Scoopdope.Auth.Service

/-!
# Authentication: links sent by mail

The methods of `AuthService` (`auth/auth.service.ts`) that send a link, with the `MailService`
(`mail/mail.service.ts`) they send it by: registration and the verification of the email address,
and the reset of a forgotten password. Of a token in a link only the hash is stored.

The mail transport is not part of the repository: `MailConfig.deliver` says which mails it takes.
Where mail is disabled the link goes to the log of the server.
-/

namespace Scoopdope.Auth.Recovery

open Async Database Server Users

structure Mail where
  from_ : String
  to_ : String
  subject : String
  html : String
deriving DecidableEq

structure MailConfig where
  enabled : Bool
  from_ : String
  frontendUrl : String
  /-- Whether `transporter.sendMail` takes the mail; otherwise it throws. -/
  deliver : Env → Mail → Bool

/-- What is written to the audit log here. -/
inductive RequestAction
  | register
  | passwordResetRequest
deriving DecidableEq

structure RequestLog where
  action : RequestAction
  userId : String
  email : String
deriving DecidableEq

structure State where
  auth : Auth.State
  /-- Newest first, as the other logs. -/
  mails : List Mail
  serverLog : List String
  requests : List RequestLog

inductive Op
  | auth (o : Auth.Op)
  /-- The reset tokens of a user that were created after a date, counted. -/
  | countResetTokens (userId : String) (since : Int)
  | insertResetToken (tokenHash userId : String) (expiresAt : Int)
  | sendMail (mail : Mail)
  | logLine (line : String)
  | log (entry : RequestLog)

abbrev Op.answer : Op → Type
  | .auth o => o.answer
  | .countResetTokens _ _ => Nat
  | .insertResetToken _ _ _ => Option PasswordResetToken
  | .sendMail _ => Bool
  | .logLine _ => Unit
  | .log _ => Unit

abbrev recoveryInterface : Interface where
  Op := Op
  Answer := Op.answer

/-- The row that an insertion into the reset tokens makes. -/
def insertedToken (env : Env) (tokenHash userId : String) (expiresAt : Int) : PasswordResetToken :=
  { id := env.uuid, tokenHash, userId, expiresAt, used := false, createdAt := env.now }

/-- The reset tokens of a user that were created after a date. -/
def recentTokens (s : State) (userId : String) (since : Int) : List PasswordResetToken :=
  s.auth.resetTokens.find fun token => token.userId = userId ∧ since < token.createdAt

def State.addResetToken (s : State) (token : PasswordResetToken) : State :=
  { s with auth := { s.auth with resetTokens := s.auth.resetTokens.save token } }

variable (crypto : Crypto) (config : MailConfig)

def handle (env : Env) (s : State) : (o : Op) → o.answer × State
  | .auth o =>
    let (answer, auth) := Auth.handle env s.auth o
    (answer, { s with auth })
  | .countResetTokens userId since => ((recentTokens s userId since).length, s)
  | .insertResetToken tokenHash userId expiresAt =>
    let token := insertedToken env tokenHash userId expiresAt
    if (s.auth.resetTokens.get token.id).isSome then (none, s)
    else (some token, s.addResetToken token)
  | .sendMail mail =>
    if config.deliver env mail then (true, { s with mails := mail :: s.mails }) else (false, s)
  | .logLine line => ((), { s with serverLog := line :: s.serverLog })
  | .log entry => ((), { s with requests := entry :: s.requests })

def query (o : Op) : Service recoveryInterface o.answer :=
  Process.perform (I := recoveryInterface) o

/-- A method that awaits operations on the other tables only. -/
def ofAuth : Process.Inclusion authInterface recoveryInterface where
  op := .auth
  answer := fun _ answer => answer

instance : MonadLift (Service authInterface) (Service recoveryInterface) where
  monadLift p := p.lift ofAuth

@[simp] theorem lift_auth {A : Type} (p : Service authInterface A) :
    (liftM p : Service recoveryInterface A) = p.lift ofAuth := rfl

@[simp] theorem lift_users {A : Type} (p : Service usersInterface A) :
    (liftM p : Service recoveryInterface A) = (p.lift ofUsers).lift ofAuth := rfl

/-! ## Mail -/

namespace MailService

def passwordResetUrl (token : String) : String :=
  config.frontendUrl ++ "/auth/reset-password?token=" ++ token

def verificationUrl (token : String) : String :=
  config.frontendUrl ++ "/auth/verify?token=" ++ token

def passwordResetMail (to_ token : String) : Mail where
  from_ := config.from_
  to_ := to_
  subject := "Reset your password"
  html :=
    "<p>Click the link below to reset your password. It expires in 1 hour.</p>\n" ++
      "             <a href=\"" ++ passwordResetUrl config token ++ "\">" ++
      passwordResetUrl config token ++ "</a>\n" ++
      "             <p>If you did not request this, ignore this email.</p>"

def verificationMail (to_ token : String) : Mail where
  from_ := config.from_
  to_ := to_
  subject := "Verify your email"
  html :=
    "<p>Click the link below to verify your email. It expires in 24 hours.</p>\n" ++
      "             <a href=\"" ++ verificationUrl config token ++ "\">" ++
      verificationUrl config token ++ "</a>"

/-- The mail is sent, or a line is logged instead of it. -/
def send (mail : Mail) (line : String) : Service recoveryInterface Unit :=
  if config.enabled then do
    if ← query (.sendMail mail) then pure () else .fail (.internal "mail was not sent")
  else query (.logLine line)

def sendPasswordResetEmail (to_ token : String) : Service recoveryInterface Unit :=
  send config (passwordResetMail config to_ token)
    ("[DEV] Password reset link for " ++ to_ ++ ": " ++ passwordResetUrl config token)

def sendVerificationEmail (to_ token : String) : Service recoveryInterface Unit :=
  send config (verificationMail config to_ token)
    ("[DEV] Verification link for " ++ to_ ++ ": " ++ verificationUrl config token)

end MailService

/-! ## Methods -/

namespace AuthService

/-- What a new user is made with. -/
def registration (env : Env) (email password : String) (referredBy : Option String) : UserData :=
  let token := TokenService.generateOpaqueToken crypto env 24
  ((((((Patch.empty.set .email email).set .passwordHash
    (crypto.hash (env.random 1) password)).set .isVerified false).set .verificationToken
    (some token.hash)).set .verificationTokenExpiresAt (some token.expiresAt)).set
    .referralCode (some (env.random 2))).set .referredBy referredBy

/-- The user with this referral code. -/
def referrer (refCode : Option String) : Service usersInterface (Option String) :=
  match truthy refCode with
  | none => pure none
  | some refCode => do
    let referrer ← findByReferralCode refCode
    pure (referrer.map fun user => user .id)

def register (email password : String) (refCode : Option String) :
    Service recoveryInterface String := do
  let existing ← findByEmail email
  if existing.isSome then .fail (.badRequest "Email already in use")
  else
    let env ← Process.env
    let referredBy ← referrer refCode
    let user ← create (registration crypto env email password referredBy)
    MailService.sendVerificationEmail config (user .email)
      (TokenService.generateOpaqueToken crypto env 24).token
    query (.log { action := .register, userId := user .id, email })
    pure "Registration successful. Please verify your email."

/-- What the verification of the email address sets. -/
def verified : UserData :=
  ((Patch.empty.set .isVerified true).set .verificationToken none).set
    .verificationTokenExpiresAt none

def verifyEmail (token : String) : Service authInterface String := do
  let hash := TokenService.hashToken crypto token
  let user ← orThrow (.badRequest "Invalid or expired verification token")
    (← findByVerificationToken hash)
  let env ← Process.env
  match (user .verificationTokenExpiresAt).filter fun date => !decide (date < env.now) with
  | none => .fail (.badRequest "Verification token has expired")
  | some _ =>
    let _ ← update (user .id) verified
    pure "Email verified successfully. You can now log in."

/-- What a new link sets. -/
def newLink (env : Env) : UserData :=
  let token := TokenService.generateOpaqueToken crypto env 24
  (Patch.empty.set .verificationToken (some token.hash)).set .verificationTokenExpiresAt
    (some token.expiresAt)

def resendVerification (email : String) : Service recoveryInterface String := do
  let found ← findByEmail email
  let user ← orThrow (.notFound "User not found") found
  if user .isVerified then .fail (.badRequest "Email is already verified")
  else
    let env ← Process.env
    let _ ← update (user .id) (newLink crypto env)
    MailService.sendVerificationEmail config (user .email)
      (TokenService.generateOpaqueToken crypto env 24).token
    pure "Verification email resent."

def forgotPassword (email : String) : Service recoveryInterface String := do
  let found ← findByEmail email
  match found with
  | none => pure "If that email exists, a reset link has been sent."
  | some user =>
    let env ← Process.env
    let recent ← query (.countResetTokens (user .id) (env.now - 60 * 60 * 1000))
    if 3 ≤ recent then
      .fail (.badRequest "Too many reset requests. Please wait before trying again.")
    else
      let token := TokenService.generateOpaqueToken crypto env 1
      let _ ← orThrow duplicateKey
        (← query (.insertResetToken token.hash (user .id) token.expiresAt))
      MailService.sendPasswordResetEmail config (user .email) token.token
      query (.log { action := .passwordResetRequest, userId := user .id, email })
      pure "If that email exists, a reset link has been sent."

end AuthService

/-! ## Running alone -/

section Run

variable {crypto config} {env : Env} {s : State}

theorem run_query {A : Type} (o : Op) (f : o.answer → Service recoveryInterface A) :
    (query o >>= f).run (handle config) env s =
      (f (handle config env s o).1).run (handle config) env (handle config env s o).2 := rfl

theorem run_auth {A : Type} (p : Service authInterface A) :
    (p.lift ofAuth : Service recoveryInterface A).run (handle config) env s =
      ((p.run Auth.handle env s.auth).1, { s with auth := (p.run Auth.handle env s.auth).2 }) :=
  Process.run_lift State.auth (fun s auth => { s with auth }) (fun _ _ => rfl)
    (fun _ => rfl) (fun _ _ _ => rfl) (fun _ _ _ => ⟨rfl, rfl⟩) s p

/-- The state with other users. -/
def State.setUsers (s : State) (users : UserTable) : State :=
  { s with auth := { s.auth with users } }

theorem run_users {A : Type} (p : Service usersInterface A) :
    ((p.lift ofUsers).lift ofAuth : Service recoveryInterface A).run (handle config) env s =
      ((p.run Users.handle env s.auth.users).1,
        s.setUsers (p.run Users.handle env s.auth.users).2) := by
  rw [run_auth, Auth.run_users]
  rfl

theorem run_users_ok {A B : Type} {p : Service usersInterface A} {a : A} {users : UserTable}
    (h : p.run Users.handle env s.auth.users = (.ok a, users))
    (f : A → Service recoveryInterface B) :
    ((p.lift ofUsers).lift ofAuth >>= f).run (handle config) env s =
      (f a).run (handle config) env (s.setUsers users) := by
  rw [Process.run_bind, run_users, h]

theorem run_users_error {A B : Type} {p : Service usersInterface A} {x : HttpException}
    {users : UserTable} (h : p.run Users.handle env s.auth.users = (.error x, users))
    (f : A → Service recoveryInterface B) :
    ((p.lift ofUsers).lift ofAuth >>= f).run (handle config) env s =
      (.error x, s.setUsers users) := by
  rw [Process.run_bind, run_users, h]

/-- Reading writes nothing. -/
theorem run_findByEmail {B : Type} (email : String)
    (f : Option User → Service recoveryInterface B) :
    (((findByEmail email).lift ofUsers).lift ofAuth >>= f).run (handle config) env s =
      (f (s.auth.users.findOne (Where.email email).holds)).run (handle config) env s := rfl

variable (env) in
/-- A user is changed, or a mistake writes nothing. -/
theorem run_modify_cases (users : UserTable) (id : String) (data : Env → UserData) :
    (∃ x, (modify id data).run Users.handle env users = (.error x, users)) ∨
      ∃ user, users.get id = some user ∧ (modify id data).run Users.handle env users =
        (.ok (spread user (data env)), users.save (spread user (data env))) := by
  rw [run_modify]
  cases hget : users.get id with
  | none => exact .inl ⟨_, rfl⟩
  | some user =>
    have hsave : (Users.save (spread user (data env))).run Users.handle env users = _ :=
      Users.run_save _
    cases hconflict : conflicts users (spread user (data env)) with
    | true =>
      rw [hconflict, if_pos rfl] at hsave
      exact .inl ⟨_, hsave⟩
    | false =>
      rw [hconflict, if_neg Bool.false_ne_true] at hsave
      exact .inr ⟨user, rfl, hsave⟩

variable (env) in
theorem run_update_cases (users : UserTable) (id : String) (data : UserData) :
    (∃ x, (update id data).run Users.handle env users = (.error x, users)) ∨
      ∃ user, users.get id = some user ∧ (update id data).run Users.handle env users =
        (.ok (spread user data), users.save (spread user data)) :=
  run_modify_cases env users id fun _ => data

variable (env) in
theorem run_create_cases (users : UserTable) (data : UserData) :
    (∃ x, (create data).run Users.handle env users = (.error x, users)) ∨
      users.get (inserted env data .id) = none ∧ (create data).run Users.handle env users =
        (.ok (inserted env data), users.save (inserted env data)) := by
  rw [Users.run_create]
  by_cases htaken : ((users.get (inserted env data .id)).isSome ||
      conflicts users (inserted env data)) = true
  · exact .inl ⟨_, if_pos htaken⟩
  · refine .inr ⟨?_, if_neg htaken⟩
    rw [Bool.or_eq_true, not_or] at htaken
    exact Option.not_isSome_iff_eq_none.mp htaken.1

/-- What is done after the tables are written: a mail, and nothing else that matters. -/
def Announced (s s' : State) (mail : Mail) : Prop :=
  s'.auth = s.auth ∧ (s'.mails = s.mails ∨ s'.mails = mail :: s.mails)

variable (config env s) in
theorem announced_send (mail : Mail) (line : String) :
    Announced s ((MailService.send config mail line).run (handle config) env s).2 mail := by
  unfold MailService.send
  cases config.enabled with
  | false => exact ⟨rfl, .inl rfl⟩
  | true =>
    rw [if_pos rfl, run_query]
    by_cases htaken : config.deliver env mail = true
    · have hsent : handle config env s (.sendMail mail) =
          (true, { s with mails := mail :: s.mails }) := if_pos htaken
      rw [hsent]
      exact ⟨rfl, .inr rfl⟩
    · have hrefused : handle config env s (.sendMail mail) = (false, s) := if_neg htaken
      rw [hrefused]
      exact ⟨rfl, .inl rfl⟩

variable (config env s) in
/-- An answer after the mail, with or without an entry in the audit log. -/
theorem announced_answer (mail : Mail) (line answer : String) :
    Announced s ((MailService.send config mail line >>= fun _ => pure answer :
      Service recoveryInterface String).run (handle config) env s).2 mail := by
  have hsend := announced_send config env s mail line
  rw [Process.run_bind]
  generalize (MailService.send config mail line).run (handle config) env s = sent at hsend ⊢
  obtain ⟨x | a, s'⟩ := sent
  · exact hsend
  · exact hsend

variable (config env s) in
theorem announced_log (mail : Mail) (line answer : String) (entry : RequestLog) :
    Announced s ((MailService.send config mail line >>= fun _ => query (.log entry) >>= fun _ =>
      pure answer : Service recoveryInterface String).run (handle config) env s).2 mail := by
  have hsend := announced_send config env s mail line
  rw [Process.run_bind]
  generalize (MailService.send config mail line).run (handle config) env s = sent at hsend ⊢
  obtain ⟨x | a, s'⟩ := sent
  · exact hsend
  · exact hsend

end Run

end Scoopdope.Auth.Recovery

import Scoopdope.Auth.Admission
import Scoopdope.Auth.Recovery

/-!
# Authentication: what the links in mails are good for

Registration, verification, and the reset of passwords as a system, with everything else that writes
to the users. The calls are served one after another, in any order. `Effect` is all that a call can
do; everything else follows from it.

Besides the links, `anonymizeUser` removes a password, the approval of an instructor verifies the
address (`instructor-applications/instructor-applications.service.ts`), and the updates of an
administrator (`batch/batch.service.ts`) write any column. The other services leave `guardedColumns`
alone.

Results, about every run:
1. `password_changed_by_link`: apart from these, a password is changed only with the token of a mail
   that went to the user's own address within the last hour, which is then used up.
2. `reset_tokens_limited`: at most three such tokens are stored for a user within any hour.
3. `verified_by_link`: apart from these, an address is verified only with the token that the last
   mail to it has.
-/

namespace Scoopdope.Auth.Recovery

open Async Database Server Soroban Users

/-- The columns that the verification of an email address and the reset of a password rest on. -/
def guardedColumns : List Column :=
  [.id, .email, .passwordHash, .isVerified, .verificationToken, .verificationTokenExpiresAt]

/-- What the other services write to a user. -/
abbrev OtherData : Type := { data : UserData // ∀ c ∈ guardedColumns, data.sets c = false }

inductive Call
  | register (email password : String) (refCode : Option String)
  | verifyEmail (token : String)
  | resendVerification (email : String)
  | forgotPassword (email : String)
  | resetPassword (token newPassword : String)
  | googleLogin (profile : OAuthService.Profile)
  /-- A challenge of this account that `verifyChallenge` takes. -/
  | stellarLogin (clientPublicKey : String)
  | anonymizeUser (id : String)
  /-- An application of the user that `review` approves. -/
  | approveInstructor (userId : String)
  /-- An item of `processUserBatch` with the action `update`. -/
  | batchUpdate (userId : String) (data : UserData)
  /-- An update by another service. -/
  | update (id : String) (data : OtherData)

inductive Answer
  | message (text : String)
  | tokens (pair : TokenPair)
  | done

/-- What the approval of an application sets. -/
def instructor : UserData := (Patch.empty.set .role "instructor").set .isVerified true

variable (crypto : Crypto) (config : MailConfig)

def Call.start : Call → Service recoveryInterface Answer
  | .register email password refCode => do
    let text ← AuthService.register crypto config email password refCode
    pure (.message text)
  | .verifyEmail token => do
    let text ← AuthService.verifyEmail crypto token
    pure (.message text)
  | .resendVerification email => do
    let text ← AuthService.resendVerification crypto config email
    pure (.message text)
  | .forgotPassword email => do
    let text ← AuthService.forgotPassword crypto config email
    pure (.message text)
  | .resetPassword token newPassword => do
    Auth.AuthService.resetPassword crypto token newPassword
    pure .done
  | .googleLogin profile => do
    let pair ← OAuthService.googleLogin crypto profile
    pure (.tokens pair)
  | .stellarLogin clientPublicKey => do
    let _ ← StellarAuthService.findOrProvision clientPublicKey
    pure .done
  | .anonymizeUser id => do
    Users.anonymizeUser id
    pure .done
  | .approveInstructor userId => do
    let _ ← Users.update userId instructor
    pure .done
  | .batchUpdate userId data => do
    let _ ← Users.update userId data
    pure .done
  | .update id data => do
    let _ ← Users.update id data.1
    pure .done

/-- A call, served alone. -/
def serve (s : State) (i : Env × Call) : Except HttpException Answer × State :=
  (i.2.start crypto config).run (handle config) i.1 s

/-- The step of a run of calls. -/
def exec (s : State) (i : Env × Call) : Outcome State := .ok (serve crypto config s i).2

/-! ## What a call can do -/

/-- The mails after a call that may have sent one. -/
def MayHaveSent (mail : Mail) (s s' : State) : Prop :=
  s'.mails = s.mails ∨ s'.mails = mail :: s.mails

/-- The reset token that is stored for a user who has forgotten the password. -/
def resetToken (env : Env) (userId : String) : PasswordResetToken :=
  insertedToken env (TokenService.hashToken crypto (env.random 0)) userId
    (env.now + 1 * 60 * 60 * 1000)

/-- What a call does to the users, the reset tokens and the mails. -/
inductive Effect : Env × Call → State → State → Prop
  | nothing {i : Env × Call} {s s' : State} (husers : s'.auth.users = s.auth.users)
      (htokens : s'.auth.resetTokens = s.auth.resetTokens) (hmails : s'.mails = s.mails) :
      Effect i s s'
  | register {env : Env} {email password : String} {refCode referredBy : Option String}
      {s s' : State} (hnew : s.auth.users.get env.uuid = none)
      (husers : s'.auth.users =
        s.auth.users.save (inserted env
          (AuthService.registration crypto env email password referredBy)))
      (htokens : s'.auth.resetTokens = s.auth.resetTokens)
      (hmails : MayHaveSent (MailService.verificationMail config email (env.random 0)) s s') :
      Effect (env, .register email password refCode) s s'
  | verifyEmail {env : Env} {token : String} {user : User} {date : Int} {s s' : State}
      (hget : s.auth.users.get (user .id) = some user)
      (hhash : user .verificationToken = some (TokenService.hashToken crypto token))
      (hdate : user .verificationTokenExpiresAt = some date) (hnow : env.now ≤ date)
      (husers : s'.auth.users = s.auth.users.save (spread user AuthService.verified))
      (htokens : s'.auth.resetTokens = s.auth.resetTokens) (hmails : s'.mails = s.mails) :
      Effect (env, .verifyEmail token) s s'
  | resendVerification {env : Env} {email : String} {user : User} {s s' : State}
      (hget : s.auth.users.get (user .id) = some user) (hemail : user .email = email)
      (hunverified : user .isVerified = false)
      (husers : s'.auth.users = s.auth.users.save (spread user (AuthService.newLink crypto env)))
      (htokens : s'.auth.resetTokens = s.auth.resetTokens)
      (hmails : MayHaveSent (MailService.verificationMail config email (env.random 0)) s s') :
      Effect (env, .resendVerification email) s s'
  | forgotPassword {env : Env} {email : String} {user : User} {s s' : State}
      (hget : s.auth.users.get (user .id) = some user) (hemail : user .email = email)
      (hrecent : (recentTokens s (user .id) (env.now - 60 * 60 * 1000)).length < 3)
      (hnew : s.auth.resetTokens.get env.uuid = none)
      (husers : s'.auth.users = s.auth.users)
      (htokens : s'.auth.resetTokens =
        s.auth.resetTokens.save (resetToken crypto env (user .id)))
      (hmails : MayHaveSent (MailService.passwordResetMail config email (env.random 0)) s s') :
      Effect (env, .forgotPassword email) s s'
  | resetPassword {env : Env} {token newPassword : String} {stored : PasswordResetToken}
      {user : User} {s s' : State} (hstored : s.auth.resetTokens.get stored.id = some stored)
      (hhash : stored.tokenHash = TokenService.hashToken crypto token)
      (hunused : stored.used = false) (hnow : env.now ≤ stored.expiresAt)
      (hget : s.auth.users.get stored.userId = some user)
      (husers : s'.auth.users = s.auth.users.save (spread user
        (Patch.empty.set .passwordHash (crypto.hash (env.random 0) newPassword))))
      (htokens : s'.auth.resetTokens = s.auth.resetTokens.save { stored with used := true })
      (hmails : s'.mails = s.mails) :
      Effect (env, .resetPassword token newPassword) s s'
  | googleLogin {env : Env} {profile : OAuthService.Profile} {s s' : State}
      (hnew : s.auth.users.get env.uuid = none)
      (husers : s'.auth.users =
        s.auth.users.save (inserted env (Admission.newcomer env profile)))
      (htokens : s'.auth.resetTokens = s.auth.resetTokens) (hmails : s'.mails = s.mails) :
      Effect (env, .googleLogin profile) s s'
  | stellarLogin {env : Env} {clientPublicKey : String} {s s' : State}
      (hnew : s.auth.users.get env.uuid = none)
      (husers : s'.auth.users =
        s.auth.users.save (inserted env (StellarAuthService.provisioned clientPublicKey)))
      (htokens : s'.auth.resetTokens = s.auth.resetTokens) (hmails : s'.mails = s.mails) :
      Effect (env, .stellarLogin clientPublicKey) s s'
  | anonymizeUser {env : Env} {user : User} {s s' : State}
      (hget : s.auth.users.get (user .id) = some user)
      (husers : s'.auth.users = s.auth.users.save (spread user (anonymized (user .id) env)))
      (htokens : s'.auth.resetTokens = s.auth.resetTokens) (hmails : s'.mails = s.mails) :
      Effect (env, .anonymizeUser (user .id)) s s'
  | approveInstructor {env : Env} {user : User} {s s' : State}
      (hget : s.auth.users.get (user .id) = some user)
      (husers : s'.auth.users = s.auth.users.save (spread user instructor))
      (htokens : s'.auth.resetTokens = s.auth.resetTokens) (hmails : s'.mails = s.mails) :
      Effect (env, .approveInstructor (user .id)) s s'
  | batchUpdate {env : Env} {user : User} {data : UserData} {s s' : State}
      (hget : s.auth.users.get (user .id) = some user)
      (husers : s'.auth.users = s.auth.users.save (spread user data))
      (htokens : s'.auth.resetTokens = s.auth.resetTokens) (hmails : s'.mails = s.mails) :
      Effect (env, .batchUpdate (user .id) data) s s'
  | update {env : Env} {user : User} {data : OtherData} {s s' : State}
      (hget : s.auth.users.get (user .id) = some user)
      (husers : s'.auth.users = s.auth.users.save (spread user data.1))
      (htokens : s'.auth.resetTokens = s.auth.resetTokens) (hmails : s'.mails = s.mails) :
      Effect (env, .update (user .id) data) s s'

section Effects

variable {crypto config} {env : Env} {s : State}

variable (config env s) in
/-- What is done with the answer does not matter. -/
theorem serve_map {A : Type} (p : Service recoveryInterface A) (g : A → Answer) :
    ((p >>= fun a => pure (g a)).run (handle config) env s).2 =
      (p.run (handle config) env s).2 :=
  congrArg Prod.snd (Process.run_map p g)

/-- Looking up the referrer writes nothing. -/
theorem run_referrer (env : Env) (users : UserTable) (refCode : Option String) :
    ∃ referredBy, (AuthService.referrer refCode).run Users.handle env users =
      (.ok referredBy, users) := by
  unfold AuthService.referrer
  cases truthy refCode with
  | none => exact ⟨none, rfl⟩
  | some refCode => exact ⟨_, rfl⟩

theorem effect_register (email password : String) (refCode : Option String) :
    Effect crypto config (env, .register email password refCode) s
      (serve crypto config s (env, .register email password refCode)).2 := by
  have hserve : (serve crypto config s (env, .register email password refCode)).2 =
      ((AuthService.register crypto config email password refCode).run (handle config) env s).2 :=
    serve_map _ _ _ _ _
  rw [hserve]
  unfold AuthService.register
  simp only [lift_users]
  rw [run_findByEmail]
  cases s.auth.users.findOne (Where.email email).holds with
  | some user => exact .nothing rfl rfl rfl
  | none =>
    obtain ⟨referredBy, hreferrer⟩ := run_referrer env s.auth.users refCode
    simp only [Option.isSome_none, Bool.false_eq_true, if_false, Process.env_bind, Process.run_ask]
    rw [run_users_ok hreferrer]
    rcases run_create_cases env s.auth.users
      (AuthService.registration crypto env email password referredBy) with
      ⟨x, hrun⟩ | ⟨hnew, hrun⟩
    · rw [run_users_error (s := s.setUsers s.auth.users) hrun]
      exact .nothing rfl rfl rfl
    · rw [run_users_ok (s := s.setUsers s.auth.users) hrun]
      obtain ⟨hauth, hmails⟩ := announced_log config env
        ((s.setUsers s.auth.users).setUsers (s.auth.users.save (inserted env
          (AuthService.registration crypto env email password referredBy))))
        (MailService.verificationMail config email (env.random 0))
        ("[DEV] Verification link for " ++ email ++ ": " ++
          MailService.verificationUrl config (env.random 0))
        "Registration successful. Please verify your email."
        { action := .register, userId := env.uuid, email }
      exact .register hnew (congrArg (fun auth => auth.users) hauth)
        (congrArg (fun auth => auth.resetTokens) hauth) hmails

theorem effect_verifyEmail (token : String) :
    Effect crypto config (env, .verifyEmail token) s
      (serve crypto config s (env, .verifyEmail token)).2 := by
  have hserve : (serve crypto config s (env, .verifyEmail token)).2 = { s with auth :=
      ((AuthService.verifyEmail crypto token).run Auth.handle env s.auth).2 } := by
    have hmap := serve_map config env s
      ((AuthService.verifyEmail crypto token).lift ofAuth) .message
    rw [run_auth] at hmap
    exact hmap
  have hfind : ((findByVerificationToken (TokenService.hashToken crypto token)).lift Auth.ofUsers :
      Service authInterface (Option User)).run Auth.handle env s.auth =
      (.ok (s.auth.users.findOne
        (Where.verificationToken (TokenService.hashToken crypto token)).holds), s.auth) := rfl
  rw [hserve]
  unfold AuthService.verifyEmail
  simp only [Auth.lift_users]
  rw [Process.run_bind, hfind]
  cases hfound : s.auth.users.findOne
      (Where.verificationToken (TokenService.hashToken crypto token)).holds with
  | none => exact .nothing rfl rfl rfl
  | some user =>
    obtain ⟨hholds, hget⟩ := Repository.findOne_some hfound
    have hhash : user .verificationToken = some (TokenService.hashToken crypto token) :=
      of_decide_eq_true hholds
    simp only [orThrow_some, Process.ret_bind, Process.env_bind, Process.run_ask]
    cases hdate : (user .verificationTokenExpiresAt).filter fun date =>
        !decide (date < env.now) with
    | none => exact .nothing rfl rfl rfl
    | some date =>
      obtain ⟨hdate, hnow⟩ := Option.filter_eq_some_iff.mp hdate
      have hnow : env.now ≤ date := by
        rw [Bool.not_eq_true', decide_eq_false_iff_not] at hnow
        exact Int.not_lt.mp hnow
      simp only
      rw [Process.run_bind, Auth.run_users]
      rcases run_update_cases env s.auth.users (user .id)
        AuthService.verified with ⟨x, hrun⟩ | ⟨row, hrow, hrun⟩
      · rw [hrun]
        exact .nothing rfl rfl rfl
      · rw [hget] at hrow
        cases hrow
        rw [hrun]
        exact .verifyEmail hget hhash hdate hnow rfl rfl rfl

theorem effect_resendVerification (email : String) :
    Effect crypto config (env, .resendVerification email) s
      (serve crypto config s (env, .resendVerification email)).2 := by
  have hserve : (serve crypto config s (env, .resendVerification email)).2 =
      ((AuthService.resendVerification crypto config email).run (handle config) env s).2 :=
    serve_map _ _ _ _ _
  rw [hserve]
  unfold AuthService.resendVerification
  simp only [lift_users]
  rw [run_findByEmail]
  cases hfound : s.auth.users.findOne (Where.email email).holds with
  | none => exact .nothing rfl rfl rfl
  | some user =>
    obtain ⟨hholds, hget⟩ := Repository.findOne_some hfound
    have hemail : user .email = email := of_decide_eq_true hholds
    simp only [orThrow_some, Process.ret_bind]
    cases hverified : user .isVerified with
    | true => exact .nothing rfl rfl rfl
    | false =>
      simp only [Bool.false_eq_true, if_false, Process.env_bind, Process.run_ask]
      rcases run_update_cases env s.auth.users (user .id)
        (AuthService.newLink crypto env) with ⟨x, hrun⟩ | ⟨row, hrow, hrun⟩
      · rw [run_users_error hrun]
        exact .nothing rfl rfl rfl
      · rw [hget] at hrow
        cases hrow
        rw [run_users_ok hrun]
        obtain ⟨hauth, hmails⟩ := announced_answer config env
          (s.setUsers (s.auth.users.save (spread user (AuthService.newLink crypto env))))
          (MailService.verificationMail config (user .email) (env.random 0))
          ("[DEV] Verification link for " ++ user .email ++ ": " ++
            MailService.verificationUrl config (env.random 0)) "Verification email resent."
        subst hemail
        exact .resendVerification hget rfl hverified (congrArg (fun auth => auth.users) hauth)
          (congrArg (fun auth => auth.resetTokens) hauth) hmails

theorem effect_forgotPassword (email : String) :
    Effect crypto config (env, .forgotPassword email) s
      (serve crypto config s (env, .forgotPassword email)).2 := by
  have hserve : (serve crypto config s (env, .forgotPassword email)).2 =
      ((AuthService.forgotPassword crypto config email).run (handle config) env s).2 :=
    serve_map _ _ _ _ _
  rw [hserve]
  unfold AuthService.forgotPassword
  simp only [lift_users]
  rw [run_findByEmail]
  cases hfound : s.auth.users.findOne (Where.email email).holds with
  | none => exact .nothing rfl rfl rfl
  | some user =>
    obtain ⟨hholds, hget⟩ := Repository.findOne_some hfound
    have hemail : user .email = email := of_decide_eq_true hholds
    simp only [Process.env_bind, Process.run_ask]
    rw [run_query]
    have hcount : handle config env s
        (.countResetTokens (user .id) (env.now - 60 * 60 * 1000)) =
        ((recentTokens s (user .id) (env.now - 60 * 60 * 1000)).length, s) := rfl
    rw [hcount]
    by_cases hmany : 3 ≤ (recentTokens s (user .id) (env.now - 60 * 60 * 1000)).length
    · rw [if_pos hmany]
      exact .nothing rfl rfl rfl
    · rw [if_neg hmany, run_query]
      cases hnew : s.auth.resetTokens.get env.uuid with
      | some token =>
        have hinsert : handle config env s (.insertResetToken
            (TokenService.generateOpaqueToken crypto env 1).hash (user .id)
            (TokenService.generateOpaqueToken crypto env 1).expiresAt) = (none, s) :=
          if_pos (by rw [insertedToken, hnew, Option.isSome_some])
        rw [hinsert]
        exact .nothing rfl rfl rfl
      | none =>
        have hinsert : handle config env s (.insertResetToken
            (TokenService.generateOpaqueToken crypto env 1).hash (user .id)
            (TokenService.generateOpaqueToken crypto env 1).expiresAt) =
            (some (resetToken crypto env (user .id)),
              s.addResetToken (resetToken crypto env (user .id))) :=
          if_neg (by rw [insertedToken, hnew, Option.isSome_none]; exact Bool.false_ne_true)
        rw [hinsert]
        obtain ⟨hauth, hmails⟩ := announced_log config env
          (s.addResetToken (resetToken crypto env (user .id)))
          (MailService.passwordResetMail config (user .email) (env.random 0))
          ("[DEV] Password reset link for " ++ user .email ++ ": " ++
            MailService.passwordResetUrl config (env.random 0))
          "If that email exists, a reset link has been sent."
          { action := .passwordResetRequest, userId := user .id, email }
        subst hemail
        exact .forgotPassword hget rfl (Nat.not_le.mp hmany) hnew
          (congrArg (fun auth => auth.users) hauth)
          (congrArg (fun auth => auth.resetTokens) hauth) hmails

theorem effect_resetPassword (token newPassword : String) :
    Effect crypto config (env, .resetPassword token newPassword) s
      (serve crypto config s (env, .resetPassword token newPassword)).2 := by
  have hserve : (serve crypto config s (env, .resetPassword token newPassword)).2 =
      { s with auth := ((Auth.AuthService.resetPassword crypto token newPassword).run Auth.handle
        env s.auth).2 } := by
    have hmap := serve_map config env s
      ((Auth.AuthService.resetPassword crypto token newPassword).lift ofAuth) fun _ => .done
    rw [run_auth] at hmap
    exact hmap
  rw [hserve]
  unfold Auth.AuthService.resetPassword
  simp only [Auth.lift_users]
  rw [Auth.run_query]
  simp only [Auth.handle]
  cases hfound : s.auth.resetTokens.findOne fun stored =>
      stored.tokenHash = TokenService.hashToken crypto token ∧ stored.used = false with
  | none => exact .nothing rfl rfl rfl
  | some stored =>
    obtain ⟨hholds, hstored⟩ := Repository.findOne_some hfound
    obtain ⟨hhash, hunused⟩ := of_decide_eq_true hholds
    simp only [orThrow_some, Process.ret_bind, Process.env_bind, Process.run_ask]
    by_cases hexpired : stored.expiresAt < env.now
    · rw [if_pos hexpired]
      exact .nothing rfl rfl rfl
    · rw [if_neg hexpired, Process.run_bind, Auth.run_users]
      rcases run_update_cases env s.auth.users stored.userId
        (Patch.empty.set .passwordHash (crypto.hash (env.random 0) newPassword)) with
        ⟨x, hrun⟩ | ⟨user, hget, hrun⟩
      · rw [hrun]
        exact .nothing rfl rfl rfl
      · rw [hrun]
        exact .resetPassword hstored hhash hunused (Int.not_lt.mp hexpired) hget rfl rfl rfl

variable (crypto env) in
theorem issueTokenPair_users (userId email role : String) (auth : Auth.State) :
    ((TokenService.issueTokenPair crypto userId email role).run Auth.handle env auth).2.users =
        auth.users ∧
      ((TokenService.issueTokenPair crypto userId email role).run Auth.handle env
        auth).2.resetTokens = auth.resetTokens := by
  rw [TokenService.run_issueTokenPair]
  split <;> exact ⟨rfl, rfl⟩

theorem effect_googleLogin (profile : OAuthService.Profile) :
    Effect crypto config (env, .googleLogin profile) s
      (serve crypto config s (env, .googleLogin profile)).2 := by
  have hserve : (serve crypto config s (env, .googleLogin profile)).2 =
      { s with auth :=
        ((OAuthService.googleLogin crypto profile).run Auth.handle env s.auth).2 } := by
    have hmap := serve_map config env s
      ((OAuthService.googleLogin crypto profile).lift ofAuth) .tokens
    rw [run_auth] at hmap
    exact hmap
  rw [hserve, Admission.run_googleLogin]
  cases s.auth.users.findOne (Where.email profile.email).holds with
  | some user =>
    obtain ⟨husers, htokens⟩ := issueTokenPair_users crypto env (user .id)
      (user .email) (user .role) s.auth
    exact .nothing husers htokens rfl
  | none =>
    simp only
    by_cases htaken : ((s.auth.users.get env.uuid).isSome ||
        conflicts s.auth.users (inserted env (Admission.newcomer env profile))) = true
    · rw [if_pos htaken]
      exact .nothing rfl rfl rfl
    · rw [if_neg htaken]
      rw [Bool.or_eq_true, not_or] at htaken
      obtain ⟨husers, htokens⟩ := issueTokenPair_users crypto env env.uuid
        profile.email "student" { s.auth with
          users := s.auth.users.save (inserted env (Admission.newcomer env profile)) }
      exact .googleLogin (Option.not_isSome_iff_eq_none.mp htaken.1) husers htokens rfl

theorem effect_stellarLogin (clientPublicKey : String) :
    Effect crypto config (env, .stellarLogin clientPublicKey) s
      (serve crypto config s (env, .stellarLogin clientPublicKey)).2 := by
  have hserve : (serve crypto config s (env, .stellarLogin clientPublicKey)).2 =
      { s with auth :=
        ((StellarAuthService.findOrProvision clientPublicKey).run Auth.handle env s.auth).2 } := by
    have hmap := serve_map config env s
      ((StellarAuthService.findOrProvision clientPublicKey).lift ofAuth) fun _ => .done
    rw [run_auth] at hmap
    exact hmap
  rw [hserve, StellarAuthService.run_findOrProvision]
  cases s.auth.users.findOne (Where.stellarPublicKey clientPublicKey).holds with
  | some user => exact .nothing rfl rfl rfl
  | none =>
    simp only
    by_cases htaken : ((s.auth.users.get env.uuid).isSome || conflicts s.auth.users
        (inserted env (StellarAuthService.provisioned clientPublicKey))) = true
    · rw [if_pos htaken]
      exact .nothing rfl rfl rfl
    · rw [if_neg htaken]
      rw [Bool.or_eq_true, not_or] at htaken
      exact .stellarLogin (Option.not_isSome_iff_eq_none.mp htaken.1) rfl rfl rfl

variable (config env s) in
/-- A call that only changes a user. -/
theorem serve_users {A : Type} (p : Service usersInterface A) :
    (((p.lift ofUsers).lift ofAuth >>= fun _ => pure Answer.done :
      Service recoveryInterface Answer).run (handle config) env s).2 =
        s.setUsers (p.run Users.handle env s.auth.users).2 := by
  rw [serve_map, run_users]

theorem effect_anonymizeUser (id : String) :
    Effect crypto config (env, .anonymizeUser id) s
      (serve crypto config s (env, .anonymizeUser id)).2 := by
  have hserve : (serve crypto config s (env, .anonymizeUser id)).2 =
      s.setUsers ((modify id (anonymized id)).run Users.handle env s.auth.users).2 := by
    refine (serve_users config env s (anonymizeUser id)).trans (congrArg s.setUsers ?_)
    exact congrArg Prod.snd (Process.run_map (modify id (anonymized id)) fun _ => ())
  rw [hserve]
  rcases run_modify_cases env s.auth.users id (anonymized id) with ⟨x, hrun⟩ | ⟨user, hget, hrun⟩
  · rw [hrun]
    exact .nothing rfl rfl rfl
  · obtain rfl : user .id = id := Repository.key_of_get hget
    rw [hrun]
    exact .anonymizeUser hget rfl rfl rfl

/-- A call that updates a user does so, or nothing. -/
theorem effect_of_update {call : Call} {id : String} {data : UserData}
    (hserve : (serve crypto config s (env, call)).2 =
      s.setUsers ((Users.update id data).run Users.handle env s.auth.users).2)
    (hupdate : ∀ {user : User}, user .id = id → s.auth.users.get (user .id) = some user →
      Effect crypto config (env, call) s (s.setUsers (s.auth.users.save (spread user data)))) :
    Effect crypto config (env, call) s (serve crypto config s (env, call)).2 := by
  rw [hserve]
  rcases run_update_cases env s.auth.users id data with ⟨x, hrun⟩ | ⟨user, hget, hrun⟩
  · rw [hrun]
    exact .nothing rfl rfl rfl
  · have hkey : user .id = id := Repository.key_of_get hget
    rw [hrun]
    exact hupdate hkey (by rw [hkey]; exact hget)

theorem effect_approveInstructor (userId : String) :
    Effect crypto config (env, .approveInstructor userId) s
      (serve crypto config s (env, .approveInstructor userId)).2 := by
  refine effect_of_update (serve_users config env s (Users.update userId instructor)) ?_
  rintro user rfl hget
  exact .approveInstructor hget rfl rfl rfl

theorem effect_batchUpdate (userId : String) (data : UserData) :
    Effect crypto config (env, .batchUpdate userId data) s
      (serve crypto config s (env, .batchUpdate userId data)).2 := by
  refine effect_of_update (serve_users config env s (Users.update userId data)) ?_
  rintro user rfl hget
  exact .batchUpdate hget rfl rfl rfl

theorem effect_update (id : String) (data : OtherData) :
    Effect crypto config (env, .update id data) s
      (serve crypto config s (env, .update id data)).2 := by
  refine effect_of_update (serve_users config env s (Users.update id data.1)) ?_
  rintro user rfl hget
  exact .update hget rfl rfl rfl

/-- Every call has one of these effects. -/
theorem effect (s : State) (i : Env × Call) :
    Effect crypto config i s (serve crypto config s i).2 := by
  obtain ⟨env, call⟩ := i
  cases call with
  | register email password refCode => exact effect_register email password refCode
  | verifyEmail token => exact effect_verifyEmail token
  | resendVerification email => exact effect_resendVerification email
  | forgotPassword email => exact effect_forgotPassword email
  | resetPassword token newPassword => exact effect_resetPassword token newPassword
  | googleLogin profile => exact effect_googleLogin profile
  | stellarLogin clientPublicKey => exact effect_stellarLogin clientPublicKey
  | anonymizeUser id => exact effect_anonymizeUser id
  | approveInstructor userId => exact effect_approveInstructor userId
  | batchUpdate userId data => exact effect_batchUpdate userId data
  | update id data => exact effect_update id data

end Effects

/-! ## What changes a column -/

/-- The value of a column of a user. -/
def column (s : State) (u : String) (c : Column) : Option c.type :=
  (s.auth.users.get u).map fun row => row c

section Columns

variable {crypto config} {i : Env × Call} {s s' : State} {u : String} {c : Column}

/-- A row that is written in place of itself, with some columns changed. -/
theorem get_save_spread {users : UserTable} {user : User} {data : UserData}
    (hid : data .id = none) (u : String) :
    (users.save (spread user data)).get u =
      if u = user .id then some (spread user data) else users.get u := by
  have hkey : spread user data .id = user .id := spread_of_none hid
  rw [Repository.get_save, hkey]

/-- A write to one user is none to another. -/
theorem column_of_ne {user : User} {data : UserData} (hid : data .id = none)
    (husers : s'.auth.users = s.auth.users.save (spread user data)) (hne : u ≠ user .id) :
    column s' u c = column s u c := by
  unfold column
  rw [husers, get_save_spread hid, if_neg hne]

theorem column_spread {user : User} {data : UserData}
    (hget : s.auth.users.get (user .id) = some user) (hid : data .id = none)
    (hc : data c = none) (husers : s'.auth.users = s.auth.users.save (spread user data)) :
    column s' u c = column s u c := by
  by_cases hu : u = user .id
  · unfold column
    rw [husers, get_save_spread hid, if_pos hu, hu, hget, Option.map_some, Option.map_some,
      spread_of_none hc]
  · exact column_of_ne hid husers hu

theorem column_insert {env : Env} {data : UserData} (hid : data .id = none)
    (hnew : s.auth.users.get env.uuid = none)
    (husers : s'.auth.users = s.auth.users.save (inserted env data))
    (hu : (s.auth.users.get u).isSome = true) : column s' u c = column s u c := by
  have hkey : inserted env data .id = env.uuid := spread_of_none hid
  unfold column
  rw [husers, Repository.get_save, hkey, if_neg]
  rintro rfl
  rw [hnew] at hu
  exact absurd hu (by decide)

theorem isSome_of_column {v : c.type} (h : column s u c = some v) :
    (s.auth.users.get u).isSome = true := by
  obtain ⟨row, hrow, -⟩ := Option.map_eq_some_iff.mp h
  rw [hrow, Option.isSome_some]

/-- The data of other services leave these columns alone. -/
theorem OtherData.eq_none (data : OtherData) {c : Column} (hc : c ∈ guardedColumns) :
    data.1 c = none :=
  Option.not_isSome_iff_eq_none.mp (by rw [← Patch.sets, data.2 c hc]; decide)

/-- A password is changed by its reset, with a token that is stored for the user, removed with the
user, or changed by an administrator. -/
theorem password_changed (h : Effect crypto config i s s') {old new : String}
    (hold : column s u .passwordHash = some old) (hnew : column s' u .passwordHash = some new)
    (hne : old ≠ new) :
    (∃ env token newPassword stored, i = (env, .resetPassword token newPassword) ∧
      s.auth.resetTokens.get stored.id = some stored ∧
      stored.tokenHash = TokenService.hashToken crypto token ∧ stored.used = false ∧
      env.now ≤ stored.expiresAt ∧ stored.userId = u ∧
      new = crypto.hash (env.random 0) newPassword ∧
      s'.auth.resetTokens = s.auth.resetTokens.save { stored with used := true }) ∨
    (∃ env, i = (env, .anonymizeUser u) ∧ new = "") ∨
    ∃ env id data, i = (env, .batchUpdate id data) := by
  have hu := isSome_of_column hold
  have hkept : column s' u .passwordHash ≠ column s u .passwordHash := by
    rw [hold, hnew]
    exact fun hsame => hne (Option.some.inj hsame).symm
  cases h with
  | nothing husers => exact absurd (by rw [column, column, husers]) hkept
  | register hfresh husers => exact absurd (column_insert rfl hfresh husers hu) hkept
  | verifyEmail hget _ _ _ husers => exact absurd (column_spread hget rfl rfl husers) hkept
  | resendVerification hget _ _ husers => exact absurd (column_spread hget rfl rfl husers) hkept
  | forgotPassword _ _ _ _ husers => exact absurd (by rw [column, column, husers]) hkept
  | @resetPassword env token newPassword stored user _ _ hstored hhash hunused hnow hget husers
      htokens =>
    have hkey := Repository.key_of_get hget
    by_cases huser : stored.userId = u
    · refine .inl ⟨env, token, newPassword, stored, rfl, hstored, hhash, hunused, hnow, huser, ?_,
        htokens⟩
      have hwritten : column s' u .passwordHash =
          some (crypto.hash (env.random 0) newPassword) := by
        unfold column
        rw [husers, get_save_spread rfl, if_pos (huser.symm.trans hkey.symm)]
        rfl
      rw [hwritten] at hnew
      exact (Option.some.inj hnew).symm
    · exact absurd (column_of_ne rfl husers fun heq => huser (hkey.symm.trans heq.symm)) hkept
  | googleLogin hfresh husers => exact absurd (column_insert rfl hfresh husers hu) hkept
  | stellarLogin hfresh husers => exact absurd (column_insert rfl hfresh husers hu) hkept
  | @anonymizeUser env user _ _ hget husers =>
    by_cases huser : u = user .id
    · subst huser
      refine .inr (.inl ⟨env, rfl, ?_⟩)
      rw [column, husers, get_save_spread rfl, if_pos rfl] at hnew
      exact (Option.some.inj hnew).symm
    · exact absurd (column_of_ne rfl husers huser) hkept
  | approveInstructor hget husers => exact absurd (column_spread hget rfl rfl husers) hkept
  | batchUpdate => exact .inr (.inr ⟨_, _, _, rfl⟩)
  | update hget husers =>
    exact absurd (column_spread hget (OtherData.eq_none _ (by decide))
      (OtherData.eq_none _ (by decide)) husers) hkept

/-- The link that verifies the email address of a user: the hash of its token and its end. -/
def link (s : State) (u : String) : Option (Option String × Option Int) :=
  (s.auth.users.get u).map fun row => (row .verificationToken, row .verificationTokenExpiresAt)

theorem link_eq : link s u = (column s u .verificationToken).bind fun token =>
    (column s u .verificationTokenExpiresAt).map fun date => (token, date) := by
  unfold link column
  cases s.auth.users.get u <;> rfl

/-- An email address is verified by its link, with the approval of an instructor, or by an
administrator. -/
theorem verified_changed (h : Effect crypto config i s s')
    (hold : column s u .isVerified = some false) (hnew : column s' u .isVerified = some true) :
    (∃ env token date, i = (env, .verifyEmail token) ∧
      link s u = some (some (TokenService.hashToken crypto token), some date) ∧ env.now ≤ date ∧
      link s' u = some (none, none)) ∨
    (∃ env, i = (env, .approveInstructor u)) ∨ ∃ env id data, i = (env, .batchUpdate id data) := by
  have hu := isSome_of_column hold
  have hkept : column s' u .isVerified ≠ column s u .isVerified := by
    rw [hold, hnew]
    decide
  cases h with
  | nothing husers => exact absurd (by rw [column, column, husers]) hkept
  | register hfresh husers => exact absurd (column_insert rfl hfresh husers hu) hkept
  | @verifyEmail env token user date _ _ hget hhash hdate hnow husers =>
    by_cases huser : u = user .id
    · refine .inl ⟨env, token, date, rfl, ?_, hnow, ?_⟩
      · rw [link, huser, hget, Option.map_some, hhash, hdate]
      · rw [link, husers, get_save_spread rfl, if_pos huser]
        rfl
    · exact absurd (column_of_ne rfl husers huser) hkept
  | resendVerification hget _ _ husers => exact absurd (column_spread hget rfl rfl husers) hkept
  | forgotPassword _ _ _ _ husers => exact absurd (by rw [column, column, husers]) hkept
  | resetPassword _ _ _ _ hget husers =>
    have hkey := Repository.key_of_get hget
    exact absurd (column_spread (by rw [hkey]; exact hget) rfl rfl husers) hkept
  | googleLogin hfresh husers => exact absurd (column_insert rfl hfresh husers hu) hkept
  | stellarLogin hfresh husers => exact absurd (column_insert rfl hfresh husers hu) hkept
  | anonymizeUser hget husers => exact absurd (column_spread hget rfl rfl husers) hkept
  | @approveInstructor env user _ _ hget husers =>
    by_cases huser : u = user .id
    · exact .inr (.inl ⟨env, by rw [huser]⟩)
    · exact absurd (column_of_ne rfl husers huser) hkept
  | batchUpdate => exact .inr (.inr ⟨_, _, _, rfl⟩)
  | update hget husers =>
    exact absurd (column_spread hget (OtherData.eq_none _ (by decide))
      (OtherData.eq_none _ (by decide)) husers) hkept

/-- A link is written by the call that draws its token and mails it, or by an administrator. -/
theorem link_written (h : Effect crypto config i s s') {hash : String} {date : Int}
    (hold : link s u ≠ some (some hash, some date))
    (hnew : link s' u = some (some hash, some date)) :
    (∃ env email, ((∃ password refCode, i = (env, .register email password refCode)) ∨
        i = (env, .resendVerification email)) ∧
      hash = TokenService.hashToken crypto (env.random 0) ∧
      date = env.now + 24 * 60 * 60 * 1000 ∧ column s' u .email = some email ∧
      MayHaveSent (MailService.verificationMail config email (env.random 0)) s s') ∨
    ∃ env id data, i = (env, .batchUpdate id data) := by
  have hspread : ∀ {user : User} {data : UserData},
      s.auth.users.get (user .id) = some user → data .id = none →
      data .verificationToken = none → data .verificationTokenExpiresAt = none →
      s'.auth.users = s.auth.users.save (spread user data) → False := by
    intro user data hget hid htoken hdate husers
    rw [link_eq, column_spread hget hid htoken husers, column_spread hget hid hdate husers,
      ← link_eq] at hnew
    exact hold hnew
  cases h with
  | nothing husers => exact absurd (by rw [← hnew, link, link, husers]) hold
  | @register env email password refCode referredBy _ _ _ husers _ hmails =>
    by_cases hu : u = env.uuid
    · have hrow : s'.auth.users.get u = some (inserted env
          (AuthService.registration crypto env email password referredBy)) := by
        rw [husers, Repository.get_save]
        exact if_pos hu
      rw [link, hrow] at hnew
      obtain ⟨hhash, hdate⟩ := Prod.mk.inj (Option.some.inj hnew)
      refine .inl ⟨env, email, .inl ⟨password, refCode, rfl⟩, (Option.some.inj hhash).symm,
        (Option.some.inj hdate).symm, ?_, hmails⟩
      rw [column, hrow]
      rfl
    · refine absurd ?_ hold
      rw [← hnew, link, link, husers, Repository.get_save]
      exact congrArg _ (if_neg hu).symm
  | @verifyEmail _ _ user _ _ _ hget _ _ _ husers =>
    refine absurd ?_ hold
    rw [← hnew, link, link, husers, get_save_spread rfl]
    split
    · next hu =>
      rw [link, husers, get_save_spread rfl, if_pos hu] at hnew
      cases hnew
    · rfl
  | @resendVerification env email user _ _ hget hemail _ husers _ hmails =>
    by_cases hu : u = user .id
    · have hrow : s'.auth.users.get u =
          some (spread user (AuthService.newLink crypto env)) := by
        rw [husers, get_save_spread rfl, if_pos hu]
      rw [link, hrow] at hnew
      obtain ⟨hhash, hdate⟩ := Prod.mk.inj (Option.some.inj hnew)
      refine .inl ⟨env, email, .inr rfl, (Option.some.inj hhash).symm,
        (Option.some.inj hdate).symm, ?_, hmails⟩
      rw [column, hrow, Option.map_some, ← hemail]
      rfl
    · refine absurd ?_ hold
      rw [← hnew, link, link, husers, get_save_spread rfl, if_neg hu]
  | forgotPassword _ _ _ _ husers => exact absurd (by rw [← hnew, link, link, husers]) hold
  | resetPassword _ _ _ _ hget husers =>
    have hkey := Repository.key_of_get hget
    exact (hspread (by rw [hkey]; exact hget) rfl rfl rfl husers).elim
  | @googleLogin env profile _ _ _ husers =>
    refine absurd ?_ hold
    rw [← hnew, link, link, husers, Repository.get_save]
    split
    · next hu =>
      rw [link, husers, Repository.get_save, if_pos hu] at hnew
      cases hnew
    · rfl
  | @stellarLogin env clientPublicKey _ _ _ husers =>
    refine absurd ?_ hold
    rw [← hnew, link, link, husers, Repository.get_save]
    split
    · next hu =>
      rw [link, husers, Repository.get_save, if_pos hu] at hnew
      cases hnew
    · rfl
  | anonymizeUser hget husers | approveInstructor hget husers =>
    exact (hspread hget rfl rfl rfl husers).elim
  | batchUpdate => exact .inr ⟨_, _, _, rfl⟩
  | update hget husers =>
    exact (hspread hget (OtherData.eq_none _ (by decide)) (OtherData.eq_none _ (by decide))
      (OtherData.eq_none _ (by decide)) husers).elim

end Columns

/-! ## Reset tokens -/

section Tokens

variable {crypto config} {i : Env × Call} {s s' : State}

/-- A token that may still be used is stored by the call that draws it and mails it. -/
theorem token_written (h : Effect crypto config i s s') {stored : PasswordResetToken}
    (hunused : stored.used = false) (hold : s.auth.resetTokens.get stored.id ≠ some stored)
    (hnew : s'.auth.resetTokens.get stored.id = some stored) :
    ∃ env email, i = (env, .forgotPassword email) ∧
      stored = resetToken crypto env stored.userId ∧ column s stored.userId .email = some email ∧
      MayHaveSent (MailService.passwordResetMail config email (env.random 0)) s s' := by
  cases h with
  | nothing _ htokens | register _ _ htokens | verifyEmail _ _ _ _ _ htokens
  | resendVerification _ _ _ _ htokens | googleLogin _ _ htokens | stellarLogin _ _ htokens
  | anonymizeUser _ _ htokens | approveInstructor _ _ htokens | batchUpdate _ _ htokens
  | update _ _ htokens =>
    exact absurd (by rw [← htokens]; exact hnew) hold
  | @forgotPassword env email user _ _ hget hemail _ _ _ htokens hmails =>
    rw [htokens, Repository.get_save] at hnew
    split at hnew
    · cases Option.some.inj hnew
      refine ⟨env, email, rfl, rfl, ?_, hmails⟩
      have hcolumn : column s (user .id) .email = some (user .email) := by
        rw [column, hget, Option.map_some]
      rw [← hemail]
      exact hcolumn
    · exact absurd hnew hold
  | @resetPassword _ _ _ used _ _ _ _ _ _ _ _ _ htokens =>
    rw [htokens, Repository.get_save] at hnew
    split at hnew
    · rw [← Option.some.inj hnew] at hunused
      cases hunused
    · exact absurd hnew hold

/-- The token in this row has been used. -/
def Used (s : State) (id : String) : Prop :=
  ∃ stored, s.auth.resetTokens.get id = some stored ∧ stored.used = true

theorem used_kept (h : Effect crypto config i s s') {id : String} (hused : Used s id) :
    Used s' id := by
  obtain ⟨stored, hget, hmarked⟩ := hused
  cases h with
  | nothing _ htokens | register _ _ htokens | verifyEmail _ _ _ _ _ htokens
  | resendVerification _ _ _ _ htokens | googleLogin _ _ htokens | stellarLogin _ _ htokens
  | anonymizeUser _ _ htokens | approveInstructor _ _ htokens | batchUpdate _ _ htokens
  | update _ _ htokens =>
    exact ⟨stored, by rw [htokens]; exact hget, hmarked⟩
  | @forgotPassword env email user _ _ _ _ _ hfresh _ htokens =>
    refine ⟨stored, ?_, hmarked⟩
    rw [htokens, Repository.get_save, if_neg, hget]
    rintro rfl
    have hget : s.auth.resetTokens.get env.uuid = some stored := hget
    rw [hfresh] at hget
    cases hget
  | @resetPassword _ _ _ other _ _ _ _ _ _ _ _ _ htokens =>
    unfold Used
    rw [htokens, Repository.get_save]
    split
    · exact ⟨_, rfl, rfl⟩
    · exact ⟨stored, hget, hmarked⟩

/-- The reset tokens of a user from a span of one hour. -/
def tokensWithin (s : State) (userId : String) (since : Int) : List PasswordResetToken :=
  s.auth.resetTokens.find fun token =>
    token.userId = userId ∧ since < token.createdAt ∧ token.createdAt ≤ since + 60 * 60 * 1000

theorem tokensWithin_le (h : Effect crypto config i s s') {userId : String} {since : Int}
    (hle : (tokensWithin s userId since).length ≤ 3) :
    (tokensWithin s' userId since).length ≤ 3 := by
  cases h with
  | nothing _ htokens | register _ _ htokens | verifyEmail _ _ _ _ _ htokens
  | resendVerification _ _ _ _ htokens | googleLogin _ _ htokens | stellarLogin _ _ htokens
  | anonymizeUser _ _ htokens | approveInstructor _ _ htokens | batchUpdate _ _ htokens
  | update _ _ htokens =>
    rw [tokensWithin, htokens]
    exact hle
  | @forgotPassword env email user _ _ _ _ hrecent hfresh _ htokens =>
    rw [tokensWithin, htokens, Repository.find_save_new hfresh]
    split
    · next hwithin =>
      -- what the span has so far is from the last hour
      obtain ⟨huser, -, hsince⟩ := of_decide_eq_true hwithin
      have hfewer : (tokensWithin s userId since).length ≤
          (recentTokens s (user .id) (env.now - 60 * 60 * 1000)).length := by
        refine List.Subperm.length_le
          (List.subperm_of_subset Repository.nodup_find fun token htoken => ?_)
        obtain ⟨hmem, hholds⟩ := Repository.mem_find.mp htoken
        obtain ⟨htokenUser, hafter, -⟩ := of_decide_eq_true hholds
        have hnow : env.now ≤ since + 60 * 60 * 1000 := hsince
        refine Repository.mem_find.mpr ⟨hmem, decide_eq_true ⟨?_, by omega⟩⟩
        exact htokenUser.trans huser.symm
      rw [List.length_cons]
      exact Nat.lt_of_le_of_lt hfewer hrecent
    · exact hle
  | @resetPassword _ _ _ stored _ _ _ hstored _ _ _ _ _ htokens =>
    rw [tokensWithin, htokens]
    refine le_trans (Repository.length_find_save_le fun hholds => ?_) hle
    exact ⟨stored, Repository.mem_def.mpr hstored, hholds, rfl⟩

end Tokens

/-! ## Runs -/

section Runs

variable {crypto config} {s₀ : State} {e f : List (Env × Call)} {i : Env × Call} {u : String}

theorem effect_after (e : List (Env × Call)) (i : Env × Call) :
    Effect crypto config i (after (exec crypto config) s₀ e)
      (after (exec crypto config) s₀ (i :: e)) :=
  effect _ i

/-- In every run that starts without reset tokens, a password is changed by a reset with a token
that the server has drawn for this user at most one hour before, and mailed to the user's address
only; or it is removed with the user, or changed by an administrator. What the token was drawn for
is used up by the change. -/
theorem password_changed_by_link (hs₀ : s₀.auth.resetTokens = Repository.empty) {old new : String}
    (hold : column (after (exec crypto config) s₀ e) u .passwordHash = some old)
    (hnew : column (after (exec crypto config) s₀ (i :: e)) u .passwordHash = some new)
    (hne : old ≠ new) :
    (∃ env token newPassword env₀ email f, i = (env, .resetPassword token newPassword) ∧
      new = crypto.hash (env.random 0) newPassword ∧
      (env₀, .forgotPassword email) :: f <:+ e ∧
      column (after (exec crypto config) s₀ f) u .email = some email ∧
      MayHaveSent (MailService.passwordResetMail config email (env₀.random 0))
        (after (exec crypto config) s₀ f)
        (after (exec crypto config) s₀ ((env₀, .forgotPassword email) :: f)) ∧
      crypto.sha256 token = crypto.sha256 (env₀.random 0) ∧
      env.now ≤ env₀.now + 60 * 60 * 1000 ∧
      ¬ Used (after (exec crypto config) s₀ e) env₀.uuid ∧
      ∀ g, i :: e <:+ g → Used (after (exec crypto config) s₀ g) env₀.uuid) ∨
    (∃ env, i = (env, .anonymizeUser u) ∧ new = "") ∨
    ∃ env id data, i = (env, .batchUpdate id data) := by
  rcases password_changed (effect_after e i) hold hnew hne with hreset | hother
  swap
  · exact .inr hother
  obtain ⟨env, token, newPassword, stored, rfl, hstored, hhash, hunused, hnow, huser, hpassword,
    htokens⟩ := hreset
  have hnone : s₀.auth.resetTokens.get stored.id ≠ some stored := by
    rw [hs₀, Repository.get_empty]
    exact nofun
  obtain ⟨j, f, hs, hbefore, hsince⟩ := exists_written
    (fun s : State => s.auth.resetTokens.get stored.id) hnone hstored
  have hwritten := hsince (j :: f) (List.suffix_refl _) hs
  obtain ⟨env₀, email, rfl, hrow, hemail, hmails⟩ :=
    token_written (effect_after f j) hunused hbefore hwritten
  have hid : stored.id = env₀.uuid := by rw [hrow]; rfl
  refine .inl ⟨env, token, newPassword, env₀, email, f, rfl, hpassword, hs, ?_, hmails, ?_, ?_, ?_,
    fun g hg => ?_⟩
  · rwa [huser] at hemail
  · rw [← TokenService.hashToken, ← hhash, hrow]
    rfl
  · rw [hrow] at hnow
    exact hnow
  · rintro ⟨other, hother, hmarked⟩
    rw [← hid, hstored] at hother
    rw [← Option.some.inj hother, hunused] at hmarked
    cases hmarked
  · refine after_kept (P := fun s => Used s env₀.uuid) hg ?_ fun k g s' _ _ hused he => ?_
    · refine ⟨{ stored with used := true }, ?_, rfl⟩
      rw [htokens, ← hid]
      exact Repository.get_save_self
    · cases he
      exact used_kept (effect _ k) hused

/-- In every run that starts without reset tokens, no more than three of them are stored for one
user within an hour. -/
theorem reset_tokens_limited (hs₀ : s₀.auth.resetTokens = Repository.empty)
    (past : List (Env × Call)) (userId : String) (since : Int) :
    (tokensWithin (after (exec crypto config) s₀ past) userId since).length ≤ 3 := by
  refine after_invariant (P := fun s => (tokensWithin s userId since).length ≤ 3) ?_
    (fun s i s' hle he => ?_) past
  · rw [tokensWithin, hs₀]
    exact Nat.zero_le 3
  · cases he
    exact tokensWithin_le (effect s i) hle

/-- In every run that starts without users, the email address of a user becomes verified with the
link that the last mail to this address has, sent at most a day before, unless an administrator has
written the link; or it does with the approval of an instructor, or by an administrator. The link is
then gone. -/
theorem verified_by_link (hs₀ : s₀.auth.users = Repository.empty)
    (hold : column (after (exec crypto config) s₀ e) u .isVerified = some false)
    (hnew : column (after (exec crypto config) s₀ (i :: e)) u .isVerified = some true) :
    (∃ env token i₀ f, i = (env, .verifyEmail token) ∧ i₀ :: f <:+ e ∧
      ((∃ env₀ email, ((∃ password refCode, i₀ = (env₀, .register email password refCode)) ∨
          i₀ = (env₀, .resendVerification email)) ∧
        column (after (exec crypto config) s₀ (i₀ :: f)) u .email = some email ∧
        MayHaveSent (MailService.verificationMail config email (env₀.random 0))
          (after (exec crypto config) s₀ f) (after (exec crypto config) s₀ (i₀ :: f)) ∧
        crypto.sha256 token = crypto.sha256 (env₀.random 0) ∧
        env.now ≤ env₀.now + 24 * 60 * 60 * 1000) ∨
        ∃ env₀ id data, i₀ = (env₀, .batchUpdate id data)) ∧
      (∀ g, i₀ :: f <:+ g → g <:+ e → (link (after (exec crypto config) s₀ g) u).map
        Prod.fst = some (some (crypto.sha256 token))) ∧
      link (after (exec crypto config) s₀ (i :: e)) u = some (none, none)) ∨
    (∃ env, i = (env, .approveInstructor u)) ∨ ∃ env id data, i = (env, .batchUpdate id data) := by
  rcases verified_changed (effect_after e i) hold hnew with hverify | hother
  swap
  · exact .inr hother
  obtain ⟨env, token, date, rfl, hlink, hnow, hgone⟩ := hverify
  have hnone : link s₀ u ≠ some (some (TokenService.hashToken crypto token), some date) := by
    rw [link, hs₀, Repository.get_empty]
    exact nofun
  obtain ⟨i₀, f, hs, hbefore, hsince⟩ := exists_written
    (fun s : State => link s u) hnone hlink
  have hwritten := hsince _ (List.suffix_refl _) hs
  refine .inl ⟨env, token, i₀, f, rfl, hs, ?_, fun g hg hge => ?_, hgone⟩
  · rcases link_written (effect_after f i₀) hbefore hwritten with
      ⟨env₀, email, hcall, hhash, hdate, hemail, hmails⟩ | hbatch
    · refine .inl ⟨env₀, email, hcall, hemail, hmails, hhash, ?_⟩
      rw [← hdate]
      exact hnow
    · exact .inr hbatch
  · rw [hsince g hg hge, Option.map_some]
    rfl

/-! ## An account -/

/-- The environment of a call, with the string that is drawn first. -/
def exampleEnv (now : Int) (uuid drawn : String) : Env where
  now := now
  uuid := uuid
  random := fun k => if k = 0 then drawn else "salt"

def exampleConfig : MailConfig where
  enabled := true
  from_ := "noreply@scoopdope"
  frontendUrl := "http://localhost:3000"
  deliver := fun _ _ => true

def exampleState : State where
  auth :=
    { users := Repository.empty
      refreshTokens := Repository.empty
      resetTokens := Repository.empty
      auditLogs := [] }
  mails := []
  serverLog := []
  requests := []

theorem exampleState_empty : exampleState.auth.users = Repository.empty ∧
    exampleState.auth.resetTokens = Repository.empty := ⟨rfl, rfl⟩

/-- A user registers, verifies the address with the second link and asks for a reset. -/
def exampleRun : List (Env × Call) :=
  [(exampleEnv 4000 "t1" "drawn3", .forgotPassword "ada@example"),
    (exampleEnv 3000 "-" "-", .verifyEmail "drawn2"),
    (exampleEnv 2000 "-" "drawn2", .resendVerification "ada@example"),
    (exampleEnv 1000 "u1" "drawn1", .register "ada@example" "first" none)]

def exampleCrypto : Crypto := Crypto.sample "drawn1" "hash1"

/-- The reset of the password. -/
def exampleReset : Env × Call := (exampleEnv 5000 "-" "salt", .resetPassword "drawn3" "second")

theorem password_changed_by_link_example :
    ∃ env₀ email f, (env₀, .forgotPassword email) :: f <:+ exampleRun ∧
      exampleCrypto.sha256 "drawn3" = exampleCrypto.sha256 (env₀.random 0) ∧
      Used (after (exec exampleCrypto exampleConfig) exampleState (exampleReset :: exampleRun))
        env₀.uuid := by
  have hold : column (after (exec exampleCrypto exampleConfig) exampleState exampleRun) "u1"
      .passwordHash = some "first" := by decide
  have hnew : column (after (exec exampleCrypto exampleConfig) exampleState
      (exampleReset :: exampleRun)) "u1" .passwordHash = some "second" := by decide
  rcases password_changed_by_link exampleState_empty.2 hold hnew (by decide) with
    ⟨env, token, newPassword, env₀, email, f, hcall, -, hs, -, -, htoken, -, -, hused⟩ |
    ⟨env, hcall, -⟩ | ⟨env, id, data, hcall⟩
  · cases hcall
    exact ⟨env₀, email, f, hs, htoken, hused _ (List.suffix_refl _)⟩
  · cases hcall
  · cases hcall

theorem reset_tokens_limited_example :
    (tokensWithin (after (exec exampleCrypto exampleConfig) exampleState exampleRun) "u1"
      0).length ≤ 3 :=
  reset_tokens_limited exampleState_empty.2 exampleRun "u1" 0

theorem verified_by_link_example :
    ∃ i₀ f, i₀ :: f <:+ exampleRun.drop 2 ∧
      (∀ g, i₀ :: f <:+ g → g <:+ exampleRun.drop 2 →
        (link (after (exec exampleCrypto exampleConfig) exampleState g) "u1").map Prod.fst =
          some (some (exampleCrypto.sha256 "drawn2"))) ∧
      link (after (exec exampleCrypto exampleConfig) exampleState
        ((exampleEnv 3000 "-" "-", .verifyEmail "drawn2") :: exampleRun.drop 2)) "u1" =
          some (none, none) := by
  have hold : column (after (exec exampleCrypto exampleConfig) exampleState (exampleRun.drop 2))
      "u1" .isVerified = some false := by decide
  have hnew : column (after (exec exampleCrypto exampleConfig) exampleState
      ((exampleEnv 3000 "-" "-", .verifyEmail "drawn2") :: exampleRun.drop 2)) "u1" .isVerified =
        some true := by decide
  rcases verified_by_link exampleState_empty.1 hold hnew with
    ⟨env, token, i₀, f, hcall, hs, -, hlink, hgone⟩ | ⟨env, hcall⟩ | ⟨env, id, data, hcall⟩
  · cases hcall
    exact ⟨i₀, f, hs, hlink, hgone⟩
  · cases hcall
  · cases hcall

end Runs

end Scoopdope.Auth.Recovery

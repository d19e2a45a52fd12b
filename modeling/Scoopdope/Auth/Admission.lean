import Scoopdope.Auth.Service
import Scoopdope.Auth.StellarAuth
import Scoopdope.Soroban.History

/-!
# Authentication: who is admitted

`login` refuses a user who is banned, and asks for a second factor where the role or the
settings of the user call for one. The other three ways to an access token look at neither: a
refresh token, a Google profile or a Stellar challenge is enough.

A refresh token carries on what the login it goes back to has shown: `shown` follows that
along a run. `admission_iff`: in a run of calls, with any changes to the users in between, no
token is issued against the rules of `login`, exactly when every refresh, Google login and
Stellar login that passes its own checks is for a user whom the rules admit. What `login`
itself admits is right (`login_admits`). `banned_user_refreshes` is a user who is banned and
goes on with a refresh token.
-/

namespace Scoopdope.Auth.Admission

open Async Database Server Soroban Users

variable {Tx : Type}

inductive Call (Tx : Type)
  | login (email password : String) (mfaToken ipAddress userAgent : Option String)
  | refresh (rawRefreshToken : String)
  | googleLogin (profile : OAuthService.Profile)
  | verifyChallenge (signedXdr : Tx)
  /-- What other services make of the users: bans, roles, settings. -/
  | change (users : UserTable)

inductive Answer
  | login (answer : AuthService.LoginAnswer)
  | tokens (pair : TokenPair)
  | access (token : AccessToken)
  | changed

def Answer.token : Answer → Option AccessToken
  | .login (.tokens pair) => some pair.accessToken
  | .login .mfaRequired => none
  | .tokens pair => some pair.accessToken
  | .access token => some token
  | .changed => none

/-- The services: their libraries and the keys of the server. -/
structure Services (Tx : Type) where
  crypto : Crypto
  webAuth : StellarAuthService.WebAuth Tx
  config : StellarAuthService.Config

variable (services : Services Tx)

/-- A call, served alone. -/
def serve (s : State) (i : Env × Call Tx) : Except HttpException Answer × State :=
  match i.2 with
  | .login email password mfaToken ipAddress userAgent =>
    Process.run handle i.1 s (do
      let answer ← AuthService.login services.crypto email password mfaToken ipAddress userAgent
      pure (.login answer))
  | .refresh rawRefreshToken =>
    Process.run handle i.1 s (do
      let pair ← TokenService.refresh services.crypto rawRefreshToken
      pure (.tokens pair))
  | .googleLogin profile =>
    Process.run handle i.1 s (do
      let pair ← OAuthService.googleLogin services.crypto profile
      pure (.tokens pair))
  | .verifyChallenge signedXdr =>
    Process.run handle i.1 s (do
      let token ← StellarAuthService.verifyChallenge services.webAuth services.config signedXdr
      pure (.access token))
  | .change users => (.ok .changed, { s with users })

/-- The step of a run of calls. -/
def exec (s : State) (i : Env × Call Tx) : Outcome State := .ok (serve services s i).2

/-! ## The rules -/

/-- The code is a second factor of the user: a TOTP that is valid, or a backup code. -/
def ValidFactor (crypto : Crypto) (env : Env) (user : User) (code : String) : Prop :=
  ∃ secret, user .mfaSecret = some secret ∧
    (MfaService.totpValid crypto env secret code = .ok true ∨
      crypto.sha256 code ∈ MfaService.backupCodes user)

/-- `login` demands a second factor of this user. -/
def DemandsFactor (user : User) : Prop := user .role = "admin" ∨ user .mfaEnabled = true

/-- The row of a refresh token that may still be used. -/
def storedToken (s : State) (rawRefreshToken : String) : Option RefreshToken :=
  s.refreshTokens.findOne fun token =>
    token.tokenHash = TokenService.hashToken services.crypto rawRefreshToken ∧
      token.revoked = false

/-- A second factor is shown in the call, or was shown in the calls that led to the refresh
token it comes with. `shown` says of which tokens that is so, by row. -/
def Shows (shown : String → Prop) (s : State) (i : Env × Call Tx) : Prop :=
  match i.2 with
  | .login email _ mfaToken _ _ =>
    ∃ user code, s.users.findOne (Where.email email).holds = some user ∧ mfaToken = some code ∧
      ValidFactor services.crypto i.1 user code
  | .refresh rawRefreshToken =>
    ∃ stored, storedToken services s rawRefreshToken = some stored ∧ shown stored.id
  | _ => False

/-- The call has issued the refresh token in this row. -/
def IssuesRow (s : State) (i : Env × Call Tx) (id : String) : Prop :=
  s.refreshTokens.get id = none ∧ (serve services s i).2.refreshTokens.get id ≠ none

/-- Which refresh tokens go back to a second factor. -/
def shown (s : State) (before : String → Prop) : List (Env × Call Tx) → String → Prop :=
  traced (exec services) s (fun shown s i id =>
    (IssuesRow services s i id ∧ Shows services shown s i) ∨
      (¬ IssuesRow services s i id ∧ shown id)) before

/-- An access token that the call issues is for a user who is not banned, and of whom `login`
demands no second factor, unless one was shown. -/
def Admits (shown : String → Prop) (s : State) (i : Env × Call Tx) : Prop :=
  ∀ answer token row, (serve services s i).1 = .ok answer → answer.token = some token →
    (serve services s i).2.users.get token.sub = some row →
    row .isBanned = false ∧ (DemandsFactor row → Shows services shown s i)

/-- A refresh, a Google login or a Stellar login that passes its own checks is for a user whom
the rules of `login` admit. -/
def KeepsRules (shown : String → Prop) (s : State) (i : Env × Call Tx) : Prop :=
  match i.2 with
  | .refresh rawRefreshToken =>
    ∀ stored user, storedToken services s rawRefreshToken = some stored →
      i.1.now ≤ stored.expiresAt → s.users.get stored.userId = some user →
      s.refreshTokens.get i.1.uuid = none →
      user .isBanned = false ∧ (DemandsFactor user → shown stored.id)
  | .googleLogin profile =>
    ∀ user, s.users.findOne (Where.email profile.email).holds = some user →
      s.refreshTokens.get i.1.uuid = none → user .isBanned = false ∧ ¬ DemandsFactor user
  | .verifyChallenge signedXdr =>
    ∀ account user,
      StellarAuthService.clientAccount services.webAuth services.config i.1 signedXdr =
        .ok account →
      s.users.findOne (Where.stellarPublicKey account).holds = some user →
      user .isBanned = false ∧ ¬ DemandsFactor user
  | _ => True

/-! ## Login -/

variable {crypto : Crypto} {env : Env} {s s' : State}

/-- A row that the rules treat as another. -/
def SameAccount (row user : User) : Prop :=
  row .isBanned = user .isBanned ∧ row .role = user .role ∧ row .mfaEnabled = user .mfaEnabled

/-- A code that is accepted is a second factor, and the account stays what it is. -/
theorem valid_of_verifyCode {userId code : String} {user : User}
    (hget : s.users.get userId = some user)
    (h : (MfaService.verifyCode crypto userId code).run handle env s = (.ok true, s')) :
    ValidFactor crypto env user code ∧
      ∃ row, s'.users.get userId = some row ∧ SameAccount row user := by
  rw [MfaService.run_verifyCode, hget] at h
  cases hsecret : MfaService.mfaSecret (some user) with
  | none =>
    rw [hsecret] at h
    cases h
  | some secret =>
    have hstored := (truthy_eq_some.mp hsecret).1
    simp only [hsecret] at h
    rcases hvalid : MfaService.totpValid crypto env secret code with x | valid
    · rw [hvalid] at h
      cases h
    · rw [hvalid] at h
      cases valid with
      | true =>
        cases h
        exact ⟨⟨secret, hstored, .inl hvalid⟩, user, hget, rfl, rfl, rfl⟩
      | false =>
        simp only [MfaService.run_useBackupCode, hget] at h
        split at h
        · next hmem =>
          split at h
          · cases h
          · cases h
            refine ⟨⟨secret, hstored, .inr hmem⟩, spread user (Patch.empty.set .mfaBackupCodes
              (some ((MfaService.backupCodes user).erase (crypto.sha256 code)))), ?_,
              rfl, rfl, rfl⟩
            rw [← Repository.key_of_get hget]
            exact Repository.get_save_self
        · cases h

/-- The end of a login that succeeds. -/
theorem run_succeed {ipAddress userAgent : Option String} {user : User} {pair : TokenPair}
    (h : (AuthService.login.succeed crypto ipAddress userAgent user).run handle env s =
      (.ok (.tokens pair), s')) :
    pair.accessToken.sub = user .id ∧ s'.users = s.users := by
  unfold AuthService.login.succeed at h
  rw [Process.run_bind, TokenService.run_issueTokenPair] at h
  cases hfree : (s.refreshTokens.get env.uuid).isSome with
  | true =>
    rw [hfree] at h
    cases h
  | false =>
    rw [hfree] at h
    cases h
    exact ⟨rfl, rfl⟩

theorem login_admits {email password : String} {mfaToken ipAddress userAgent : Option String}
    {pair : TokenPair}
    (h : (AuthService.login crypto email password mfaToken ipAddress userAgent).run handle env s =
      (.ok (.tokens pair), s')) :
    ∃ user row, s.users.findOne (Where.email email).holds = some user ∧
      s'.users.get pair.accessToken.sub = some row ∧ SameAccount row user ∧
      user .isBanned = false ∧
      (DemandsFactor user → ∃ code, mfaToken = some code ∧ ValidFactor crypto env user code) := by
  unfold AuthService.login at h
  simp only [lift_users] at h
  rw [Process.run_bind, run_findByEmail] at h
  simp only at h
  -- every branch but two refuses, or answers that a second factor is needed
  cases hfound : s.users.findOne (Where.email email).holds with
  | none =>
    rw [hfound] at h
    cases h
  | some found =>
    rw [hfound] at h
    obtain ⟨-, hget⟩ := Repository.findOne_some hfound
    cases hmatch : Option.filter (fun user => crypto.compare password (user .passwordHash))
        (some found) with
    | none =>
      rw [hmatch] at h
      cases h
    | some user =>
      have huser : found = user := by
        have hsome := (Option.filter_eq_some_iff.mp hmatch).1
        exact Option.some.inj hsome
      subst huser
      rw [hmatch] at h
      simp only at h
      split at h
      · cases h
      · next hbanned =>
        split at h
        · cases h
        · split at h
          · cases h
          · next hadmin =>
            have hnotBanned : found .isBanned = false := by simpa using hbanned
            split at h
            · next henabled =>
              cases htoken : truthy mfaToken with
              | none =>
                rw [htoken] at h
                cases h
              | some code =>
                simp only [htoken] at h
                rw [Process.run_bind] at h
                rcases hverify : (MfaService.verifyCode crypto (found .id) code).run handle env s
                  with ⟨x | valid, s₁⟩
                · rw [hverify] at h
                  cases h
                · rw [hverify] at h
                  cases valid with
                  | false => cases h
                  | true =>
                    obtain ⟨hvalid, row, hrow, hsame⟩ := valid_of_verifyCode hget hverify
                    obtain ⟨hsub, husers⟩ := run_succeed h
                    rw [hsub, husers]
                    exact ⟨found, row, rfl, hrow, hsame, hnotBanned,
                      fun _ => ⟨code, (truthy_eq_some.mp htoken).1, hvalid⟩⟩
            · next hdisabled =>
              obtain ⟨hsub, husers⟩ := run_succeed h
              rw [hsub, husers]
              refine ⟨found, found, rfl, hget, ⟨rfl, rfl, rfl⟩, hnotBanned, fun hdemands => ?_⟩
              rcases hdemands with hrole | henabled
              · exact absurd ⟨hrole, by simpa using hdisabled⟩ hadmin
              · exact absurd henabled hdisabled

/-! ## The other ways -/

/-- What the rules say of a row they say of every row like it. -/
theorem DemandsFactor.of_same {row user : User} (h : SameAccount row user)
    (hdemands : DemandsFactor row) : DemandsFactor user := by
  unfold DemandsFactor at hdemands ⊢
  rw [← h.2.1, ← h.2.2]
  exact hdemands

variable {services}

theorem serve_login {email password : String} {mfaToken ipAddress userAgent : Option String} :
    serve services s (env, .login email password mfaToken ipAddress userAgent) =
      (((AuthService.login services.crypto email password mfaToken ipAddress userAgent).run
          handle env s).1.map .login,
        ((AuthService.login services.crypto email password mfaToken ipAddress userAgent).run
          handle env s).2) :=
  Process.run_map _ _

variable (services env s) in
theorem serve_refresh (rawRefreshToken : String) :
    serve services s (env, .refresh rawRefreshToken) =
      (((TokenService.refresh services.crypto rawRefreshToken).run handle env s).1.map .tokens,
        ((TokenService.refresh services.crypto rawRefreshToken).run handle env s).2) :=
  Process.run_map _ _

variable (services env s) in
theorem serve_googleLogin (profile : OAuthService.Profile) :
    serve services s (env, .googleLogin profile) =
      (((OAuthService.googleLogin services.crypto profile).run handle env s).1.map .tokens,
        ((OAuthService.googleLogin services.crypto profile).run handle env s).2) :=
  Process.run_map _ _

theorem serve_verifyChallenge {signedXdr : Tx} :
    serve services s (env, .verifyChallenge signedXdr) =
      (((StellarAuthService.verifyChallenge services.webAuth services.config signedXdr).run
          handle env s).1.map .access,
        ((StellarAuthService.verifyChallenge services.webAuth services.config signedXdr).run
          handle env s).2) :=
  Process.run_map _ _

/-- A call that answers with tokens has run to them. -/
theorem ok_of_map {A : Type} {result : Except HttpException A} {f : A → Answer}
    {answer : Answer} (h : result.map f = .ok answer) : ∃ a, result = .ok a ∧ answer = f a := by
  cases result with
  | error x => cases h
  | ok a =>
    cases h
    exact ⟨a, rfl, rfl⟩

theorem ok_of_toOption {A : Type} {result : Except HttpException A} {a : A}
    (h : result.toOption = some a) : result = .ok a := by
  cases result with
  | error x => cases h
  | ok a' => exact congrArg Except.ok (Option.some.inj h)

theorem admits_login {shown : String → Prop} {email password : String}
    {mfaToken ipAddress userAgent : Option String} :
    Admits services shown s (env, .login email password mfaToken ipAddress userAgent) := by
  intro answer token row hanswer htoken hget
  rw [serve_login] at hanswer hget
  obtain ⟨answer', hrun, rfl⟩ := ok_of_map hanswer
  cases answer' with
  | mfaRequired => cases htoken
  | tokens pair =>
    cases htoken
    obtain ⟨user, row', hfound, hget', hsame, hbanned, hfactor⟩ :=
      login_admits (Prod.ext hrun rfl)
    cases hget'.symm.trans hget
    refine ⟨hsame.1.trans hbanned, fun hdemands => ?_⟩
    obtain ⟨code, htoken, hvalid⟩ := hfactor (hdemands.of_same hsame)
    exact ⟨user, code, hfound, htoken, hvalid⟩

/-- A refresh that passes its checks. -/
theorem run_refresh_of {rawRefreshToken : String} {stored : RefreshToken} {user : User}
    (hstored : storedToken services s rawRefreshToken = some stored)
    (hexpires : env.now ≤ stored.expiresAt) (huser : s.users.get stored.userId = some user) :
    (TokenService.refresh services.crypto rawRefreshToken).run handle env s =
      (TokenService.issueTokenPair services.crypto (user .id) (user .email) (user .role)).run handle
        env { s with refreshTokens := s.refreshTokens.save { stored with revoked := true } } := by
  unfold storedToken at hstored
  rw [TokenService.run_refresh, hstored]
  simp only [huser]
  rw [if_neg (by omega)]

/-- A refresh that issues tokens has passed its checks. -/
theorem of_run_refresh {rawRefreshToken : String} {pair : TokenPair}
    (h : ((TokenService.refresh services.crypto rawRefreshToken).run handle env s).1 = .ok pair) :
    ∃ stored user, storedToken services s rawRefreshToken = some stored ∧
      env.now ≤ stored.expiresAt ∧ s.users.get stored.userId = some user := by
  rw [TokenService.run_refresh] at h
  unfold storedToken
  cases hstored : s.refreshTokens.findOne fun token =>
      token.tokenHash = TokenService.hashToken services.crypto rawRefreshToken ∧
        token.revoked = false with
  | none =>
    rw [hstored] at h
    cases h
  | some stored =>
    simp only [hstored] at h
    split at h
    · cases h
    · next hexpires =>
      cases huser : s.users.get stored.userId with
      | none =>
        rw [huser] at h
        cases h
      | some user => exact ⟨stored, user, rfl, by omega, huser⟩

/-- Issuing tokens for a user, in a state in which the row of the refresh token is free. -/
theorem issued_for {userId email role : String} {pair : TokenPair} :
    ((TokenService.issueTokenPair crypto userId email role).run handle env s).1 = .ok pair ↔
      s.refreshTokens.get env.uuid = none ∧
        pair = { accessToken := sign env userId email role, refreshToken := env.random 0 } := by
  rw [TokenService.run_issueTokenPair]
  cases s.refreshTokens.get env.uuid with
  | none => simp [eq_comm]
  | some row => simp

theorem users_issueTokenPair {userId email role : String} :
    ((TokenService.issueTokenPair crypto userId email role).run handle env s).2.users =
      s.users := by
  rw [TokenService.run_issueTokenPair]
  split <;> rfl

/-- A call that fails admits nobody. -/
theorem admits_of_error {shown : String → Prop} {call : Call Tx} {x : HttpException}
    (h : (serve services s (env, call)).1 = .error x) : Admits services shown s (env, call) := by
  intro answer token row hanswer
  rw [h] at hanswer
  cases hanswer

/-- A call that comes down to issuing tokens for a user, in some state, admits this user. -/
theorem admits_of_issues {shown : String → Prop} {call : Call Tx} {s₁ : State} (user : User)
    (hserve : serve services s (env, call) =
      (((TokenService.issueTokenPair services.crypto (user .id) (user .email) (user .role)).run
          handle env s₁).1.map .tokens,
        ((TokenService.issueTokenPair services.crypto (user .id) (user .email) (user .role)).run
          handle env s₁).2))
    (hget : s₁.users.get (user .id) = some user) :
    Admits services shown s (env, call) ↔
      (s₁.refreshTokens.get env.uuid = none → user .isBanned = false ∧
        (DemandsFactor user → Shows services shown s (env, call))) := by
  unfold Admits
  rw [hserve]
  simp only [users_issueTokenPair]
  constructor
  · intro h hfree
    exact h _ _ user (congrArg (Except.map Answer.tokens) (issued_for.mpr ⟨hfree, rfl⟩)) rfl hget
  · intro h answer token row hanswer htoken hrow
    obtain ⟨pair, hissued, rfl⟩ := ok_of_map hanswer
    obtain ⟨hfree, rfl⟩ := issued_for.mp hissued
    cases htoken
    obtain rfl := Option.some.inj (hget.symm.trans hrow)
    exact h hfree

/-- Revoking a token leaves the ids that are free as they are. -/
theorem free_of_revoked {rawRefreshToken : String} {stored : RefreshToken}
    (hstored : storedToken services s rawRefreshToken = some stored) (id : String) :
    (s.refreshTokens.save { stored with revoked := true }).get id = none ↔
      s.refreshTokens.get id = none := by
  obtain ⟨-, hget⟩ := Repository.findOne_some hstored
  have hsome := Repository.isSome_get_save { stored with revoked := true } hget id
  rw [← Option.not_isSome_iff_eq_none, ← Option.not_isSome_iff_eq_none, hsome]

theorem admits_refresh_iff {shown : String → Prop} {rawRefreshToken : String} :
    Admits services shown s (env, .refresh rawRefreshToken) ↔
      KeepsRules services shown s (env, .refresh rawRefreshToken) := by
  have hadmits {stored : RefreshToken} {user : User}
      (hstored : storedToken services s rawRefreshToken = some stored)
      (hexpires : env.now ≤ stored.expiresAt) (huser : s.users.get stored.userId = some user) :
      Admits services shown s (env, .refresh rawRefreshToken) ↔
        (s.refreshTokens.get env.uuid = none → user .isBanned = false ∧
          (DemandsFactor user → Shows services shown s (env, .refresh rawRefreshToken))) := by
    have hserve := serve_refresh services env s rawRefreshToken
    rw [run_refresh_of hstored hexpires huser] at hserve
    have hkey : user .id = stored.userId := Repository.key_of_get huser
    rw [admits_of_issues user hserve (hkey ▸ huser), free_of_revoked hstored]
  constructor
  · intro h stored user hstored hexpires huser hfresh
    obtain ⟨hbanned, hfactor⟩ := (hadmits hstored hexpires huser).mp h hfresh
    refine ⟨hbanned, fun hdemands => ?_⟩
    obtain ⟨stored', hstored', hshown⟩ := hfactor hdemands
    cases hstored.symm.trans hstored'
    exact hshown
  · intro h answer token row hanswer
    have hissued := hanswer
    rw [serve_refresh] at hissued
    obtain ⟨pair, hissued, -⟩ := ok_of_map hissued
    obtain ⟨stored, user, hstored, hexpires, huser⟩ := of_run_refresh hissued
    refine (hadmits hstored hexpires huser).mpr (fun hfresh => ?_) answer token row hanswer
    obtain ⟨hbanned, hfactor⟩ := h stored user hstored hexpires huser hfresh
    exact ⟨hbanned, fun hdemands => ⟨stored, hstored, hfactor hdemands⟩⟩

/-- A row that is inserted with the defaults is one that the rules admit. -/
theorem admitted_inserted (data : UserData) (hbanned : data .isBanned = none)
    (hrole : data .role = none) (henabled : data .mfaEnabled = none) :
    inserted env data .isBanned = false ∧ ¬ DemandsFactor (inserted env data) := by
  unfold DemandsFactor inserted
  rw [spread_of_none hbanned, spread_of_none hrole, spread_of_none henabled]
  simp [User.default]

/-- The user of a profile whose email no row has. -/
def newcomer (env : Env) (profile : OAuthService.Profile) : UserData :=
  (((((Patch.empty.set .email profile.email).set .passwordHash "").set .isVerified true).set
    .referralCode (some (env.random 0))).set .avatar (some profile.picture))

theorem run_googleLogin (profile : OAuthService.Profile) :
    (OAuthService.googleLogin crypto profile).run handle env s =
      match s.users.findOne (Where.email profile.email).holds with
      | some user =>
        (TokenService.issueTokenPair crypto (user .id) (user .email) (user .role)).run handle env s
      | none =>
        if (s.users.get env.uuid).isSome || conflicts s.users (inserted env (newcomer env profile))
        then (.error duplicateKey, s)
        else
          (TokenService.issueTokenPair crypto env.uuid profile.email "student").run handle env
            { s with users := s.users.save (inserted env (newcomer env profile)) } := by
  unfold OAuthService.googleLogin
  simp only [lift_users]
  rw [Process.run_bind, run_findByEmail]
  simp only
  cases s.users.findOne (Where.email profile.email).holds with
  | some user => rfl
  | none =>
    simp only [Process.env_bind, Process.run_ask]
    rw [Process.run_bind, run_users, run_create]
    have hid : inserted env (newcomer env profile) .id = env.uuid := rfl
    unfold newcomer at hid ⊢
    rw [hid]
    generalize ((s.users.get env.uuid).isSome || conflicts s.users _) = taken
    cases taken <;> rfl

theorem admits_googleLogin_iff {shown : String → Prop} {profile : OAuthService.Profile} :
    Admits services shown s (env, .googleLogin profile) ↔
      KeepsRules services shown s (env, .googleLogin profile) := by
  have hserve := serve_googleLogin services env s profile
  rw [run_googleLogin] at hserve
  cases hfound : s.users.findOne (Where.email profile.email).holds with
  | some user =>
    rw [hfound] at hserve
    obtain ⟨-, hget⟩ := Repository.findOne_some hfound
    rw [admits_of_issues user hserve hget]
    constructor
    · intro h user' hfound' hfresh
      obtain rfl := Option.some.inj (hfound.symm.trans hfound')
      exact h hfresh
    · intro h hfresh
      obtain ⟨hbanned, hfactor⟩ := h user hfound hfresh
      exact ⟨hbanned, fun hdemands => absurd hdemands hfactor⟩
  | none =>
    refine iff_of_true ?_ fun user hfound' => by
      rw [hfound] at hfound'
      cases hfound'
    simp only [hfound] at hserve
    split at hserve
    · exact admits_of_error (congrArg Prod.fst hserve)
    · have hget : (s.users.save (inserted env (newcomer env profile))).get env.uuid =
          some (inserted env (newcomer env profile)) := Repository.get_save_self
      refine (admits_of_issues (inserted env (newcomer env profile)) hserve hget).mpr fun _ => ?_
      obtain ⟨hbanned, hfactor⟩ := admitted_inserted (newcomer env profile) rfl rfl rfl
      exact ⟨hbanned, fun hdemands => absurd hdemands hfactor⟩

theorem admits_verifyChallenge_iff {shown : String → Prop} {signedXdr : Tx} :
    Admits services shown s (env, .verifyChallenge signedXdr) ↔
      KeepsRules services shown s (env, .verifyChallenge signedXdr) := by
  constructor
  · intro h account user hclient hfound
    obtain ⟨-, hget⟩ := Repository.findOne_some hfound
    have hrun : (StellarAuthService.verifyChallenge services.webAuth services.config
        signedXdr).run handle env s =
        (.ok (sign env (user .id) (user .email) (user .role)), s) := by
      rw [StellarAuthService.run_verifyChallenge hclient, StellarAuthService.run_findOrProvision,
        hfound]
    unfold Admits at h
    rw [serve_verifyChallenge] at h
    simp only [hrun] at h
    obtain ⟨hbanned, hfactor⟩ := h _ _ user rfl rfl hget
    exact ⟨hbanned, fun hdemands => hfactor hdemands⟩
  · intro h answer token row hanswer htoken hget
    rw [serve_verifyChallenge] at hanswer hget
    obtain ⟨token', hissued, rfl⟩ := ok_of_map hanswer
    obtain rfl := Option.some.inj htoken
    rcases hclient : StellarAuthService.clientAccount services.webAuth services.config env
      signedXdr with message | account
    · rw [StellarAuthService.run_verifyChallenge_error hclient] at hissued
      cases hissued
    · simp only [StellarAuthService.run_verifyChallenge hclient,
        StellarAuthService.run_findOrProvision] at hissued hget
      rcases hfound : s.users.findOne (Where.stellarPublicKey account).holds with _ | user
      · simp only [hfound] at hissued hget
        split at hissued
        · next hrun =>
          split at hrun
          · cases hrun
          · next hnew =>
            rw [if_neg hnew] at hget
            cases hrun
            cases hissued
            obtain rfl := Option.some.inj (Repository.get_save_self.symm.trans hget)
            obtain ⟨hbanned, hfactor⟩ := admitted_inserted
              (StellarAuthService.provisioned account) rfl rfl rfl
            exact ⟨hbanned, fun hdemands => absurd hdemands hfactor⟩
        · cases hissued
      · simp only [hfound] at hissued hget
        cases hissued
        obtain ⟨-, huser⟩ := Repository.findOne_some hfound
        obtain rfl := Option.some.inj (huser.symm.trans hget)
        obtain ⟨hbanned, hfactor⟩ := h account user hclient hfound
        exact ⟨hbanned, fun hdemands => absurd hdemands hfactor⟩

theorem admits_iff (services : Services Tx) (shown : String → Prop) (s : State)
    (i : Env × Call Tx) : Admits services shown s i ↔ KeepsRules services shown s i := by
  obtain ⟨env, call⟩ := i
  cases call with
  | login email password mfaToken ipAddress userAgent =>
    exact ⟨fun _ => trivial, fun _ => admits_login⟩
  | refresh rawRefreshToken => exact admits_refresh_iff
  | googleLogin profile => exact admits_googleLogin_iff
  | verifyChallenge signedXdr => exact admits_verifyChallenge_iff
  | change users =>
    refine ⟨fun _ => trivial, fun _ answer token row hanswer htoken _ => ?_⟩
    cases hanswer
    cases htoken

/-- In a run of calls, with any changes to the users in between, every token is issued by the
rules of `login`, exactly when every refresh, Google login and Stellar login that passes its
own checks is for a user whom the rules admit. -/
theorem admission_iff (services : Services Tx) (before : String → Prop) (s : State)
    (calls : List (Env × Call Tx)) :
    (∀ i earlier, i :: earlier <:+ calls →
      Admits services (shown services s before earlier) (after (exec services) s earlier) i) ↔
    Guarded (fun earlier i =>
      KeepsRules services (shown services s before earlier) (after (exec services) s earlier) i)
        calls := by
  rw [guarded_iff]
  exact forall_congr' fun i => forall_congr' fun earlier => forall_congr' fun _ =>
    admits_iff services _ _ i

/-! ## A user who is banned -/

def exampleToken : String := "5f1d5f1d5f1d5f1d5f1d5f1d5f1d5f1d5f1d5f1d5f1d5f1d5f1d5f1d5f1d5f1d"

def exampleServices : Services StellarAuthService.ChallengeTx where
  crypto := .sample exampleToken "ac36081c687d23267ef3b59ba3c0557a88b592cb909f440927ecf6697d4d6399"
  webAuth := StellarAuthService.exampleWebAuth
  config := StellarAuthService.exampleConfig

def exampleUser : User :=
  spread (User.default "u" 0)
    (((Patch.empty.set .email "u@example.com").set .passwordHash "password").set .isVerified true)

def exampleState : State where
  users := Repository.empty.save exampleUser
  refreshTokens := .empty
  resetTokens := .empty
  auditLogs := []

/-- The user logs in, is banned and refreshes the tokens. Newest call first. -/
def bannedInBetween : List (Env × Call StellarAuthService.ChallengeTx) :=
  let env (uuid random : String) : Env := ⟨0, uuid, fun _ => random⟩
  [ (env "t2" "next", .refresh exampleToken),
    (env "" "", .change (exampleState.users.save
      (spread exampleUser (Patch.empty.set .isBanned true)))),
    (env "t1" exampleToken, .login "u@example.com" "password" none none none) ]

/-- A new access token is issued, for a user who is banned. -/
theorem banned_user_refreshes :
    (serve exampleServices (after (exec exampleServices) exampleState bannedInBetween.tail)
        (⟨0, "t2", fun _ => "next"⟩, .refresh exampleToken)).1.toOption.bind Answer.token =
      some (sign ⟨0, "t2", fun _ => "next"⟩ "u" "u@example.com" "student") ∧
      ((after (exec exampleServices) exampleState bannedInBetween).users.get "u").map
        (fun user => user .isBanned) = some true ∧
      ¬ ∀ i earlier, i :: earlier <:+ bannedInBetween →
        Admits exampleServices (shown exampleServices exampleState (fun _ => False) earlier)
          (after (exec exampleServices) exampleState earlier) i := by
  have hissued : (serve exampleServices (after (exec exampleServices) exampleState
      bannedInBetween.tail) (⟨0, "t2", fun _ => "next"⟩, .refresh exampleToken)).1.toOption.bind
        Answer.token =
      some (sign ⟨0, "t2", fun _ => "next"⟩ "u" "u@example.com" "student") := by decide +kernel
  have hbanned : ((after (exec exampleServices) exampleState bannedInBetween).users.get "u").map
      (fun user => user .isBanned) = some true := by decide +kernel
  refine ⟨hissued, hbanned, fun h => ?_⟩
  obtain ⟨answer, hanswer, htoken⟩ := Option.bind_eq_some_iff.mp hissued
  obtain ⟨row, hget, hrow⟩ := Option.map_eq_some_iff.mp hbanned
  obtain ⟨hadmitted, -⟩ :=
    h _ _ (List.suffix_refl _) answer _ row (ok_of_toOption hanswer) htoken hget
  rw [hrow] at hadmitted
  cases hadmitted

end Scoopdope.Auth.Admission

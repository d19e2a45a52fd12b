import Scoopdope.Auth.Mfa
import Scoopdope.Auth.Tokens

/-!
# Authentication: the ways in

`AuthService` (`auth/auth.service.ts`): login with a password and, where the account asks for
it, a second factor; the reset of a password with a token that was sent by mail.

`OAuthService` (`auth/oauth.service.ts`): login with a Google profile, and the challenge by
which a user links a Stellar wallet. Challenges are not stored: what comes back is decoded.
-/

namespace Scoopdope.Auth.AuthService

open Async Database Server Users

variable (crypto : Crypto)

/-- What `login` answers: tokens, or that a second factor is needed. -/
inductive LoginAnswer
  | tokens (pair : TokenPair)
  | mfaRequired
deriving DecidableEq

/-- A login that fails is logged before the exception is thrown. -/
def refuse {A : Type} (userId : Option String) (metadata : List (String × String))
    (ipAddress userAgent : Option String) (x : HttpException) : Service authInterface A := do
  log .loginFailure userId false metadata ipAddress userAgent
  .fail x

def login (email password : String) (mfaToken ipAddress userAgent : Option String) :
    Service authInterface LoginAnswer := do
  let found ← findByEmail email
  match found.filter fun user => crypto.compare password (user .passwordHash) with
  | none =>
    refuse none [("email", email)] ipAddress userAgent (.unauthorized "Invalid credentials")
  | some user =>
    if user .isBanned then
      refuse (some (user .id)) [("reason", "banned")] ipAddress userAgent
        (.unauthorized "Account is banned")
    else if !user .isVerified then
      refuse (some (user .id)) [("reason", "unverified")] ipAddress userAgent
        (.forbidden "Please verify your email before logging in")
    else if user .role = "admin" ∧ !user .mfaEnabled then
      refuse (some (user .id)) [("reason", "mfa_required")] ipAddress userAgent
        (.forbidden "Admin accounts must enable 2FA before logging in")
    else if user .mfaEnabled then
      match truthy mfaToken with
      | none => pure .mfaRequired
      | some mfaToken =>
        if ← MfaService.verifyCode crypto (user .id) mfaToken then succeed user
        else
          refuse (some (user .id)) [("reason", "invalid_mfa")] ipAddress userAgent
            (.unauthorized "Invalid MFA token")
    else succeed user
where
  /-- The tokens are issued. -/
  succeed (user : User) : Service authInterface LoginAnswer := do
    let result ← TokenService.issueTokenPair crypto (user .id) (user .email) (user .role)
    log .loginSuccess (some (user .id)) true [] ipAddress userAgent
    pure (.tokens result)

def resetPassword (token newPassword : String) : Service authInterface Unit := do
  let hash := TokenService.hashToken crypto token
  let resetToken ← orThrow (.badRequest "Invalid or expired reset token")
    (← query (.findResetToken hash))
  let env ← Process.env
  if resetToken.expiresAt < env.now then .fail (.badRequest "Reset token has expired")
  else
    let passwordHash := crypto.hash (env.random 0) newPassword
    let _ ← update resetToken.userId (Patch.empty.set .passwordHash passwordHash)
    query (.saveResetToken { resetToken with used := true })
    log .passwordResetComplete (some resetToken.userId) true [] none none

end Scoopdope.Auth.AuthService

namespace Scoopdope.Auth.OAuthService

open Async Database Server Users

/-- The profile that Google has verified. -/
structure Profile where
  id : String
  email : String
  displayName : String
  picture : String
deriving DecidableEq

/-- What `JSON.parse` makes of a challenge: nothing to read a property of, or a value with
the date that `new Date(expiresAt)` is, unless it is invalid, and its `publicKey`, if that is
a string. -/
inductive ChallengeData
  | null
  | value (expiresAt : Option Int) (publicKey : Option String)
deriving DecidableEq

/-- Challenges as texts: base64 of JSON. -/
structure ChallengeCodec where
  /-- By nonce, public key and date of expiry. -/
  encode : String → String → Int → String
  /-- None where parsing throws. -/
  decode : String → Option ChallengeData

structure StellarChallenge where
  challenge : String
  nonce : String
  message : String
deriving DecidableEq

/-- `s.length`, in UTF-16 code units. -/
def length (s : String) : Nat := (s.toList.map fun c => if c.val ≤ 0xFFFF then 1 else 2).sum

/-- `date < new Date()`, which is false of an invalid date. -/
def expired (env : Env) (date : Option Int) : Bool :=
  match date with
  | some date => date < env.now
  | none => false

def googleLogin (crypto : Crypto) (profile : Profile) : Service authInterface TokenPair := do
  let found ← findByEmail profile.email
  match found with
  | some user => TokenService.issueTokenPair crypto (user .id) (user .email) (user .role)
  | none =>
    let env ← Process.env
    let user ← create (((((Patch.empty.set .email profile.email).set .passwordHash "").set
      .isVerified true).set .referralCode (some (env.random 0))).set .avatar
        (some profile.picture))
    TokenService.issueTokenPair crypto (user .id) (user .email) (user .role)

variable (codec : ChallengeCodec)

def generateStellarChallenge (publicKey : String) : Service authInterface StellarChallenge := do
  let env ← Process.env
  let nonce := env.random 0
  let expiresAt := env.now + 5 * 60 * 1000
  pure
    { challenge := codec.encode nonce publicKey expiresAt
      nonce
      message := "Sign this message to verify ownership of " ++ publicKey ++ ": " ++ nonce }

/-- Answers with the key that is linked. -/
def verifyStellarSignature (userId publicKey signature challenge : String) :
    Service authInterface String := do
  let env ← Process.env
  match codec.decode challenge with
  | none => .fail (.badRequest "Invalid challenge or signature")
  | some .null => .fail (.internal "Cannot read properties of null")
  | some (.value expiresAt key) =>
    if expired env expiresAt then .fail (.badRequest "Challenge has expired")
    else if key ≠ some publicKey then .fail (.badRequest "Public key mismatch")
    else if length signature < 10 then .fail (.badRequest "Invalid signature")
    else
      let _ ← update userId (Patch.empty.set .stellarPublicKey (some publicKey))
      pure publicKey

end Scoopdope.Auth.OAuthService

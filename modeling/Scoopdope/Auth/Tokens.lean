import Scoopdope.Auth.Database
import Scoopdope.Server.Http

/-!
# Authentication: tokens

`TokenService` (`auth/token.service.ts`): access tokens, which are signed and not stored, and
refresh tokens, of which the hashes are stored. A refresh token is revoked when it is used.
-/

namespace Scoopdope.Auth

open Async Database Server Users

/-- What an access token says. -/
structure AccessToken where
  sub : String
  email : String
  role : String
  /-- In seconds. -/
  exp : Int
deriving DecidableEq

structure TokenPair where
  accessToken : AccessToken
  refreshToken : String
deriving DecidableEq

/-- `jwtService.sign({ sub, email, role }, { expiresIn: '15m' })`. -/
def sign (env : Env) (sub email role : String) : AccessToken :=
  { sub, email, role, exp := env.now / 1000 + 15 * 60 }

namespace TokenService

variable (crypto : Crypto)

def hashToken (token : String) : String := crypto.sha256 token

structure OpaqueToken where
  token : String
  hash : String
  expiresAt : Int

def generateOpaqueToken (env : Env) (ttlHours : Int) : OpaqueToken :=
  { token := env.random 0
    hash := hashToken crypto (env.random 0)
    expiresAt := env.now + ttlHours * 60 * 60 * 1000 }

def issueTokenPair (userId email role : String) : Service authInterface TokenPair := do
  let env ← Process.env
  let refresh := generateOpaqueToken crypto env (24 * 7)
  let _ ← orThrow duplicateKey
    (← query (.insertRefreshToken refresh.hash userId refresh.expiresAt))
  pure { accessToken := sign env userId email role, refreshToken := refresh.token }

def refresh (rawRefreshToken : String) : Service authInterface TokenPair := do
  let hash := hashToken crypto rawRefreshToken
  let stored ← orThrow (.unauthorized "Invalid or revoked refresh token")
    (← query (.findRefreshToken hash))
  let env ← Process.env
  if stored.expiresAt < env.now then .fail (.unauthorized "Refresh token has expired")
  else
    query (.saveRefreshToken { stored with revoked := true })
    let user ← orThrow (.unauthorized "User not found") (← findById stored.userId)
    issueTokenPair crypto (user .id) (user .email) (user .role)

def revokeRefreshToken (rawRefreshToken : String) (userId : Option String) :
    Service authInterface Unit := do
  let hash := hashToken crypto rawRefreshToken
  match ← query (.findRefreshToken hash) with
  | some stored =>
    query (.saveRefreshToken { stored with revoked := true })
    log .logout (userId.or (some stored.userId)) true [] none none
  | none => log .logout userId true [] none none

/-! ## Running alone -/

section Run

variable {crypto} {env : Env} {s : State}

/-- The row of the refresh token that is issued. -/
def issuedRow (crypto : Crypto) (env : Env) (userId : String) : RefreshToken :=
  issued env (generateOpaqueToken crypto env (24 * 7)).hash userId
    (generateOpaqueToken crypto env (24 * 7)).expiresAt

theorem run_issueTokenPair (userId email role : String) :
    (issueTokenPair crypto userId email role).run handle env s =
      if (s.refreshTokens.get env.uuid).isSome then (.error duplicateKey, s)
      else
        (.ok { accessToken := sign env userId email role, refreshToken := env.random 0 },
          { s with refreshTokens := s.refreshTokens.save (issuedRow crypto env userId) }) := by
  have hissue : (issueTokenPair crypto userId email role).run handle env s =
      Process.run (I := authInterface) handle env
        (if (s.refreshTokens.get env.uuid).isSome then ((none : Option RefreshToken), s)
          else (some (issuedRow crypto env userId),
            { s with refreshTokens := s.refreshTokens.save (issuedRow crypto env userId) })).2
        (orThrow duplicateKey (if (s.refreshTokens.get env.uuid).isSome then
            ((none : Option RefreshToken), s)
          else (some (issuedRow crypto env userId),
            { s with refreshTokens :=
              s.refreshTokens.save (issuedRow crypto env userId) })).1 >>= fun _ =>
          .ret { accessToken := sign env userId email role, refreshToken := env.random 0 }) := rfl
  rw [hissue]
  split <;> rfl

/-- `refresh`, by the row it finds. -/
theorem run_refresh (rawRefreshToken : String) :
    (refresh crypto rawRefreshToken).run handle env s =
      match s.refreshTokens.findOne fun token =>
        token.tokenHash = hashToken crypto rawRefreshToken ∧ token.revoked = false with
      | none => (.error (.unauthorized "Invalid or revoked refresh token"), s)
      | some stored =>
        if stored.expiresAt < env.now then
          (.error (.unauthorized "Refresh token has expired"), s)
        else
          let s' := { s with refreshTokens :=
            s.refreshTokens.save { stored with revoked := true } }
          match s.users.get stored.userId with
          | none => (.error (.unauthorized "User not found"), s')
          | some user =>
            (issueTokenPair crypto (user .id) (user .email) (user .role)).run handle env s' := by
  unfold refresh
  rw [run_query]
  simp only [handle, lift_users]
  cases s.refreshTokens.findOne fun token =>
      token.tokenHash = hashToken crypto rawRefreshToken ∧ token.revoked = false with
  | none => rfl
  | some stored =>
    simp only [orThrow_some, Process.ret_bind, Process.env_bind, Process.run_ask]
    split
    · rfl
    · rw [run_query, Process.run_bind, run_findById]
      simp only [handle]
      cases s.users.get stored.userId <;> rfl

end Run

end TokenService

end Scoopdope.Auth

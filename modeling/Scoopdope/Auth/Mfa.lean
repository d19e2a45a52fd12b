import Scoopdope.Auth.Database
import Scoopdope.Server.Http

/-!
# Authentication: the second factor

`MfaService` (`auth/mfa.service.ts`): a TOTP secret, stored encrypted, and backup codes, of
which the hashes are stored. A backup code is removed when it is used.
-/

namespace Scoopdope.Auth

open Async Database Server Users

/-- `generateBackupCodes()`, from the random strings. -/
def generateBackupCodes (random : Nat → String) : List String :=
  (List.range 8).map fun i => (random i).toUpper

/-- A backup code has the characters of a random string, in upper case. -/
theorem length_of_mem_generateBackupCodes {random : Nat → String} {n : Nat}
    (h : ∀ i, (random i).length = n) {code : String} (hcode : code ∈ generateBackupCodes random) :
    code.length = n := by
  obtain ⟨i, -, rfl⟩ := List.mem_map.mp hcode
  rw [String.toUpper, String.length_map, h]

namespace MfaService

variable (crypto : Crypto)

/-- `!user?.mfaSecret` is none of it. -/
def mfaSecret (user : Option User) : Option String := user.bind fun user => truthy (user .mfaSecret)

def hashes (codes : List String) : List String := codes.map crypto.sha256

/-- `verifySync({ token: code, secret: decrypt(mfaSecret) })?.valid`. -/
def totpValid (env : Env) (mfaSecret code : String) : Except HttpException Bool := do
  let secret ← EncryptionService.decrypt crypto mfaSecret
  match crypto.verifySync env.now code secret with
  | some valid => .ok valid
  | none => .error (.internal "otplib")

/-- A code that the check of the second factor has an answer to. -/
def Answered (code : String) : Prop := ∃ now secret, crypto.verifySync now code secret ≠ none

variable {crypto} in
theorem answered_of_totpValid {env : Env} {mfaSecret code : String} {valid : Bool}
    (h : totpValid crypto env mfaSecret code = .ok valid) : Answered crypto code := by
  unfold totpValid at h
  cases hdecrypt : EncryptionService.decrypt crypto mfaSecret with
  | error x =>
    rw [hdecrypt] at h
    cases h
  | ok secret =>
    refine ⟨env.now, secret, fun hnone => ?_⟩
    simp only [hdecrypt, bind, Except.bind, hnone] at h
    cases h

/-- The secret and the data URL of its QR code. -/
def generateSecret (userId : String) : Service authInterface (String × String) := do
  let user ← orThrow (.notFound "User not found") (← findById userId)
  let env ← Process.env
  let secret := env.random 0
  let otpauthUrl := crypto.generateURI (user .email) "scoopdope" secret
  let mfaSecret := EncryptionService.encrypt crypto (env.random 1) secret
  let _ ← update userId
    ((Patch.empty.set .mfaSecret (some mfaSecret)).set .mfaEnabled false)
  pure (secret, crypto.toDataURL otpauthUrl)

/-- The new backup codes. -/
def verifyAndEnable (userId code : String) : Service authInterface (List String) := do
  let user ← findById userId
  let secret ← orThrow (.badRequest "MFA setup not initiated") (mfaSecret user)
  let env ← Process.env
  if ← totpValid crypto env secret code then
    let backupCodes := generateBackupCodes env.random
    let _ ← update userId ((Patch.empty.set .mfaEnabled true).set .mfaBackupCodes
      (some (hashes crypto backupCodes)))
    log .mfaEnabled (some userId) true [] none none
    pure backupCodes
  else .fail (.badRequest "Invalid MFA code")

/-- `!user?.mfaEnabled || !user.mfaSecret` is none of it. -/
def enabledSecret (user : Option User) : Option String :=
  match user with
  | some user => if user .mfaEnabled then truthy (user .mfaSecret) else none
  | none => none

def disable (userId code : String) : Service authInterface Unit := do
  let user ← findById userId
  let secret ← orThrow (.badRequest "MFA is not enabled") (enabledSecret user)
  let env ← Process.env
  if ← totpValid crypto env secret code then
    let _ ← update userId (((Patch.empty.set .mfaEnabled false).set .mfaSecret none).set
      .mfaBackupCodes (some []))
    log .mfaDisabled (some userId) true [] none none
  else .fail (.badRequest "Invalid MFA code")

/-- The new backup codes. -/
def regenerateBackupCodes (userId totpCode : String) : Service authInterface (List String) := do
  let user ← findById userId
  let secret ← orThrow (.badRequest "MFA is not enabled") (enabledSecret user)
  let env ← Process.env
  if ← totpValid crypto env secret totpCode then
    let backupCodes := generateBackupCodes env.random
    let _ ← update userId (Patch.empty.set .mfaBackupCodes (some (hashes crypto backupCodes)))
    pure backupCodes
  else .fail (.badRequest "Invalid MFA code")

/-- The stored hashes, none being as good as an empty list. -/
def backupCodes (user : User) : List String := (user .mfaBackupCodes).getD []

def useBackupCode (userId code : String) : Service authInterface Bool := do
  let user ← findById userId
  let codes := (user.map backupCodes).getD []
  let hash := crypto.sha256 code
  if hash ∈ codes then
    let _ ← update userId (Patch.empty.set .mfaBackupCodes (some (codes.erase hash)))
    pure true
  else pure false

def verifyCode (userId code : String) : Service authInterface Bool := do
  let user ← findById userId
  match mfaSecret user with
  | none => pure false
  | some secret =>
    let env ← Process.env
    if ← totpValid crypto env secret code then pure true
    else useBackupCode crypto userId code

/-! ## Running alone -/

variable {crypto} {env : Env} {s : State}

/-- `verifyCode`, by the secret of the user. -/
theorem run_verifyCode (userId code : String) :
    (verifyCode crypto userId code).run handle env s =
      match mfaSecret (s.users.get userId) with
      | none => (.ok false, s)
      | some secret =>
        match totpValid crypto env secret code with
        | .error x => (.error x, s)
        | .ok true => (.ok true, s)
        | .ok false => (useBackupCode crypto userId code).run handle env s := by
  unfold verifyCode
  simp only [lift_users]
  rw [Process.run_bind, run_findById]
  simp only
  cases mfaSecret (s.users.get userId) with
  | none => rfl
  | some secret =>
    simp only [Process.env_bind, Process.run_ask, Process.lift_except]
    rw [Process.run_bind, Process.run_ofExcept]
    rcases totpValid crypto env secret code with x | valid
    · rfl
    · cases valid <;> rfl

/-- `useBackupCode`, by the list of the user. -/
theorem run_useBackupCode (userId code : String) :
    (useBackupCode crypto userId code).run handle env s =
      match s.users.get userId with
      | none => (.ok false, s)
      | some user =>
        if crypto.sha256 code ∈ backupCodes user then
          let data := Patch.empty.set .mfaBackupCodes
            (some ((backupCodes user).erase (crypto.sha256 code)))
          if conflicts s.users (spread user data) then (.error duplicateKey, s)
          else (.ok true, { s with users := s.users.save (spread user data) })
        else (.ok false, s) := by
  unfold useBackupCode
  simp only [lift_users]
  rw [Process.run_bind, run_findById]
  cases hget : s.users.get userId with
  | none => rfl
  | some user =>
    simp only [Option.map_some, Option.getD_some]
    split
    · rw [Process.run_bind, run_update_of_get hget]
      cases conflicts s.users (spread user (Patch.empty.set .mfaBackupCodes
        (some ((backupCodes user).erase (crypto.sha256 code))))) <;> rfl
    · rfl

end MfaService

end Scoopdope.Auth

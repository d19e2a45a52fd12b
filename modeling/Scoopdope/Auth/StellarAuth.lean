import Scoopdope.Auth.Tokens

/-!
# Authentication: login with a Stellar wallet

`StellarAuthService` (`auth/stellar-auth.service.ts`): SEP-10. The server builds a challenge
transaction and signs it; the wallet signs it too and sends it back. `readChallengeTx` of the
library is called on what comes back; it verifies the structure of the challenge and the
signature of the server.

A token should be issued for an account only if the account has signed.
`issued_to_signer_iff`: it is for a transaction exactly when the library rejects the
transaction, or no user can be found or made for the account, or the account has signed.
`challenge_logs_in`: a challenge that is sent back as it was issued is a login.
-/

namespace Scoopdope.Auth.StellarAuthService

open Async Database Server Users

structure Keypair where
  secretKey : String
  publicKey : String

/-- `WebAuth` of the library, with transactions `Tx`. -/
structure WebAuth (Tx : Type) where
  /-- By server keypair, client account, home domain, timeout, network passphrase and web
  auth domain. -/
  buildChallengeTx : Env → Keypair → String → String → Int → String → String → Tx
  /-- The client account of a challenge, by server account, network passphrase, home domain
  and web auth domain, or the message of the exception. -/
  readChallengeTx : Env → Tx → String → String → String → String → Except String String

structure Config where
  serverKeypair : Keypair
  networkPassphrase : String
  webAuthDomain : String

def challengeTtlSeconds : Int := 300

variable {Tx : Type} (webAuth : WebAuth Tx) (config : Config)

/-- The transaction and the network passphrase. -/
def buildChallenge (clientPublicKey : String) : Service authInterface (Tx × String) := do
  let env ← Process.env
  let transaction := webAuth.buildChallengeTx env config.serverKeypair clientPublicKey
    config.webAuthDomain challengeTtlSeconds config.networkPassphrase config.webAuthDomain
  pure (transaction, config.networkPassphrase)

/-- `readChallengeTx` with the arguments of the service. -/
def clientAccount (env : Env) (signedXdr : Tx) : Except String String :=
  webAuth.readChallengeTx env signedXdr config.serverKeypair.publicKey config.networkPassphrase
    config.webAuthDomain config.webAuthDomain

/-- What is stored for an account that has no user. -/
def provisioned (clientPublicKey : String) : UserData :=
  (((Patch.empty.set .stellarPublicKey (some clientPublicKey)).set .email
    (clientPublicKey ++ "@stellar.local")).set .passwordHash "").set .isVerified true

def findOrProvision (clientPublicKey : String) : Service authInterface User := do
  let found ← findByStellarPublicKey clientPublicKey
  match found with
  | some user => pure user
  | none => create (provisioned clientPublicKey)

def verifyChallenge (signedXdr : Tx) : Service authInterface AccessToken := do
  let env ← Process.env
  match clientAccount webAuth config env signedXdr with
  | .error message => .fail (.unauthorized ("Invalid SEP-0010 challenge: " ++ message))
  | .ok clientPublicKey =>
    let user ← findOrProvision clientPublicKey
    let env ← Process.env
    pure (sign env (user .id) (user .email) (user .role))

/-! ## Who gets a token -/

/-- The token is for the user of this account. -/
def TokenFor (s : State) (token : AccessToken) (account : String) : Prop :=
  ∃ row, s.users.get token.sub = some row ∧ row .stellarPublicKey = some account

/-- If a token is issued for an account, the account has signed the transaction. -/
def IssuedToSigner (signedBy : Tx → String → Prop) (env : Env) (s : State) (signedXdr : Tx) :
    Prop :=
  ∀ token s' account,
    (verifyChallenge webAuth config signedXdr).run handle env s = (.ok token, s') →
    TokenFor s' token account → signedBy signedXdr account

/-- A user is found for the account, or one can be made. -/
def HasUser (env : Env) (s : State) (account : String) : Prop :=
  (s.users.findOne (Where.stellarPublicKey account).holds).isSome = true ∨
    s.users.get env.uuid = none ∧
      conflicts s.users (inserted env (provisioned account)) = false

variable {webAuth config} {env : Env} {s s' : State} {account : String}

theorem run_findOrProvision (env : Env) (s : State) (account : String) :
    (findOrProvision account).run handle env s =
      match s.users.findOne (Where.stellarPublicKey account).holds with
      | some user => (.ok user, s)
      | none =>
        if (s.users.get env.uuid).isSome || conflicts s.users (inserted env (provisioned account))
        then (.error duplicateKey, s)
        else (.ok (inserted env (provisioned account)),
          { s with users := s.users.save (inserted env (provisioned account)) }) := by
  have hfind : (findOrProvision account).run handle env s =
      Process.run handle env s (
        match s.users.findOne (Where.stellarPublicKey account).holds with
        | some user => pure user
        | none => (create (provisioned account)).lift ofUsers) := rfl
  rw [hfind]
  cases s.users.findOne (Where.stellarPublicKey account).holds with
  | some user => rfl
  | none =>
    simp only [run_users]
    rw [run_create]
    have hid : inserted env (provisioned account) .id = env.uuid := rfl
    rw [hid]
    split <;> rfl

/-- The user that is found or made is the user of the account. -/
theorem user_of_account {user : User}
    (h : (findOrProvision account).run handle env s = (.ok user, s')) :
    s'.users.get (user .id) = some user ∧ user .stellarPublicKey = some account ∧
      HasUser env s account := by
  rw [run_findOrProvision] at h
  split at h
  · next found hfound =>
    cases h
    obtain ⟨hholds, hget⟩ := Repository.findOne_some hfound
    exact ⟨hget, by simpa [Where.holds] using hholds, .inl (Option.isSome_of_eq_some hfound)⟩
  · split at h
    · cases h
    · next hnew =>
      cases h
      simp only [Bool.or_eq_true, not_or, Bool.not_eq_true] at hnew
      have hid := Option.not_isSome_iff_eq_none.mp (Bool.not_eq_true _ ▸ hnew.1)
      exact ⟨Repository.get_save_self, rfl, .inr ⟨hid, hnew.2⟩⟩

theorem exists_user (h : HasUser env s account) :
    ∃ user s', (findOrProvision account).run handle env s = (.ok user, s') := by
  rw [run_findOrProvision]
  cases hfound : s.users.findOne (Where.stellarPublicKey account).holds with
  | some user => exact ⟨user, s, rfl⟩
  | none =>
    rcases h with hsome | ⟨hid, hfree⟩
    · rw [hfound] at hsome
      cases hsome
    · simp only [hid, hfree, Option.isSome_none, Bool.or_self]
      exact ⟨_, _, rfl⟩

theorem run_verifyChallenge {signedXdr : Tx}
    (h : clientAccount webAuth config env signedXdr = .ok account) :
    (verifyChallenge webAuth config signedXdr).run handle env s =
      match (findOrProvision account).run handle env s with
      | (.ok user, s') => (.ok (sign env (user .id) (user .email) (user .role)), s')
      | (.error x, s') => (.error x, s') := by
  unfold verifyChallenge
  rw [Process.env_bind, Process.run_ask, h]
  simp only
  rw [Process.run_bind]
  generalize (findOrProvision account).run handle env s = result
  rcases result with ⟨_ | _, _⟩ <;> rfl

theorem run_verifyChallenge_error {signedXdr : Tx} {message : String}
    (h : clientAccount webAuth config env signedXdr = .error message) :
    (verifyChallenge webAuth config signedXdr).run handle env s =
      (.error (.unauthorized ("Invalid SEP-0010 challenge: " ++ message)), s) := by
  unfold verifyChallenge
  rw [Process.env_bind, Process.run_ask, h]
  rfl

/-- A token is issued for an account exactly when the library reads the account from the
transaction and it has a user. -/
theorem issued_iff {signedXdr : Tx} :
    (∃ token s', (verifyChallenge webAuth config signedXdr).run handle env s = (.ok token, s') ∧
      TokenFor s' token account) ↔
      clientAccount webAuth config env signedXdr = .ok account ∧ HasUser env s account := by
  constructor
  · rintro ⟨token, s', hrun, row, hget, hkey⟩
    cases hclient : clientAccount webAuth config env signedXdr with
    | error message =>
      rw [run_verifyChallenge_error hclient] at hrun
      cases hrun
    | ok client =>
      rw [run_verifyChallenge hclient] at hrun
      rcases hfound : (findOrProvision client).run handle env s with ⟨x | user, s''⟩
      · rw [hfound] at hrun
        cases hrun
      · rw [hfound] at hrun
        cases hrun
        obtain ⟨huser, hclientKey, hhas⟩ := user_of_account hfound
        cases huser.symm.trans hget
        cases hclientKey.symm.trans hkey
        exact ⟨rfl, hhas⟩
  · rintro ⟨hclient, hhas⟩
    obtain ⟨user, s', hfound⟩ := exists_user hhas
    obtain ⟨huser, hkey, -⟩ := user_of_account hfound
    refine ⟨sign env (user .id) (user .email) (user .role), s', ?_, user, huser, hkey⟩
    rw [run_verifyChallenge hclient, hfound]

/-- Only an account that has signed the transaction gets a token for it, exactly when the
library rejects the transaction, or the account it names has no user, or has signed. -/
theorem issued_to_signer_iff (webAuth : WebAuth Tx) (config : Config)
    (signedBy : Tx → String → Prop) (env : Env) (s : State) (signedXdr : Tx) :
    IssuedToSigner webAuth config signedBy env s signedXdr ↔
      ∀ account, clientAccount webAuth config env signedXdr = .ok account →
        HasUser env s account → signedBy signedXdr account := by
  constructor
  · intro h account hclient hhas
    obtain ⟨token, s', hrun, hfor⟩ := issued_iff.mpr ⟨hclient, hhas⟩
    exact h token s' account hrun hfor
  · intro h token s' account hrun hfor
    obtain ⟨hclient, hhas⟩ := issued_iff.mp ⟨token, s', hrun, hfor⟩
    exact h account hclient hhas

/-- Where the library reads the challenge that it has built, the challenge sent back as it
was issued is a login for the account, whoever sends it. -/
theorem challenge_logs_in {issued : Tx × String} {env' : Env}
    (hissued : (buildChallenge webAuth config account).run handle env s = (.ok issued, s))
    (hread : clientAccount webAuth config env' (webAuth.buildChallengeTx env
      config.serverKeypair account config.webAuthDomain challengeTtlSeconds
      config.networkPassphrase config.webAuthDomain) = .ok account)
    (hhas : HasUser env' s account) :
    ∃ token s', (verifyChallenge webAuth config issued.1).run handle env' s = (.ok token, s') ∧
      TokenFor s' token account := by
  cases hissued
  exact issued_iff.mpr ⟨hread, hhas⟩

/-! ## A login without a signature -/

section Example

/-- A challenge transaction: the account it is for, until when, and who has signed it. -/
structure ChallengeTx where
  clientAccountID : String
  maxTime : Int
  signers : List String

/-- The library: a challenge is read if it is signed by the server and not expired. -/
def exampleWebAuth : WebAuth ChallengeTx where
  buildChallengeTx := fun env server client _ timeout _ _ =>
    { clientAccountID := client
      maxTime := env.now / 1000 + timeout
      signers := [server.publicKey] }
  readChallengeTx := fun env challengeTx server _ _ _ =>
    if server ∉ challengeTx.signers then .error "the transaction is not signed by the server"
    else if challengeTx.maxTime < env.now / 1000 then .error "the transaction has expired"
    else .ok challengeTx.clientAccountID

def exampleConfig : Config where
  serverKeypair := { secretKey := "S", publicKey := "SERVER" }
  networkPassphrase := "Test SDF Network ; September 2015"
  webAuthDomain := "localhost"

def exampleEnv : Env := ⟨0, "u1", fun _ => ""⟩

/-- A user with a linked wallet. -/
def exampleState : State where
  users := Repository.empty.save
    (spread (User.default "u" 0) (Patch.empty.set .stellarPublicKey (some "CLIENT")))
  refreshTokens := .empty
  resetTokens := .empty
  auditLogs := []

/-- The challenge for the wallet, as the server issues it. -/
def issuedChallenge : ChallengeTx :=
  exampleWebAuth.buildChallengeTx exampleEnv exampleConfig.serverKeypair "CLIENT" "localhost"
    challengeTtlSeconds exampleConfig.networkPassphrase "localhost"

/-- The wallet has not signed it, and it is a login for the user of the wallet. -/
theorem unsigned_challenge_logs_in :
    "CLIENT" ∉ issuedChallenge.signers ∧
      ((verifyChallenge exampleWebAuth exampleConfig issuedChallenge).run handle exampleEnv
        exampleState).1 = .ok (sign exampleEnv "u" "" "student") ∧
      ¬ IssuedToSigner exampleWebAuth exampleConfig (fun tx account => account ∈ tx.signers)
        exampleEnv exampleState issuedChallenge := by
  have hrun : ((verifyChallenge exampleWebAuth exampleConfig issuedChallenge).run handle
      exampleEnv exampleState).1 = .ok (sign exampleEnv "u" "" "student") := by rfl
  refine ⟨by decide, hrun, fun h => ?_⟩
  have hsigned := h (sign exampleEnv "u" "" "student") _ "CLIENT" (Prod.ext hrun rfl)
    ⟨_, rfl, rfl⟩
  exact absurd hsigned (by decide)

end Example

end Scoopdope.Auth.StellarAuthService

import Scoopdope.Async.Pool
import Scoopdope.Auth.Mfa

/-!
# Authentication: who may change the second factor

Once a user has a second factor, `disable`, `verifyAndEnable` and `regenerateBackupCodes`
change it only for a TOTP that is valid for the stored secret, and `verifyCode` takes out the
backup code it was given. `generateSecret` asks for nothing: it replaces the secret and
switches the second factor off.

`factor_kept_iff`: every call of a run leaves the second factor to its holder, exactly when
no `generateSecret` of the run finds it switched on. `factor_switched_off` is the run that
sets it up, enables it and sets it up again.
-/

namespace Scoopdope.Auth.MfaGuard

open Async Database MfaService Server Soroban Users

/-- The calls of `MfaService`. -/
inductive Call
  | generateSecret
  | verifyAndEnable (code : String)
  | regenerateBackupCodes (totpCode : String)
  | verifyCode (code : String)
  | disable (code : String)

inductive Answer
  | secret (secret qrCodeDataUrl : String)
  | backupCodes (codes : List String)
  | valid (b : Bool)
  | disabled

variable (crypto : Crypto) (userId : String)

def Call.start : Call → Service authInterface Answer
  | generateSecret => do
    let (secret, qrCodeDataUrl) ← MfaService.generateSecret crypto userId
    pure (.secret secret qrCodeDataUrl)
  | verifyAndEnable code => do
    pure (.backupCodes (← MfaService.verifyAndEnable crypto userId code))
  | regenerateBackupCodes totpCode => do
    pure (.backupCodes (← MfaService.regenerateBackupCodes crypto userId totpCode))
  | verifyCode code => do
    pure (.valid (← MfaService.verifyCode crypto userId code))
  | disable code => do
    MfaService.disable crypto userId code
    pure .disabled

/-- The code that a call is given. -/
def Call.code : Call → Option String
  | generateSecret => none
  | verifyAndEnable code => some code
  | regenerateBackupCodes totpCode => some totpCode
  | verifyCode code => some code
  | disable code => some code

/-- Calls on behalf of one user, one at a time. -/
def system : System authInterface Env HttpException Answer State Call where
  start := Call.start crypto userId
  handle := handle

/-! ## What a call may change -/

/-- The code is a TOTP that is valid for the secret of the row. -/
def ValidTotp (env : Env) (row : User) (code : String) : Prop :=
  ∃ secret, row .mfaSecret = some secret ∧ totpValid crypto env secret code = .ok true

/-- A call leaves the second factor of a row as it is, or was given a TOTP that is valid for
the secret, or takes out the backup code it was given. -/
inductive Authorised (env : Env) (call : Call) (row row' : User) : Prop
  | unchanged (enabled : row' .mfaEnabled = row .mfaEnabled)
      (secret : row' .mfaSecret = row .mfaSecret)
      (codes : row' .mfaBackupCodes = row .mfaBackupCodes)
  | totp (code : String) (given : call.code = some code) (valid : ValidTotp crypto env row code)
  | backupCode (code : String) (given : call.code = some code)
      (stored : crypto.sha256 code ∈ backupCodes row)
      (enabled : row' .mfaEnabled = row .mfaEnabled)
      (secret : row' .mfaSecret = row .mfaSecret)
      (codes : row' .mfaBackupCodes = some ((backupCodes row).erase (crypto.sha256 code)))

/-- If the user has a second factor, the call does to it what it is authorised to do. -/
def KeepsFactor (s : State) (i : Env × Call) : Prop :=
  ∀ row, s.users.get userId = some row → row .mfaEnabled = true →
    ∃ row', (apply (system crypto userId).serve s i).users.get userId = some row' ∧
      Authorised crypto i.1 i.2 row row'

/-- The call is a `generateSecret` that finds the second factor switched on, and may write
the row. -/
def SetsUpAgain (s : State) (i : Env × Call) : Prop :=
  i.2 = .generateSecret ∧ ∃ row, s.users.get userId = some row ∧ row .mfaEnabled = true ∧
    conflicts s.users row = false

/-! ## What a call does -/

/-- Why a call may come to write some columns of a row. -/
inductive Writes (env : Env) (call : Call) (row : User) (data : UserData) : Prop
  | setUp (event : call = .generateSecret) (secret : String)
      (data : data = (Patch.empty.set .mfaSecret (some secret)).set .mfaEnabled false)
  | totp (code : String) (given : call.code = some code) (valid : ValidTotp crypto env row code)
      (id : data .id = none)
  | backupCode (code : String) (given : call.code = some code)
      (stored : crypto.sha256 code ∈ backupCodes row)
      (data : data = Patch.empty.set .mfaBackupCodes
        (some ((backupCodes row).erase (crypto.sha256 code))))

/-- A call leaves the users as they are, or writes the row of its user. -/
inductive Effect (env : Env) (call : Call) (s s' : State) : Prop
  | nothing (users : s'.users = s.users)
  | writes (row : User) (data : UserData) (get : s.users.get userId = some row)
      (free : conflicts s.users (spread row data) = false)
      (users : s'.users = s.users.save (spread row data))
      (why : Writes crypto env call row data)

variable {crypto userId} {env : Env} {call : Call} {s : State}

/-- The `update` of a call, and what comes after it. -/
theorem effect_update {A : Type} {row : User} {data : UserData}
    {rest : User → Service authInterface A} (hget : s.users.get userId = some row)
    (hwhy : Writes crypto env call row data)
    (hrest : ∀ user s, ((rest user).run handle env s).2.users = s.users) :
    Effect crypto userId env call s
      (((update userId data).lift ofUsers >>= rest : Service authInterface A).run handle env
        s).2 := by
  rw [Process.run_bind, run_update_of_get hget]
  cases hfree : conflicts s.users (spread row data) with
  | true =>
    refine .nothing ?_
    simp only [if_true]
  | false =>
    refine .writes row data hget hfree ?_ hwhy
    simp only [Bool.false_eq_true, if_false]
    exact hrest _ _

theorem effect_generateSecret :
    Effect crypto userId env .generateSecret s
      ((Call.generateSecret.start crypto userId).run handle env s).2 := by
  simp only [Call.start, MfaService.generateSecret, Process.bind_assoc, lift_users]
  rw [Process.run_bind, run_findById]
  cases hget : s.users.get userId with
  | none => exact .nothing rfl
  | some user =>
    simp only [orThrow_some, Process.ret_bind, Process.env_bind, Process.run_ask]
    exact effect_update hget (.setUp rfl _ rfl) fun _ _ => rfl

/-- A call that asks for a valid TOTP, with what it does then. -/
theorem effect_totp {A B : Type} {secret code : String} {row : User} {data : UserData}
    {rest : User → Service authInterface A} {last : A → Service authInterface B}
    {x : HttpException} (hget : s.users.get userId = some row) (hcode : call.code = some code)
    (hsecret : row .mfaSecret = some secret) (hid : data .id = none)
    (hrest : ∀ user s, ((rest user >>= last).run handle env s).2.users = s.users) :
    Effect crypto userId env call s
      ((do
        let valid ← Process.ofExcept (totpValid crypto env secret code)
        (if valid then (update userId data).lift ofUsers >>= rest else .fail x :
          Service authInterface A) >>= last : Service authInterface B).run handle env s).2 := by
  rw [Process.run_bind, Process.run_ofExcept]
  cases hvalid : totpValid crypto env secret code with
  | error y => exact .nothing rfl
  | ok valid =>
    cases valid with
    | false => exact .nothing rfl
    | true =>
      simp only [if_true, Process.bind_assoc]
      exact effect_update hget (.totp code hcode ⟨secret, hsecret, hvalid⟩ hid) hrest

theorem mfaSecret_of_some {row : User} {secret : String}
    (h : mfaSecret (some row) = some secret) : row .mfaSecret = some secret :=
  (truthy_eq_some.mp h).1

theorem enabledSecret_of_some {row : User} {secret : String}
    (h : enabledSecret (some row) = some secret) : row .mfaSecret = some secret := by
  unfold enabledSecret at h
  simp only at h
  split at h
  · exact (truthy_eq_some.mp h).1
  · cases h

/-- A call that looks up the user and goes on with a secret of his. -/
theorem effect_secret {A : Type} {x : HttpException} {secretOf : Option User → Option String}
    {rest : String → Service authInterface A} (hnone : secretOf none = none)
    (hsecretOf : ∀ {row secret}, secretOf (some row) = some secret →
      row .mfaSecret = some secret)
    (hrest : ∀ row secret, s.users.get userId = some row → row .mfaSecret = some secret →
      Effect crypto userId env call s ((rest secret).run handle env s).2) :
    Effect crypto userId env call s
      (((findById userId).lift ofUsers >>= fun user => orThrow x (secretOf user) >>= rest :
        Service authInterface A).run handle env s).2 := by
  rw [Process.run_bind, run_findById]
  cases hget : s.users.get userId with
  | none =>
    simp only [hnone]
    exact .nothing rfl
  | some user =>
    simp only
    cases hsecret : secretOf (some user) with
    | none => exact .nothing rfl
    | some secret =>
      simp only [orThrow_some, Process.ret_bind]
      exact hrest user secret hget (hsecretOf hsecret)

theorem effect_verifyAndEnable (code : String) :
    Effect crypto userId env (.verifyAndEnable code) s
      (((Call.verifyAndEnable code).start crypto userId).run handle env s).2 := by
  simp only [Call.start, MfaService.verifyAndEnable, Process.bind_assoc, lift_users]
  refine effect_secret rfl mfaSecret_of_some fun row secret hget hsecret => ?_
  simp only [Process.env_bind, Process.run_ask]
  exact effect_totp hget rfl hsecret rfl fun _ _ => rfl

theorem effect_regenerateBackupCodes (code : String) :
    Effect crypto userId env (.regenerateBackupCodes code) s
      (((Call.regenerateBackupCodes code).start crypto userId).run handle env s).2 := by
  simp only [Call.start, MfaService.regenerateBackupCodes, Process.bind_assoc, lift_users]
  refine effect_secret rfl enabledSecret_of_some fun row secret hget hsecret => ?_
  simp only [Process.env_bind, Process.run_ask]
  exact effect_totp hget rfl hsecret rfl fun _ _ => rfl

theorem effect_disable (code : String) :
    Effect crypto userId env (.disable code) s
      (((Call.disable code).start crypto userId).run handle env s).2 := by
  simp only [Call.start, MfaService.disable, Process.bind_assoc, lift_users]
  refine effect_secret rfl enabledSecret_of_some fun row secret hget hsecret => ?_
  simp only [Process.env_bind, Process.run_ask]
  exact effect_totp hget rfl hsecret rfl fun _ _ => rfl

theorem effect_useBackupCode {A : Type} {code : String} {rest : Bool → Service authInterface A}
    (hcode : call.code = some code)
    (hrest : ∀ b s, ((rest b).run handle env s).2.users = s.users) :
    Effect crypto userId env call s
      ((useBackupCode crypto userId code >>= rest).run handle env s).2 := by
  simp only [useBackupCode, Process.bind_assoc, lift_users]
  rw [Process.run_bind, run_findById]
  cases hget : s.users.get userId with
  | none => exact .nothing (hrest false s)
  | some user =>
    simp only [Option.map_some, Option.getD_some]
    split
    · next hmem =>
      simp only [Process.bind_assoc]
      exact effect_update hget (.backupCode code hcode hmem rfl) fun _ s => hrest true s
    · exact .nothing (hrest false s)

theorem effect_verifyCode (code : String) :
    Effect crypto userId env (.verifyCode code) s
      (((Call.verifyCode code).start crypto userId).run handle env s).2 := by
  simp only [Call.start, MfaService.verifyCode, Process.bind_assoc, lift_users]
  rw [Process.run_bind, run_findById]
  simp only
  cases mfaSecret (s.users.get userId) with
  | none => exact .nothing rfl
  | some secret =>
    simp only [Process.env_bind, Process.ask_bind, Process.run_ask, Process.bind_assoc,
      Process.lift_except]
    rw [Process.run_bind, Process.run_ofExcept]
    cases totpValid crypto env secret code with
    | error x => exact .nothing rfl
    | ok valid =>
      cases valid with
      | true => exact .nothing rfl
      | false => exact effect_useBackupCode rfl fun _ _ => rfl

variable (crypto userId) in
theorem effect (s : State) (i : Env × Call) :
    Effect crypto userId i.1 i.2 s (apply (system crypto userId).serve s i) := by
  obtain ⟨env, call⟩ := i
  cases call with
  | generateSecret => exact effect_generateSecret
  | verifyAndEnable code => exact effect_verifyAndEnable code
  | regenerateBackupCodes totpCode => exact effect_regenerateBackupCodes totpCode
  | verifyCode code => exact effect_verifyCode code
  | disable code => exact effect_disable code

/-! ## Which calls keep to the second factor -/

/-- Setting up the second factor does not touch the columns with unique values. -/
theorem conflicts_setUp (row : User) (secret : String) :
    conflicts s.users (spread row
        ((Patch.empty.set .mfaSecret (some secret)).set .mfaEnabled false)) =
      conflicts s.users row := by
  simp [conflicts, spread]

variable (crypto env) in
/-- Nothing but a unique column of another row keeps `generateSecret` from writing. -/
theorem generateSecret_writes {row : User} (hget : s.users.get userId = some row)
    (hfree : conflicts s.users row = false) :
    ∃ secret, ((Call.generateSecret.start crypto userId).run handle env s).2.users =
      s.users.save (spread row
        ((Patch.empty.set .mfaSecret (some secret)).set .mfaEnabled false)) := by
  refine ⟨EncryptionService.encrypt crypto (env.random 1) (env.random 0), ?_⟩
  simp only [Call.start, MfaService.generateSecret, Process.bind_assoc, lift_users]
  rw [Process.run_bind, run_findById]
  simp only [hget, orThrow_some, Process.ret_bind, Process.env_bind, Process.run_ask]
  rw [Process.run_bind, run_update]
  simp only [hget, conflicts_setUp, hfree, Bool.false_eq_true, if_false]
  rfl

theorem get_written {row : User} {data : UserData} (hget : s.users.get userId = some row)
    (hid : data .id = none) :
    (s.users.save (spread row data)).get userId = some (spread row data) := by
  have hkey : spread row data .id = userId :=
    (spread_of_none hid).trans (Repository.key_of_get hget)
  rw [← hkey]
  exact Repository.get_save_self

theorem keepsFactor_iff (s : State) (i : Env × Call) :
    KeepsFactor crypto userId s i ↔ ¬ SetsUpAgain userId s i := by
  obtain ⟨env, call⟩ := i
  constructor
  · rintro hkeeps ⟨hcall, row, hget, henabled, hfree⟩
    cases hcall
    obtain ⟨row', hget', hauthorised⟩ := hkeeps row hget henabled
    obtain ⟨secret, hwritten⟩ :=
      generateSecret_writes crypto env hget hfree
    have hrow : (apply (system crypto userId).serve s (env, .generateSecret)).users.get userId =
        some (spread row ((Patch.empty.set .mfaSecret (some secret)).set .mfaEnabled false)) :=
      (congrArg (fun users : UserTable => users.get userId) hwritten).trans
        (get_written hget rfl)
    cases hrow.symm.trans hget'
    cases hauthorised with
    | unchanged enabled secret codes =>
      rw [henabled] at enabled
      cases enabled
    | totp code given valid => cases given
    | backupCode code given stored enabled secret codes => cases given
  · intro hset row hget henabled
    cases effect crypto userId s (env, call) with
    | nothing users =>
      refine ⟨row, ?_, .unchanged rfl rfl rfl⟩
      rw [users, hget]
    | writes row₁ data hget₁ free users why =>
      cases hget.symm.trans hget₁
      cases why with
      | setUp event secret hdata =>
        subst hdata
        exact absurd ⟨event, row, hget, henabled, (conflicts_setUp row secret).symm.trans free⟩ hset
      | totp code given valid hid =>
        refine ⟨spread row data, ?_, .totp code given valid⟩
        rw [users, get_written hget hid]
      | backupCode code given stored hdata =>
        refine ⟨spread row data, ?_, .backupCode code given stored ?_ ?_ ?_⟩
        · rw [users, get_written hget (by rw [hdata]; rfl)]
        all_goals rw [hdata]; rfl

/-- Every call of a run, one after the other, does to a second factor that is switched on
what it is authorised to do, exactly when no call sets the second factor up again. -/
theorem factor_kept_iff (crypto : Crypto) (userId : String) (s : State)
    (calls : List (Env × Call)) :
    (∀ i earlier, i :: earlier <:+ calls →
      KeepsFactor crypto userId (after (system crypto userId).serve s earlier) i) ↔
    Guarded (fun earlier i =>
      ¬ SetsUpAgain userId (after (system crypto userId).serve s earlier) i) calls := by
  rw [guarded_iff]
  exact forall_congr' fun i => forall_congr' fun earlier => forall_congr' fun _ =>
    keepsFactor_iff _ i

/-! ## A second factor that is switched off -/

def exampleCrypto : Crypto := .sample "A1B2C3D4E5"
  "c3d393ee2620174b4c644049767c0f777a38b0e606e47b04527783d64b54fd3a"

/-- A user without a second factor. -/
def exampleState : State where
  users := Repository.empty.save (User.default "u" 0)
  refreshTokens := .empty
  resetTokens := .empty
  auditLogs := []

/-- The second factor is set up, enabled and set up again. Newest call first. -/
def setUpTwice : List (Env × Call) :=
  let env : Env := ⟨0, "", fun i => if i = 0 then "SECRET" else "0000"⟩
  [(env, .generateSecret), (env, .verifyAndEnable "123456"), (env, .generateSecret)]

/-- It is on after the second call, and off after the third, which was given no code. -/
theorem factor_switched_off :
    ((after (system exampleCrypto "u").serve exampleState setUpTwice.tail).users.get "u").map
        (fun user => user .mfaEnabled) = some true ∧
      ((after (system exampleCrypto "u").serve exampleState setUpTwice).users.get "u").map
        (fun user => user .mfaEnabled) = some false ∧
      ¬ ∀ i earlier, i :: earlier <:+ setUpTwice → KeepsFactor exampleCrypto "u"
        (after (system exampleCrypto "u").serve exampleState earlier) i := by
  have hon : ((after (system exampleCrypto "u").serve exampleState setUpTwice.tail).users.get
      "u").map (fun user => user .mfaEnabled) = some true := by decide +kernel
  have hoff : ((after (system exampleCrypto "u").serve exampleState setUpTwice).users.get
      "u").map (fun user => user .mfaEnabled) = some false := by decide +kernel
  refine ⟨hon, hoff, fun h => ?_⟩
  obtain ⟨row, hget, henabled⟩ := Option.map_eq_some_iff.mp hon
  obtain ⟨row', hget', hauthorised⟩ := h _ _ (List.suffix_refl _) row hget henabled
  obtain ⟨row'', hget'', hdisabled⟩ := Option.map_eq_some_iff.mp hoff
  cases hget'.symm.trans hget''
  cases hauthorised with
  | unchanged enabled secret codes =>
    rw [henabled, hdisabled] at enabled
    cases enabled
  | totp code given valid => cases given
  | backupCode code given stored enabled secret codes => cases given

end Scoopdope.Auth.MfaGuard

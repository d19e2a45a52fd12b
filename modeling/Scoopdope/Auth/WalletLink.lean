import Scoopdope.Async.Pool
import Scoopdope.Auth.Service

/-!
# Authentication: linking a wallet

A wallet should be linked to a user only for a signature, under its key, of a challenge that
was issued to that user and not yet used. `verifyStellarSignature` looks at the form of the
challenge and the length of the signature; nobody keeps the challenges that were issued, and
no signature is verified.

`links_iff`: what links a key. `linked_by_owner_iff`: in a run of challenge requests and
verifications every link is made for such a signature, exactly when every verification that
is well formed comes with one. `linked_by_anyone` is a link for a made-up challenge.
-/

namespace Scoopdope.Auth.WalletLink

open Async Database OAuthService Server Soroban Users

/-- Both calls are made by a user who is logged in. -/
inductive Call
  | challenge (userId publicKey : String)
  | verify (userId publicKey signature challenge : String)

inductive Answer
  | challenge (challenge : StellarChallenge)
  | linked (publicKey : String)
deriving DecidableEq

variable (codec : ChallengeCodec)

def system : System authInterface Env HttpException Answer State Call where
  start
    | .challenge _ publicKey => do
      pure (.challenge (← generateStellarChallenge codec publicKey))
    | .verify userId publicKey signature challenge => do
      pure (.linked (← verifyStellarSignature codec userId publicKey signature challenge))
  handle := handle

/-- The state after some calls, newest first. -/
def reached (s : State) (calls : List (Env × Call)) : State := after (system codec).serve s calls

/-! ## Links and the challenges behind them -/

def Linked (s : State) (userId publicKey : String) : Prop :=
  ∃ row, s.users.get userId = some row ∧ row .stellarPublicKey = some publicKey

/-- The user was given this challenge. -/
def Issued (s : State) (userId challenge : String) (calls : List (Env × Call)) : Prop :=
  Occurs (fun earlier i => ∃ publicKey given, i.2 = .challenge userId publicKey ∧
    (system codec).answer (reached codec s earlier) i = .ok (.challenge given) ∧
    given.challenge = challenge) calls

/-- A verification of this challenge has succeeded. -/
def Used (s : State) (challenge : String) (calls : List (Env × Call)) : Prop :=
  Occurs (fun earlier i => ∃ userId publicKey signature answer,
    i.2 = .verify userId publicKey signature challenge ∧
    (system codec).answer (reached codec s earlier) i = .ok answer) calls

/-- The owner of the key has signed a challenge that this user was given and that is not yet
used. `signed` says which signatures of which challenges are valid under which keys. -/
structure ByOwner (signed : String → String → String → Prop) (s : State)
    (earlier : List (Env × Call)) (userId publicKey signature challenge : String) : Prop where
  issued : Issued codec s userId challenge earlier
  unused : ¬ Used codec s challenge earlier
  signed : signed publicKey challenge signature

/-- A key that becomes linked to a user is linked by a verification for its owner. -/
def LinksByOwner (signed : String → String → String → Prop) (s : State)
    (earlier : List (Env × Call)) (i : Env × Call) : Prop :=
  ∀ userId publicKey, ¬ Linked (reached codec s earlier) userId publicKey →
    Linked (reached codec s (i :: earlier)) userId publicKey →
    ∃ signature challenge, i.2 = .verify userId publicKey signature challenge ∧
      ByOwner codec signed s earlier userId publicKey signature challenge

/-- What `verifyStellarSignature` checks: the challenge decodes, names the key and is not
expired; the signature has ten characters. -/
def WellFormed (env : Env) (publicKey signature challenge : String) : Prop :=
  ∃ expiresAt, codec.decode challenge = some (.value expiresAt (some publicKey)) ∧
    expired env expiresAt = false ∧ 10 ≤ length signature

/-- The user has a row that may be written and is not linked to the key. -/
def Linkable (s : State) (userId publicKey : String) : Prop :=
  ∃ row, s.users.get userId = some row ∧ row .stellarPublicKey ≠ some publicKey ∧
    conflicts s.users row = false

/-- A verification that is well formed, for a user to whom the key can be linked, comes from
the owner of the key. -/
def VerifiesForOwner (signed : String → String → String → Prop) (s : State)
    (earlier : List (Env × Call)) (i : Env × Call) : Prop :=
  ∀ userId publicKey signature challenge, i.2 = .verify userId publicKey signature challenge →
    WellFormed codec i.1 publicKey signature challenge →
    Linkable (reached codec s earlier) userId publicKey →
    ByOwner codec signed s earlier userId publicKey signature challenge

/-! ## What links a key -/

variable {codec} {env : Env} {s : State}

/-- A verification that is not well formed changes nothing. -/
theorem run_verify_of_not {userId publicKey signature challenge : String}
    (h : ¬ WellFormed codec env publicKey signature challenge) :
    ((verifyStellarSignature codec userId publicKey signature challenge).run handle env s).2 =
      s := by
  unfold verifyStellarSignature
  rw [Process.env_bind, Process.run_ask]
  cases hdecode : codec.decode challenge with
  | none => rfl
  | some data =>
    cases data with
    | null => rfl
    | value expiresAt key =>
      simp only
      split
      · rfl
      · next hexpired =>
        split
        · rfl
        · next hkey =>
          split
          · rfl
          · next hlength =>
            rw [not_not] at hkey
            subst hkey
            exact absurd ⟨expiresAt, hdecode, by simpa using hexpired, by omega⟩ h

/-- One that is well formed is an `update`. -/
theorem run_verify {userId publicKey signature challenge : String}
    (h : WellFormed codec env publicKey signature challenge) :
    (verifyStellarSignature codec userId publicKey signature challenge).run handle env s =
      Process.run handle env s ((update userId
        (Patch.empty.set .stellarPublicKey (some publicKey))).lift ofUsers >>= fun _ =>
          pure publicKey) := by
  obtain ⟨expiresAt, hdecode, hexpired, hlength⟩ := h
  unfold verifyStellarSignature
  rw [Process.env_bind, Process.run_ask, hdecode]
  simp only [hexpired]
  rw [if_neg (by simp), if_neg (by simp), if_neg (by omega)]
  rfl

theorem conflicts_link (row : User) (publicKey : String) :
    conflicts s.users (spread row (Patch.empty.set .stellarPublicKey (some publicKey))) =
      conflicts s.users row := by
  simp [conflicts, spread]

/-- The users after a verification. -/
theorem users_verify (userId publicKey signature challenge : String) :
    (apply (system codec).serve s (env, .verify userId publicKey signature challenge)).users =
      ((verifyStellarSignature codec userId publicKey signature challenge).run handle env
        s).2.users := by
  exact congrArg (fun result : _ × State => result.2.users)
    (Process.run_map (verifyStellarSignature codec userId publicKey signature challenge)
      Answer.linked)

/-- A link for a user with a row. -/
theorem run_link {userId publicKey : String} {row : User} (hget : s.users.get userId = some row) :
    ((Process.run handle env s ((update userId
      (Patch.empty.set .stellarPublicKey (some publicKey))).lift ofUsers >>= fun _ =>
        (pure publicKey : Service authInterface String))).2).users =
      if conflicts s.users row then s.users
      else s.users.save (spread row (Patch.empty.set .stellarPublicKey (some publicKey))) := by
  rw [Process.run_bind, run_update, hget]
  simp only [conflicts_link]
  cases conflicts s.users row <;> rfl

/-- A key becomes linked exactly in a verification that is well formed, for a user to whom
it can be linked. -/
theorem links_iff {i : Env × Call} {userId publicKey : String} :
    (¬ Linked s userId publicKey ∧ Linked (apply (system codec).serve s i) userId publicKey) ↔
      ∃ signature challenge, i.2 = .verify userId publicKey signature challenge ∧
        WellFormed codec i.1 publicKey signature challenge ∧ Linkable s userId publicKey := by
  obtain ⟨env, call⟩ := i
  constructor
  · rintro ⟨hbefore, row', hget', hlinked⟩
    cases call with
    | challenge userId' publicKey' => exact absurd ⟨row', hget', hlinked⟩ hbefore
    | verify userId' publicKey' signature challenge =>
      rw [users_verify] at hget'
      by_cases hwell : WellFormed codec env publicKey' signature challenge
      · rw [run_verify hwell] at hget'
        cases hget : s.users.get userId' with
        | none =>
          rw [Process.run_bind, run_update, hget] at hget'
          exact absurd ⟨row', hget', hlinked⟩ hbefore
        | some row =>
          rw [run_link hget] at hget'
          cases hfree : conflicts s.users row with
          | true =>
            rw [hfree, if_pos rfl] at hget'
            exact absurd ⟨row', hget', hlinked⟩ hbefore
          | false =>
            rw [hfree, if_neg Bool.false_ne_true, Repository.get_save] at hget'
            split at hget'
            · next hid =>
              cases hget'
              have hid' : userId = row .id := hid
              have hkey : userId = userId' := hid'.trans (Repository.key_of_get hget)
              have hsame : publicKey' = publicKey := Option.some.inj hlinked
              subst hkey
              subst hsame
              exact ⟨signature, challenge, rfl, hwell, row, hget,
                fun hold => hbefore ⟨row, hget, hold⟩, hfree⟩
            · exact absurd ⟨row', hget', hlinked⟩ hbefore
      · rw [run_verify_of_not hwell] at hget'
        exact absurd ⟨row', hget', hlinked⟩ hbefore
  · rintro ⟨signature, challenge, hcall, hwell, row, hget, hnew, hfree⟩
    cases hcall
    constructor
    · rintro ⟨row₁, hget₁, hlinked⟩
      cases hget.symm.trans hget₁
      exact hnew hlinked
    · refine ⟨spread row (Patch.empty.set .stellarPublicKey (some publicKey)), ?_, rfl⟩
      rw [users_verify, run_verify hwell, run_link hget, hfree, if_neg Bool.false_ne_true]
      have hkey : userId = spread row (Patch.empty.set .stellarPublicKey (some publicKey)) .id :=
        (Repository.key_of_get hget).symm
      rw [hkey]
      exact Repository.get_save_self

/-- Every key that becomes linked in a run is linked for its owner, exactly when every
verification of the run that is well formed, for a user to whom the key can be linked, comes
from the owner of the key. -/
theorem linked_by_owner_iff (codec : ChallengeCodec) (signed : String → String → String → Prop)
    (s : State) (calls : List (Env × Call)) :
    (∀ i earlier, i :: earlier <:+ calls → LinksByOwner codec signed s earlier i) ↔
      Guarded (VerifiesForOwner codec signed s) calls := by
  rw [guarded_iff]
  refine forall_congr' fun i => forall_congr' fun earlier => forall_congr' fun _ => ?_
  constructor
  · intro h userId publicKey signature challenge hcall hwell hlinkable
    obtain ⟨hbefore, hafter⟩ := links_iff.mpr ⟨signature, challenge, hcall, hwell, hlinkable⟩
    obtain ⟨signature', challenge', hcall', howner⟩ := h userId publicKey hbefore hafter
    cases hcall.symm.trans hcall'
    exact howner
  · intro h userId publicKey hbefore hafter
    obtain ⟨signature, challenge, hcall, hwell, hlinkable⟩ := links_iff.mp ⟨hbefore, hafter⟩
    exact ⟨signature, challenge, hcall,
      h userId publicKey signature challenge hcall hwell hlinkable⟩

/-! ## A link without a signature -/

section Example

def exampleKey : String := "GA7QYNF7SOWQ3GLR2BGMZEHXAVIRZA4KVWLTJJFC7MGXUA74P7UJVSGZ"

/-- The base64 of `{ publicKey, expiresAt: '2100-01-01T00:00:00.000Z' }` with that key. -/
def exampleChallenge : String :=
  "eyJwdWJsaWNLZXkiOiJHQTdRWU5GN1NPV1EzR0xSMkJHTVpFSFhBVklSWkE0S1ZXTFRKSkZDN01HWFVB" ++
    "NzRQN1VKVlNHWiIsImV4cGlyZXNBdCI6IjIxMDAtMDEtMDFUMDA6MDA6MDAuMDAwWiJ9"

/-- Challenges as texts, on that one. -/
def exampleCodec : ChallengeCodec where
  encode := fun nonce publicKey _ => nonce ++ publicKey
  decode := fun challenge =>
    if challenge = exampleChallenge then some (.value (some 4102444800000) (some exampleKey))
    else none

def exampleState : State where
  users := Repository.empty.save (User.default "u" 0)
  refreshTokens := .empty
  resetTokens := .empty
  auditLogs := []

def madeUp : List (Env × Call) :=
  [(⟨0, "", fun _ => ""⟩, .verify "u" exampleKey "0123456789" exampleChallenge)]

/-- Nobody has asked for a challenge, ten digits are no signature, and the key is linked. -/
theorem linked_by_anyone :
    ((reached exampleCodec exampleState madeUp).users.get "u").map
        (fun user => user .stellarPublicKey) = some (some exampleKey) ∧
      ¬ ∀ i earlier, i :: earlier <:+ madeUp →
        LinksByOwner exampleCodec (fun _ _ _ => False) exampleState earlier i := by
  have hlinked : ((reached exampleCodec exampleState madeUp).users.get "u").map
      (fun user => user .stellarPublicKey) = some (some exampleKey) := by decide +kernel
  refine ⟨hlinked, fun h => ?_⟩
  obtain ⟨row, hget, hkey⟩ := Option.map_eq_some_iff.mp hlinked
  have hbefore : ¬ Linked (reached exampleCodec exampleState []) "u" exampleKey := by
    rintro ⟨row₀, hget₀, hkey₀⟩
    cases hget₀
    cases hkey₀
  obtain ⟨_, _, _, howner⟩ := h _ _ (List.suffix_refl _) "u" exampleKey hbefore ⟨row, hget, hkey⟩
  exact howner.signed

end Example

end Scoopdope.Auth.WalletLink

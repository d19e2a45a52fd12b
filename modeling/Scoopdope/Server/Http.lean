import Mathlib.Logic.Equiv.Basic
import Scoopdope.Async.Process

/-!
# Server: requests

The exceptions a service throws, with their messages, and what it reads that is neither
an argument nor stored: the clock and random strings. An exception that is none of the
HTTP exceptions is answered with status 500.
-/

namespace Scoopdope.Server

inductive HttpException
  | badRequest (message : String)
  | unauthorized (message : String)
  | forbidden (message : String)
  | notFound (message : String)
  | conflict (message : String)
  | unprocessableEntity (message : String)
  | internal (message : String)
  | serviceUnavailable (message : String)
deriving DecidableEq

structure Env where
  /-- `Date.now()`, in milliseconds. -/
  now : Int
  /-- The primary key that the database generates for an insertion. -/
  uuid : String
  /-- The random strings drawn, in order. -/
  random : Nat → String

/-- A method of a service. -/
abbrev Service (I : Async.Interface) (A : Type) : Type := Async.Process I Env HttpException A

/-- `if (!a) throw new ...`, and go on with `a`. -/
def orThrow {I : Async.Interface} {A : Type} (x : HttpException) : Option A → Service I A
  | some a => .ret a
  | none => .fail x

@[simp] theorem orThrow_some {I : Async.Interface} {A : Type} (x : HttpException) (a : A) :
    orThrow (I := I) x (some a) = .ret a := rfl

theorem only_orThrow {I : Async.Interface} {A : Type} {φ : I.Op → Prop} (x : HttpException)
    (a : Option A) : (orThrow x a : Service I A).Only φ := by
  cases a <;> trivial

/-- `s` of a `string | null` that is neither null nor empty, which both count as false. -/
def truthy : Option String → Option String
  | some s => if s = "" then none else some s
  | none => none

theorem truthy_eq_some {o : Option String} {s : String} :
    truthy o = some s ↔ o = some s ∧ s ≠ "" := by
  cases o with
  | none => exact ⟨nofun, nofun⟩
  | some s' =>
    show (if s' = "" then none else some s') = some s ↔ _
    split
    · next hempty =>
      refine ⟨nofun, ?_⟩
      rintro ⟨heq, hne⟩
      cases heq
      exact absurd hempty hne
    · next hne =>
      constructor
      · intro heq
        cases heq
        exact ⟨rfl, hne⟩
      · exact And.left

end Scoopdope.Server

/-!
## Server: cryptography

What the services take from libraries: hashes, ciphers and one-time codes. Nothing is
assumed here about these functions.

`EncryptionService` is `common/encryption.service.ts`.
-/

namespace Scoopdope.Server

structure Crypto where
  /-- `createHash('sha256').update(text).digest('hex')`. -/
  sha256 : String → String
  /-- The cipher text under an initialization vector, with it. -/
  encipher : String → String → String
  /-- None where it throws. -/
  decipher : String → Option String
  /-- `verifySync({ token, secret })?.valid` at a time. None where it throws. -/
  verifySync : Int → String → String → Option Bool
  /-- `generateURI({ label, issuer, secret })`. -/
  generateURI : String → String → String → String
  /-- `qrcode.toDataURL(url)`. -/
  toDataURL : String → String
  /-- `bcrypt.compare(password, hash)`. -/
  compare : String → String → Bool
  /-- `bcrypt.hash(password, 10)` with a salt. -/
  hash : String → String → String

/-- The libraries on the inputs of an example: the hash of one text, one TOTP secret and the
code that is valid for it, passwords that are their own hashes. A TOTP code that does not have six
digits is not looked at: `verifySync` throws. -/
def Crypto.sample (text hash : String) : Crypto where
  sha256 := Equiv.swap text hash
  encipher := fun iv text => iv ++ ":" ++ text
  decipher := fun text => if text = "0000:SECRET" then some "SECRET" else none
  verifySync := fun _ token secret =>
    if token.length = 6 ∧ token.toList.all Char.isDigit then
      some (token = "123456" ∧ secret = "SECRET")
    else none
  generateURI := fun label issuer secret => issuer ++ label ++ secret
  toDataURL := fun url => url
  compare := fun password hash => password = hash
  hash := fun _ password => password

namespace EncryptionService

variable (crypto : Crypto)

def encrypt (iv text : String) : String := crypto.encipher iv text

def decrypt (encryptedText : String) : Except HttpException String :=
  if encryptedText = "" then .ok ""
  else
    match crypto.decipher encryptedText with
    | some text => .ok text
    | none => .error (.internal "Decryption failed")

end EncryptionService

end Scoopdope.Server

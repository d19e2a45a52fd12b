import Scoopdope.Analytics.Contract
import Scoopdope.Soroban.ScVal
import Scoopdope.Token.Contract

/-!
# Stellar: the calls of the contracts

The arguments that `StellarService` (`stellar/stellar.service.ts`) builds for the contracts of
this repository, against the parameters of the entry points. Every entry point takes the
caller or the admin first, which no call of the service passes.

`invocations_unmatched`: no argument list is decoded.
-/

namespace Scoopdope.Stellar

open Soroban

variable {Address : Type}

/-! ## The service -/

/-- The ids of users and courses: 32 hexadecimal digits in five groups. -/
def isUuid (s : String) : Bool :=
  decide (s.toList.length = 36) &&
    (s.toList.mapIdx fun k c =>
      if k = 8 ∨ k = 13 ∨ k = 18 ∨ k = 23 then c == '-'
      else c.isDigit || ('a' ≤ c && c ≤ 'f') || ('A' ≤ c && c ≤ 'F')).all id

abbrev Uuid : Type := { s : String // isUuid s = true }

/-- The progress of a student, in percent. -/
abbrev Percentage : Type := BoundedInt 0 100

def Percentage.toI32 (pct : Percentage) : I32 :=
  ⟨pct.val, le_trans (by decide) pct.lo_le, le_trans pct.le_hi (by decide)⟩

/-- The arguments that `recordProgress` passes to `record_progress`. -/
def recordProgressArgs (studentPublicKey : Address) (courseId : Uuid) (progressPct : Percentage) :
    List (ScVal Address) :=
  [.address studentPublicKey, .symbol courseId.val, .i32 progressPct.toI32]

/-- The same at 100 percent, for `issueCredential`. -/
def recordProgressOnChainArgs (studentPublicKey : Address) (courseId : Uuid) :
    List (ScVal Address) :=
  [.address studentPublicKey, .symbol courseId.val, .i32 (.lit 100)]

/-- The arguments that `mintReward` passes to `mint_reward`. -/
def mintRewardArgs (recipientPublicKey : Address) (amount : I128) : List (ScVal Address) :=
  [.address recipientPublicKey, .i128 amount]

/-- The arguments that `mintCertificateNFT` passes to `mint_certificate`. -/
def mintCertificateArgs (recipientPublicKey : Address) (certificateHash courseTitle : String) :
    List (ScVal Address) :=
  [.address recipientPublicKey, .string certificateHash, .string courseTitle]

/-! ## The contracts -/

/-- `record_progress(caller, student, course_id, progress_pct)`. -/
def recordProgressParams : Signature := [.address, .address, .symbol, .u32]

/-- `mint_reward(caller, recipient, amount)`. -/
def mintRewardParams : Signature := [.address, .address, .i128]

/-- `mint_certificate(admin, recipient, course_id, metadata_url)`. -/
def mintCertificateParams : Signature := [.address, .address, .symbol, .string]

/-- What the decoded arguments call. -/
def Call.recordProgress : recordProgressParams.Args Address → Analytics.Call Address
  | (caller, student, courseId, progressPct, ()) =>
    .recordProgress caller student courseId.val progressPct

def Call.mintReward : mintRewardParams.Args Address → Token.Call Address
  | (caller, recipient, amount, ()) => .mintReward caller recipient amount

/-- The arguments of `mint_certificate`. -/
structure MintCertificate (Address : Type) where
  admin : Address
  recipient : Address
  courseId : String
  metadataUrl : String

def Call.mintCertificate : mintCertificateParams.Args Address → MintCertificate Address
  | (admin, recipient, courseId, metadataUrl, ()) =>
    { admin, recipient, courseId := courseId.val, metadataUrl }

/-- The arguments are decoded, and call what was meant. -/
def Matches {C : Type} (params : Signature) (call : params.Args Address → C)
    (meant : C → Prop) (args : List (ScVal Address)) : Prop :=
  ∃ values, params.decode args = some values ∧ meant (call values)

/-- Too few arguments, or too many. -/
theorem not_matches_of_length {C : Type} {params : Signature} {call : params.Args Address → C}
    {meant : C → Prop} {args : List (ScVal Address)} (h : args.length ≠ params.length) :
    ¬ Matches params call meant args := by
  rintro ⟨values, hdecode, -⟩
  exact h (Signature.length_of_decode hdecode)

/-- No call of the service is decoded by the entry point it is made for. -/
theorem invocations_unmatched :
    (∀ (student : Address) (courseId : Uuid) (progressPct : Percentage),
      ¬ Matches recordProgressParams Call.recordProgress
        (fun call => ∃ caller pct, pct.val = progressPct.val ∧
          call = .recordProgress caller student courseId.val pct)
        (recordProgressArgs student courseId progressPct)) ∧
    (∀ (student : Address) (courseId : Uuid),
      ¬ Matches recordProgressParams Call.recordProgress
        (fun call => ∃ caller, call = .recordProgress caller student courseId.val (.lit 100))
        (recordProgressOnChainArgs student courseId)) ∧
    (∀ (recipient : Address) (amount : I128),
      ¬ Matches mintRewardParams Call.mintReward
        (fun call => ∃ caller, call = .mintReward caller recipient amount)
        (mintRewardArgs recipient amount)) ∧
    ∀ (recipient : Address) (certificateHash courseTitle : String),
      ¬ Matches mintCertificateParams Call.mintCertificate
        (fun call => call.recipient = recipient)
        (mintCertificateArgs recipient certificateHash courseTitle) := by
  refine ⟨?_, ?_, ?_, ?_⟩
  · intro student courseId progressPct
    exact not_matches_of_length (show 3 ≠ 4 by decide)
  · intro student courseId
    exact not_matches_of_length (show 3 ≠ 4 by decide)
  · intro recipient amount
    exact not_matches_of_length (show 2 ≠ 3 by decide)
  · intro recipient certificateHash courseTitle
    exact not_matches_of_length (show 3 ≠ 4 by decide)

/-- An id is four characters too long for a symbol. -/
theorem not_isSymbol_of_isUuid (id : Uuid) : isSymbol id.val = false := by
  obtain ⟨s, hs⟩ := id
  unfold isUuid at hs
  simp only [Bool.and_eq_true, decide_eq_true_eq] at hs
  unfold isSymbol
  rw [hs.1]
  rfl

def exampleCourse : Uuid := ⟨"6f9619ff-8b86-d011-b42d-00c04fc964ff", by decide +kernel⟩

/-- The progress of student 7, at 75 percent: one argument is missing, the course is no symbol
and the percentage has another type. -/
theorem recordProgress_unmatched :
    (recordProgressArgs (7 : Nat) exampleCourse (.lit 75)).length = 3 ∧
      recordProgressParams.length = 4 ∧
      isSymbol exampleCourse.val = false ∧
      recordProgressParams.decode (recordProgressArgs (7 : Nat) exampleCourse (.lit 75)) = none ∧
      ¬ Matches recordProgressParams Call.recordProgress
        (fun call => ∃ caller pct, pct.val = 75 ∧
          call = .recordProgress caller 7 exampleCourse.val pct)
        (recordProgressArgs (7 : Nat) exampleCourse (.lit 75)) := by
  refine ⟨rfl, rfl, not_isSymbol_of_isUuid exampleCourse, rfl, ?_⟩
  exact not_matches_of_length (show 3 ≠ 4 by decide)

end Scoopdope.Stellar

import Scoopdope.Soroban.Env
import Scoopdope.Soroban.Listing
import Scoopdope.Soroban.Table

/-!
# Course NFTs: storage and entry points

`NFTContract` (`contracts/nft/src/lib.rs`). A field of the storage is one storage key, or
a table for a family of keys; no function uses `CourseNFT`. Symbols are strings here:
`symbol_short!("transferred")` and the two access topics have more characters than the
macro takes.

The owner of an NFT is stored three times: under `NFTOwner`, in the metadata, and as
the owner in whose list the id stands. The second half has, for each call that returned,
the checks that passed and what it wrote.
-/

namespace Scoopdope.Nft

open Soroban

section Types

variable (Address : Type)

structure NFTMetadata where
  nftId : U32
  courseId : String
  courseName : String
  owner : Address
  purchaseDate : U64
  royaltyBasis : U32

/-- Everything is in instance storage. -/
structure Storage where
  admin : Option Address
  nftOwner : Table U32 Address
  nftMetadata : Table U32 (NFTMetadata Address)
  courseNFTs : Table Address (List U32)
  nextNFTId : Option U32
  royaltyBasis : Table U32 U32
  royaltyRecipient : Table U32 Address
  accessRights : Table (U32 × Address) Bool
  /-- The events published so far, newest first. -/
  events : List (Event Address)

/-- The storage of a contract just deployed. -/
def Storage.fresh : Storage Address where
  admin := none
  nftOwner := ∅
  nftMetadata := ∅
  courseNFTs := ∅
  nextNFTId := none
  royaltyBasis := ∅
  royaltyRecipient := ∅
  accessRights := ∅
  events := []

end Types

variable {Address : Type}

/-- `env.events().publish(topics, data)`. -/
def Storage.publish (s : Storage Address) (topics data : List (Val Address)) : Storage Address :=
  { s with events := ⟨topics, data⟩ :: s.events }

/-! ## Readers -/

def nextNFTId (s : Storage Address) : U32 := s.nextNFTId.getD 0

def getNftOwner (s : Storage Address) (nftId : U32) : Option Address := s.nftOwner.get nftId

def getNftMetadata (s : Storage Address) (nftId : U32) : Option (NFTMetadata Address) :=
  s.nftMetadata.get nftId

def getRoyaltyInfo (s : Storage Address) (nftId : U32) : Option (Address × U32) :=
  match s.royaltyRecipient.get nftId, s.royaltyBasis.get nftId with
  | some r, some b => some (r, b)
  | _, _ => none

variable [DecidableEq Address]

def getOwnerNfts (s : Storage Address) (owner : Address) : List U32 :=
  listAt s.courseNFTs owner

def hasAccess (s : Storage Address) (nftId : U32) (holder : Address) : Bool :=
  (s.accessRights.get (nftId, holder)).getD false

/-! ## Entry points -/

def initializeContract (env : Env Address) (s : Storage Address) (admin : Address) :
    Outcome (Storage Address) := do
  assert (s.admin.isSome = false) "Already initialized"
  env.requireAuth admin
  pure { s with admin := some admin, nextNFTId := some 0 }

/-- The id of the new NFT and the storage afterwards. -/
def mintCourseNft (env : Env Address) (s : Storage Address) (admin owner : Address)
    (courseId courseName : String) (instructor : Address) (purchasePrice : I128)
    (royaltyBasis : U32) : Outcome (U32 × Storage Address) := do
  env.requireAuth admin
  let storedAdmin ← unwrap s.admin
  assert (admin = storedAdmin) "Only admin can mint"
  assert (royaltyBasis ≤ (.lit 10000 : U32)) "Royalty basis must be <= 10000"
  let nftId := nextNFTId s
  let metadata : NFTMetadata Address :=
    { nftId, courseId, courseName, owner, purchaseDate := env.timestamp, royaltyBasis }
  let s :=
    { s with
      nftMetadata := s.nftMetadata.set nftId metadata
      nftOwner := s.nftOwner.set nftId owner
      royaltyBasis := s.royaltyBasis.set nftId royaltyBasis
      royaltyRecipient := s.royaltyRecipient.set nftId instructor }
  let s := { s with courseNFTs := pushItem s.courseNFTs owner nftId }
  let s := { s with accessRights := s.accessRights.set (nftId, owner) true }
  let next ← nftId.add (.lit 1)
  let s := { s with nextNFTId := some next }
  pure (nftId, s.publish [.symbol "nft", .symbol "minted"]
    [.u32 nftId, .symbol courseId, .address owner, .i128 purchasePrice])

def transferNft (env : Env Address) (s : Storage Address) (from_ to_ : Address) (nftId : U32) :
    Outcome (Storage Address) := do
  env.requireAuth from_
  let currentOwner ← expect (s.nftOwner.get nftId) "NFT not found"
  assert (currentOwner = from_) "Not NFT owner"
  let s := { s with nftOwner := s.nftOwner.set nftId to_ }
  let metadata ← expect (s.nftMetadata.get nftId) "Metadata not found"
  let s := { s with nftMetadata := s.nftMetadata.set nftId { metadata with owner := to_ } }
  -- The second list is read after the first is written: the two can be the same list.
  let s := { s with courseNFTs := removeItem s.courseNFTs from_ nftId }
  let s := { s with courseNFTs := pushItem s.courseNFTs to_ nftId }
  let s := { s with accessRights := s.accessRights.set (nftId, to_) true }
  pure (s.publish [.symbol "nft", .symbol "transferred"]
    [.u32 nftId, .address from_, .address to_])

def grantAccess (env : Env Address) (s : Storage Address) (nftOwner : Address) (nftId : U32)
    (holder : Address) : Outcome (Storage Address) := do
  env.requireAuth nftOwner
  let currentOwner ← expect (s.nftOwner.get nftId) "NFT not found"
  assert (currentOwner = nftOwner) "Not NFT owner"
  let s := { s with accessRights := s.accessRights.set (nftId, holder) true }
  pure (s.publish [.symbol "nft", .symbol "access_granted"] [.u32 nftId, .address holder])

def revokeAccess (env : Env Address) (s : Storage Address) (nftOwner : Address) (nftId : U32)
    (holder : Address) : Outcome (Storage Address) := do
  env.requireAuth nftOwner
  let currentOwner ← expect (s.nftOwner.get nftId) "NFT not found"
  assert (currentOwner = nftOwner) "Not NFT owner"
  let s := { s with accessRights := s.accessRights.remove (nftId, holder) }
  pure (s.publish [.symbol "nft", .symbol "access_revoked"] [.u32 nftId, .address holder])

/-- A call of an entry point that can write, with its arguments. -/
inductive Call (Address : Type)
  | initializeContract (admin : Address)
  | mintCourseNft (admin owner : Address) (courseId courseName : String) (instructor : Address)
      (purchasePrice : I128) (royaltyBasis : U32)
  | transferNft (from_ to_ : Address) (nftId : U32)
  | grantAccess (nftOwner : Address) (nftId : U32) (holder : Address)
  | revokeAccess (nftOwner : Address) (nftId : U32) (holder : Address)

/-- One call in its environment. The returned value is dropped; the entry points
above have it. -/
def exec (s : Storage Address) (i : Env Address × Call Address) : Outcome (Storage Address) :=
  match i.2 with
  | .initializeContract admin => initializeContract i.1 s admin
  | .mintCourseNft admin owner courseId courseName instructor purchasePrice royaltyBasis =>
    (mintCourseNft i.1 s admin owner courseId courseName instructor purchasePrice
      royaltyBasis).map Prod.snd
  | .transferNft from_ to_ nftId => transferNft i.1 s from_ to_ nftId
  | .grantAccess nftOwner nftId holder => grantAccess i.1 s nftOwner nftId holder
  | .revokeAccess nftOwner nftId holder => revokeAccess i.1 s nftOwner nftId holder

/-! ## What an accepted call does -/

section Steps

variable {env : Env Address} {s s' : Storage Address} {nftOwner holder : Address} {nftId : U32}

theorem initializeContract_ok {admin : Address} :
    initializeContract env s admin = .ok s' ↔ s.admin.isSome = false ∧ admin ∈ env.auths ∧
      s' = { s with admin := some admin, nextNFTId := some 0 } := by
  simp only [initializeContract, bind_eq_ok, assert_eq_ok, Env.requireAuth_eq_ok, exists_const,
    pure_eq_ok, @eq_comm _ s']

/-- A mint takes the next id, which it files in every table. -/
theorem mintCourseNft_ok {admin owner instructor : Address} {courseId courseName : String}
    {purchasePrice : I128} {royaltyBasis id : U32}
    (h : mintCourseNft env s admin owner courseId courseName instructor purchasePrice
      royaltyBasis = .ok (id, s')) :
    id = nextNFTId s ∧ (nextNFTId s').val = id.val + 1 ∧ s'.admin = s.admin ∧
      s'.nftOwner = s.nftOwner.set id owner ∧
      s'.nftMetadata = s.nftMetadata.set id
        ⟨id, courseId, courseName, owner, env.timestamp, royaltyBasis⟩ ∧
      s'.courseNFTs = pushItem s.courseNFTs owner id ∧
      s'.royaltyBasis = s.royaltyBasis.set id royaltyBasis ∧
      s'.royaltyRecipient = s.royaltyRecipient.set id instructor ∧
      s'.accessRights = s.accessRights.set (id, owner) true := by
  simp only [mintCourseNft, bind_eq_ok, assert_eq_ok, Env.requireAuth_eq_ok, unwrap_eq_ok,
    BoundedInt.add_eq_ok, exists_const, pure_eq_ok] at h
  obtain ⟨_, _, _, _, _, next, hnext, heq⟩ := h
  cases heq
  exact ⟨rfl, hnext, rfl, rfl, rfl, rfl, rfl, rfl, rfl⟩

/-- A transfer rewrites the three copies of the owner and adds an access right. -/
theorem transferNft_ok {from_ to_ : Address} (h : transferNft env s from_ to_ nftId = .ok s') :
    from_ ∈ env.auths ∧ s.nftOwner.get nftId = some from_ ∧ s'.admin = s.admin ∧
      s'.nftOwner = s.nftOwner.set nftId to_ ∧
      (∃ metadata, s.nftMetadata.get nftId = some metadata ∧
        s'.nftMetadata = s.nftMetadata.set nftId { metadata with owner := to_ }) ∧
      s'.courseNFTs = pushItem (removeItem s.courseNFTs from_ nftId) to_ nftId ∧
      s'.nextNFTId = s.nextNFTId ∧ s'.royaltyBasis = s.royaltyBasis ∧
      s'.royaltyRecipient = s.royaltyRecipient ∧
      s'.accessRights = s.accessRights.set (nftId, to_) true := by
  simp only [transferNft, bind_eq_ok, assert_eq_ok, Env.requireAuth_eq_ok, expect_eq_ok,
    exists_const, pure_eq_ok] at h
  obtain ⟨hauth, currentOwner, hcurrent, rfl, metadata, hmetadata, rfl⟩ := h
  exact ⟨hauth, hcurrent, rfl, rfl, ⟨metadata, hmetadata, rfl⟩, rfl, rfl, rfl, rfl, rfl⟩

theorem grantAccess_ok :
    grantAccess env s nftOwner nftId holder = .ok s' ↔
      nftOwner ∈ env.auths ∧ s.nftOwner.get nftId = some nftOwner ∧
      s' = { s with accessRights := s.accessRights.set (nftId, holder) true }.publish
        [.symbol "nft", .symbol "access_granted"] [.u32 nftId, .address holder] := by
  simp only [grantAccess, bind_eq_ok, assert_eq_ok, Env.requireAuth_eq_ok, expect_eq_ok,
    exists_const, pure_eq_ok]
  constructor
  · rintro ⟨hauth, currentOwner, hcurrent, rfl, rfl⟩
    exact ⟨hauth, hcurrent, rfl⟩
  · rintro ⟨hauth, hcurrent, rfl⟩
    exact ⟨hauth, nftOwner, hcurrent, rfl, rfl⟩

theorem revokeAccess_ok :
    revokeAccess env s nftOwner nftId holder = .ok s' ↔
      nftOwner ∈ env.auths ∧ s.nftOwner.get nftId = some nftOwner ∧
      s' = { s with accessRights := s.accessRights.remove (nftId, holder) }.publish
        [.symbol "nft", .symbol "access_revoked"] [.u32 nftId, .address holder] := by
  simp only [revokeAccess, bind_eq_ok, assert_eq_ok, Env.requireAuth_eq_ok, expect_eq_ok,
    exists_const, pure_eq_ok]
  constructor
  · rintro ⟨hauth, currentOwner, hcurrent, rfl, rfl⟩
    exact ⟨hauth, hcurrent, rfl⟩
  · rintro ⟨hauth, hcurrent, rfl⟩
    exact ⟨hauth, nftOwner, hcurrent, rfl, rfl⟩

end Steps

/-! ## Initialised storages -/

/-- The storage after `initialize`. -/
def Initialised (admin : Address) (s : Storage Address) : Prop :=
  ∃ env, initializeContract env (Storage.fresh Address) admin = .ok s

/-- The contract with contract 1 as admin. -/
def exampleNfts : Storage Nat :=
  { Storage.fresh Nat with admin := some 1, nextNFTId := some 0 }

theorem exampleNfts_initialised : Initialised 1 exampleNfts := ⟨exampleEnv 0 [1], rfl⟩

end Scoopdope.Nft

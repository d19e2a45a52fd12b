import Scoopdope.Soroban.Env
import Scoopdope.Soroban.History
import Scoopdope.Soroban.Listing
import Scoopdope.Soroban.Pages
import Scoopdope.Soroban.Table

/-!
# Badges: storage and entry points

`BadgesContract` (`contracts/badges/src/lib.rs`): badges that cannot be transferred. A
field of the storage is one storage key, or a table for a family of keys.

The second half has, for each call that returned, the checks that passed and what it
wrote.
-/

namespace Scoopdope.Badges

open Soroban

structure BadgeTypeRecord where
  name : String
  description : String
  totalMinted : U32

section Types

variable (Address : Type)

structure BadgeRecord where
  id : U64
  owner : Address
  badgeType : String
  mintedAt : U64
deriving DecidableEq

structure Storage where
  /- Instance storage. -/
  admin : Option Address
  nextId : Option U64
  badgeType : Table String BadgeTypeRecord
  /- Persistent storage. -/
  badge : Table U64 (BadgeRecord Address)
  ownerBadges : Table Address (List U64)
  /-- The events published so far, newest first. -/
  events : List (Event Address)

/-- The storage of a contract just deployed. -/
def Storage.fresh : Storage Address where
  admin := none
  nextId := none
  badgeType := ∅
  badge := ∅
  ownerBadges := ∅
  events := []

end Types

variable {Address : Type}

/-- `env.events().publish(topics, data)`. -/
def Storage.publish (s : Storage Address) (topics data : List (Val Address)) : Storage Address :=
  { s with events := ⟨topics, data⟩ :: s.events }

/-! ## Readers -/

def getBadgeType (s : Storage Address) (badgeType : String) : Option BadgeTypeRecord :=
  s.badgeType.get badgeType

def getBadge (s : Storage Address) (id : U64) : Option (BadgeRecord Address) := s.badge.get id

variable [DecidableEq Address]

/-- The ids under `OwnerBadges(owner)`. -/
def ownerIds (s : Storage Address) (owner : Address) : List U64 :=
  listAt s.ownerBadges owner

def getBadgesByOwner (s : Storage Address) (owner : Address) : List (BadgeRecord Address) :=
  match s.ownerBadges.get owner with
  | some ids => ids.filterMap s.badge.get
  | none => []

def verifyBadge (s : Storage Address) (owner : Address) (badgeType : String) : Bool :=
  (getBadgesByOwner s owner).any fun badge => badge.badgeType == badgeType

/-! ## Entry points -/

def initializeContract (env : Env Address) (s : Storage Address) (admin : Address) :
    Outcome (Storage Address) := do
  assert (s.admin.isSome = false) "Already initialized"
  env.requireAuth admin
  pure { s with admin := some admin, nextId := some (.lit 1) }

def createBadgeType (env : Env Address) (s : Storage Address) (admin : Address)
    (badgeType description : String) : Outcome (Storage Address) := do
  env.requireAuth admin
  let storedAdmin ← unwrap s.admin
  assert (admin = storedAdmin) "Only admin can create badge types"
  assert (s.badgeType.has badgeType = false) "Badge type already exists"
  let record : BadgeTypeRecord := { name := badgeType, description, totalMinted := 0 }
  pure { s with badgeType := s.badgeType.set badgeType record }

/-- The id of the new badge and the storage afterwards. -/
def mintBadge (env : Env Address) (s : Storage Address) (admin recipient : Address)
    (badgeType : String) : Outcome (U64 × Storage Address) := do
  env.requireAuth admin
  let storedAdmin ← unwrap s.admin
  assert (admin = storedAdmin) "Only admin can mint"
  assert (s.badgeType.has badgeType = true) "Badge type does not exist"
  let id ← unwrap s.nextId
  let badge : BadgeRecord Address :=
    { id, owner := recipient, badgeType, mintedAt := env.timestamp }
  let s := { s with badge := s.badge.set id badge }
  let s := { s with ownerBadges := pushItem s.ownerBadges recipient id }
  let record ← unwrap (s.badgeType.get badgeType)
  let totalMinted ← expect (record.totalMinted.checkedAdd (.lit 1)) "arithmetic overflow"
  let s := { s with badgeType := s.badgeType.set badgeType { record with totalMinted } }
  let next ← id.add (.lit 1)
  let s := { s with nextId := some next }
  pure (id, s.publish [.symbol "mint", .symbol "to", .address recipient]
    [.u64 id, .symbol badgeType])

def transfer (_ : Env Address) (_ : Storage Address) (_ _ : Address) (_ : U64) :
    Outcome (Storage Address) :=
  .error (.panic "soulbound")

/-- A call of an entry point that can write, with its arguments. -/
inductive Call (Address : Type)
  | initializeContract (admin : Address)
  | createBadgeType (admin : Address) (badgeType description : String)
  | mintBadge (admin recipient : Address) (badgeType : String)
  | transfer (from_ to_ : Address) (id : U64)

/-- One call in its environment. The returned value is dropped; the entry points
above have it. -/
def exec (s : Storage Address) (i : Env Address × Call Address) : Outcome (Storage Address) :=
  match i.2 with
  | .initializeContract admin => initializeContract i.1 s admin
  | .createBadgeType admin badgeType description =>
    createBadgeType i.1 s admin badgeType description
  | .mintBadge admin recipient badgeType =>
    (mintBadge i.1 s admin recipient badgeType).map Prod.snd
  | .transfer from_ to_ id => transfer i.1 s from_ to_ id

/-! ## What an accepted call does -/

section Steps

variable {env : Env Address} {s s' : Storage Address} {admin : Address} {badgeType : String}

theorem initializeContract_ok :
    initializeContract env s admin = .ok s' ↔ s.admin.isSome = false ∧ admin ∈ env.auths ∧
      s' = { s with admin := some admin, nextId := some (.lit 1) } := by
  simp only [initializeContract, bind_eq_ok, assert_eq_ok, Env.requireAuth_eq_ok, exists_const,
    pure_eq_ok, @eq_comm _ s']

theorem createBadgeType_ok {description : String} :
    createBadgeType env s admin badgeType description = .ok s' ↔
      admin ∈ env.auths ∧ s.admin = some admin ∧ getBadgeType s badgeType = none ∧
      s' = { s with badgeType := s.badgeType.set badgeType ⟨badgeType, description, 0⟩ } := by
  simp only [createBadgeType, bind_eq_ok, assert_eq_ok, Env.requireAuth_eq_ok, unwrap_eq_ok,
    exists_const, pure_eq_ok, Table.has_eq_false]
  constructor
  · rintro ⟨hauth, storedAdmin, hadmin, rfl, hnew, rfl⟩
    exact ⟨hauth, hadmin, hnew, rfl⟩
  · rintro ⟨hauth, hadmin, hnew, rfl⟩
    exact ⟨hauth, admin, hadmin, rfl, hnew, rfl⟩

/-- A mint files a badge under the next id, which it puts at the end of the recipient's
list, and counts it for its type. -/
theorem mintBadge_ok {recipient : Address} {id : U64}
    (h : mintBadge env s admin recipient badgeType = .ok (id, s')) :
    ∃ (record : BadgeTypeRecord) (totalMinted : U32) (next : U64),
      s.nextId = some id ∧ s'.nextId = some next ∧ next.val = id.val + 1 ∧
      s'.admin = s.admin ∧
      s'.badge = s.badge.set id ⟨id, recipient, badgeType, env.timestamp⟩ ∧
      s'.ownerBadges = pushItem s.ownerBadges recipient id ∧
      getBadgeType s badgeType = some record ∧ totalMinted.val = record.totalMinted.val + 1 ∧
      s'.badgeType = s.badgeType.set badgeType { record with totalMinted } := by
  simp only [mintBadge, bind_eq_ok, assert_eq_ok, Env.requireAuth_eq_ok, unwrap_eq_ok,
    expect_eq_ok, BoundedInt.add_eq_ok, exists_const, pure_eq_ok] at h
  obtain ⟨_, _, _, _, _, id', hid, record, hrecord, totalMinted, htotal, next, hnext, heq⟩ := h
  cases heq
  exact ⟨record, totalMinted, next, hid, rfl, hnext, rfl, rfl, rfl, hrecord,
    BoundedInt.checkedAdd_eq_some.mp htotal, rfl⟩

end Steps

/-! ## Initialised storages -/

/-- The storage after `initialize`. -/
def Initialised (admin : Address) (s : Storage Address) : Prop :=
  ∃ env, initializeContract env (Storage.fresh Address) admin = .ok s

/-- The contract with contract 1 as admin. -/
def exampleBadges : Storage Nat :=
  { Storage.fresh Nat with admin := some 1, nextId := some (.lit 1) }

theorem exampleBadges_initialised : Initialised 1 exampleBadges := ⟨exampleEnv 0 [1], rfl⟩

end Scoopdope.Badges

/-!
## Badges: bookkeeping

What a run of the contract is about is the list of the badges minted so far (`mints`).
The storage has it four times: as records under consecutive ids, as a list of ids for
each owner, as a counter for each type, and as the next id. `Booked` says that all of
them are read off the list. A mint appends one badge to the list, nothing else changes
it, and a badge is never transferred, so every reader answers for the list
(`badges_booked`).
-/

namespace Scoopdope.Badges

open Soroban

variable {Address : Type} [DecidableEq Address]

/-- The badge a call mints. -/
def mintedBadge (s : Storage Address) (i : Env Address × Call Address) :
    Option (BadgeRecord Address) :=
  match i.2 with
  | .mintBadge admin recipient badgeType =>
    match mintBadge i.1 s admin recipient badgeType with
    | .ok (id, _) => some ⟨id, recipient, badgeType, i.1.timestamp⟩
    | .error _ => none
  | _ => none

/-- An accepted call appends the badge it mints. -/
def mintStep (minted : List (BadgeRecord Address)) (s : Storage Address)
    (i : Env Address × Call Address) : List (BadgeRecord Address) :=
  minted ++ (mintedBadge s i).toList

/-- The badges minted in a run, oldest first. -/
def mints (s₀ : Storage Address) (past : List (Env Address × Call Address)) :
    List (BadgeRecord Address) :=
  traced exec s₀ mintStep [] past

/-- 1 for a badge of the type. -/
def ofType (badgeType : String) (badge : BadgeRecord Address) : Int :=
  if badge.badgeType = badgeType then 1 else 0

/-- The badges counted for a type; none are where the type does not exist. -/
def typeCount (s : Storage Address) (badgeType : String) : Int :=
  match getBadgeType s badgeType with
  | some record => record.totalMinted.val
  | none => 0

/-- Everything stored is read off the list of the badges minted. -/
structure Booked (s : Storage Address) (minted : List (BadgeRecord Address)) : Prop where
  admin : s.admin.isSome
  filed : Filed 1 (getBadge s) minted
  next : ∃ next, s.nextId = some next ∧ next.val = 1 + minted.length
  numbered : ∀ (k : Nat) badge, minted[k]? = some badge → badge.id.val = 1 + (k : Int)
  owners : ∀ owner, ownerIds s owner = (minted.filter fun b => b.owner = owner).map BadgeRecord.id
  types : ∀ badgeType, typeCount s badgeType = Table.total (ofType badgeType) s.badge

omit [DecidableEq Address] in
theorem typeCount_set {s s' : Storage Address} {badgeType : String} {record : BadgeTypeRecord}
    (h : s'.badgeType = s.badgeType.set badgeType record) (t : String) :
    typeCount s' t = if t = badgeType then record.totalMinted.val else typeCount s t := by
  unfold typeCount getBadgeType
  rw [h, Table.get_set]
  by_cases ht : t = badgeType
  · simp [ht]
  · simp [ht]

namespace Booked

variable {s s' : Storage Address} {minted : List (BadgeRecord Address)}

/-- A minted badge is stored under its id. -/
theorem get_of_mem (h : Booked s minted) {badge : BadgeRecord Address} (hb : badge ∈ minted) :
    getBadge s badge.id = some badge := by
  obtain ⟨k, hk⟩ := List.mem_iff_getElem?.mp hb
  have hnum := h.numbered k badge hk
  exact h.filed.get_of_getElem? (by omega) hk

/-- A stored badge was minted, under the id where it is stored. -/
theorem mem_of_get (h : Booked s minted) {id : U64} {badge : BadgeRecord Address}
    (hb : getBadge s id = some badge) : badge ∈ minted ∧ badge.id = id := by
  have hget := h.filed id
  rw [hb] at hget
  split at hget
  · next hid =>
    refine ⟨List.mem_of_getElem? hget.symm, BoundedInt.ext ?_⟩
    have hnum := h.numbered _ badge hget.symm
    have hlo := id.lo_le
    omega
  · cases hget

theorem getBadge_iff (h : Booked s minted) (id : U64) (badge : BadgeRecord Address) :
    getBadge s id = some badge ↔ badge ∈ minted ∧ badge.id = id := by
  constructor
  · exact h.mem_of_get
  · rintro ⟨hb, rfl⟩
    exact h.get_of_mem hb

/-- The ids in use are those from 1 to below the next id. -/
theorem isSome_iff (h : Booked s minted) (id : U64) :
    (getBadge s id).isSome ↔ 1 ≤ id.val ∧ ∃ next, s.nextId = some next ∧ id.val < next.val := by
  obtain ⟨next, hnext, hlen⟩ := h.next
  rw [h.filed.isSome_iff, hnext]
  constructor
  · rintro ⟨hlo, hlt⟩
    exact ⟨hlo, next, rfl, by omega⟩
  · rintro ⟨hlo, n, hn, hlt⟩
    cases hn
    exact ⟨hlo, by omega⟩

/-- No id is minted twice. -/
theorem nodup (h : Booked s minted) : (minted.map BadgeRecord.id).Nodup := by
  refine List.nodup_iff_getElem?_ne_getElem?.mpr fun j k hjk hk heq => ?_
  rw [List.length_map] at hk
  have hj := lt_trans hjk hk
  rw [List.getElem?_map, List.getElem?_map, List.getElem?_eq_getElem hk,
    List.getElem?_eq_getElem hj] at heq
  have hidj := h.numbered j _ (List.getElem?_eq_getElem hj)
  have hidk := h.numbered k _ (List.getElem?_eq_getElem hk)
  have hid := congrArg BoundedInt.val (Option.some.inj heq)
  omega

theorem getBadgesByOwner_eq (h : Booked s minted) (owner : Address) :
    getBadgesByOwner s owner = minted.filter fun b => b.owner = owner := by
  have hread : getBadgesByOwner s owner = (ownerIds s owner).filterMap (getBadge s) := by
    unfold getBadgesByOwner ownerIds listAt
    cases s.ownerBadges.get owner with
    | none => rfl
    | some ids => rfl
  rw [hread, h.owners, List.filterMap_map]
  refine (List.filterMap_congr fun badge hb => ?_).trans List.filterMap_some
  exact h.get_of_mem (List.mem_of_mem_filter hb)

theorem verifyBadge_iff (h : Booked s minted) (owner : Address) (badgeType : String) :
    verifyBadge s owner badgeType = true ↔
      ∃ badge ∈ minted, badge.owner = owner ∧ badge.badgeType = badgeType := by
  simp [verifyBadge, h.getBadgesByOwner_eq]

/-- A new type has no badges. -/
theorem createBadgeType (h : Booked s minted) {env : Env Address} {admin : Address}
    {badgeType description : String}
    (he : createBadgeType env s admin badgeType description = .ok s') : Booked s' minted := by
  obtain ⟨_, _, hnew, rfl⟩ := createBadgeType_ok.mp he
  refine ⟨h.admin, h.filed, h.next, h.numbered, h.owners, fun t => ?_⟩
  rw [typeCount_set (s := s) rfl]
  split
  · next ht =>
    have hnone : typeCount s t = 0 := by rw [typeCount, ht, hnew]
    exact hnone.symm.trans (h.types t)
  · exact h.types t

/-- A mint appends one badge. -/
theorem mintBadge (h : Booked s minted) {env : Env Address} {admin recipient : Address}
    {badgeType : String} {id : U64}
    (he : mintBadge env s admin recipient badgeType = .ok (id, s')) :
    Booked s' (minted ++ [⟨id, recipient, badgeType, env.timestamp⟩]) := by
  obtain ⟨record, totalMinted, next, hid, hnext', hnext, hadmin, hbadge, howners, hrecord, htotal,
    htypes⟩ := mintBadge_ok he
  obtain ⟨id', hid', hlen⟩ := h.next
  cases hid.symm.trans hid'
  have hfree : getBadge s id = none := by
    rw [← Option.not_isSome_iff_eq_none, h.filed.isSome_iff]
    omega
  refine ⟨?_, h.filed.push hlen _ fun n => ?_, ⟨next, hnext', ?_⟩, fun k badge hk => ?_,
    fun owner => ?_, fun t => ?_⟩
  · rw [hadmin]
    exact h.admin
  · rw [getBadge, hbadge, Table.get_set]
    rfl
  · rw [List.length_append, List.length_singleton]
    omega
  · rw [List.getElem?_append] at hk
    split at hk
    · exact h.numbered k badge hk
    · next hge =>
      obtain ⟨hzero, hb⟩ := List.getElem?_eq_some_iff.mp hk
      rw [List.length_singleton] at hzero
      simp only [List.getElem_singleton] at hb
      rw [← hb]
      show id.val = 1 + k
      omega
  · have hown := h.owners owner
    unfold ownerIds at hown ⊢
    rw [howners, listAt_pushItem, List.filter_append, List.map_append, ← hown]
    by_cases ho : owner = recipient
    · simp [ho]
    · simp [ho, Ne.symm ho]
  · have hshare : Table.share (ofType t) s.badge id = 0 := by
      have hnone : s.badge.get id = none := hfree
      rw [Table.share, hnone]
      rfl
    have hcount := h.types t
    rw [typeCount_set htypes, hbadge, Table.total_set, hshare, ← hcount]
    split
    · next ht =>
      have hold : typeCount s t = record.totalMinted.val := by rw [typeCount, ht, hrecord]
      have hone : ofType t (⟨id, recipient, badgeType, env.timestamp⟩ : BadgeRecord Address) = 1 :=
        if_pos ht.symm
      rw [hone, hold, htotal]
      omega
    · next ht =>
      have hzero : ofType t (⟨id, recipient, badgeType, env.timestamp⟩ : BadgeRecord Address) = 0 :=
        if_neg (Ne.symm ht)
      rw [hzero]
      omega

theorem step (h : Booked s minted) {i : Env Address × Call Address} (he : exec s i = .ok s') :
    Booked s' (mintStep minted s i) := by
  obtain ⟨env, call⟩ := i
  cases call with
  | initializeContract admin =>
    obtain ⟨hadmin, _⟩ := initializeContract_ok.mp he
    have hsome := h.admin
    rw [hadmin] at hsome
    cases hsome
  | createBadgeType admin badgeType description =>
    have hsame := h.createBadgeType he
    rw [← List.append_nil minted] at hsame
    exact hsame
  | mintBadge admin recipient badgeType =>
    obtain ⟨id, hc⟩ := map_snd_eq_ok.mp he
    have hcall : Badges.mintBadge env s admin recipient badgeType = .ok (id, s') := hc
    have hbadge : mintedBadge s (env, .mintBadge admin recipient badgeType) =
        some ⟨id, recipient, badgeType, env.timestamp⟩ := by
      simp only [mintedBadge, hcall]
    rw [mintStep, hbadge]
    exact h.mintBadge hc
  | transfer from_ to_ id => cases he

end Booked

/-! ## Runs -/

section Runs

variable {admin : Address} {s₀ : Storage Address}

theorem Initialised.booked (h : Initialised admin s₀) : Booked s₀ [] := by
  obtain ⟨env, h⟩ := h
  obtain ⟨_, _, rfl⟩ := initializeContract_ok.mp h
  exact ⟨rfl, Filed.empty, ⟨.lit 1, rfl, rfl⟩, nofun, fun _ => rfl, fun _ => rfl⟩

theorem booked_after (h : Initialised admin s₀) (past : List (Env Address × Call Address)) :
    Booked (after exec s₀ past) (mints s₀ past) :=
  after_traced h.booked past fun _ _ _ _ hs he => hs.step he

/-- Badges are minted at the end of the list only. -/
theorem mints_extend {earlier past : List (Env Address × Call Address)} (hsuf : earlier <:+ past) :
    mints s₀ earlier <+: mints s₀ past := by
  induction past with
  | nil =>
    rw [List.suffix_nil.mp hsuf]
  | cons i past ih =>
    rcases List.suffix_cons_iff.mp hsuf with rfl | hsuf
    · exact List.prefix_refl _
    · refine (ih hsuf).trans ?_
      unfold mints
      cases he : exec (after exec s₀ past) i with
      | ok s' =>
        rw [traced_ok he]
        exact List.prefix_append _ _
      | error t =>
        rw [traced_error he]

/-- In every run the ids in use are those from 1 to below the next id; a stored badge
stays; the readers answer for the badges minted to an owner, each once and in order; and
each type counts its stored badges. -/
theorem badges_booked (h : Initialised admin s₀) (past : List (Env Address × Call Address)) :
    (∀ id, (getBadge (after exec s₀ past) id).isSome ↔
      1 ≤ id.val ∧ ∃ next, (after exec s₀ past).nextId = some next ∧ id.val < next.val) ∧
    (∀ earlier id badge, earlier <:+ past → getBadge (after exec s₀ earlier) id = some badge →
      getBadge (after exec s₀ past) id = some badge) ∧
    (∀ id badge, getBadge (after exec s₀ past) id = some badge ↔
      badge ∈ mints s₀ past ∧ badge.id = id) ∧
    ((mints s₀ past).map BadgeRecord.id).Nodup ∧
    (∀ owner, getBadgesByOwner (after exec s₀ past) owner =
      (mints s₀ past).filter fun badge => badge.owner = owner) ∧
    (∀ owner badgeType, verifyBadge (after exec s₀ past) owner badgeType = true ↔
      ∃ badge ∈ mints s₀ past, badge.owner = owner ∧ badge.badgeType = badgeType) ∧
    ∀ badgeType record, getBadgeType (after exec s₀ past) badgeType = some record →
      record.totalMinted.val = Table.total
        (fun badge => if badge.badgeType = badgeType then (1 : Int) else 0)
        (after exec s₀ past).badge := by
  have hs := booked_after h past
  refine ⟨hs.isSome_iff, ?_, hs.getBadge_iff, hs.nodup, hs.getBadgesByOwner_eq,
    hs.verifyBadge_iff, ?_⟩
  · intro earlier id badge hsuf hget
    obtain ⟨hmem, hid⟩ := (booked_after h earlier).mem_of_get hget
    exact (hs.getBadge_iff id badge).mpr ⟨(mints_extend hsuf).subset hmem, hid⟩
  · intro badgeType record hrecord
    have hcount := hs.types badgeType
    rw [typeCount, hrecord] at hcount
    exact hcount

/-- Two types; contract 5 gets one badge of each, contract 6 one, and one transfer is
refused. -/
def exampleBadgeRun : List (Env Nat × Call Nat) :=
  [(exampleEnv 0 [1], .mintBadge 1 5 "second"),
    (exampleEnv 0 [5], .transfer 5 6 (.lit 1)),
    (exampleEnv 0 [1], .mintBadge 1 6 "first"),
    (exampleEnv 0 [1], .mintBadge 1 5 "first"),
    (exampleEnv 0 [1], .createBadgeType 1 "second" ""),
    (exampleEnv 0 [1], .createBadgeType 1 "first" "")]

theorem badges_booked_two_types :
    getBadgesByOwner (after exec exampleBadges exampleBadgeRun) 5 =
      [⟨.lit 1, 5, "first", .lit 0⟩, ⟨.lit 3, 5, "second", .lit 0⟩] :=
  ((badges_booked exampleBadges_initialised exampleBadgeRun).2.2.2.2.1 5).trans
    (by decide +kernel)

end Runs

end Scoopdope.Badges

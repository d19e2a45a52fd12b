import Scoopdope.Soroban.Env
import Scoopdope.Soroban.Registry

/-!
# Credential metadata on chain

`CredentialMetadataContract` (`contracts/credential_metadata/src/lib.rs`): what a credential is
about, stored by the admin under ids the contract gives out.

`store_metadata` refuses to overwrite a record, and `update_metadata` overwrites the details of
one on purpose. The first refusal is never needed: the next id is free in every run
(`Holds.free`). The second is all that changes a record, so its id and its student are those of
the call that stored it and its details those of the last call that wrote it (`metadata_kept`).
-/

namespace Scoopdope.CredentialMetadata

open Soroban

/-- The part of a record that an update replaces. -/
structure Details where
  courseName : String
  completionDate : U64
  grade : String
  skills : List String
deriving DecidableEq

structure MetadataRecord (Address : Type) extends Details where
  credentialId : U64
  student : Address
deriving DecidableEq

structure Storage (Address : Type) where
  /- Instance storage. -/
  admin : Option Address
  nextCredentialId : Option U64
  /- Persistent storage. -/
  metadata : Table U64 (MetadataRecord Address)
  studentCredentials : Table Address (List U64)
  /-- The events published so far, newest first. -/
  events : List (Event Address)

/-- The storage of a contract just deployed. -/
def Storage.fresh (Address : Type) : Storage Address where
  admin := none
  nextCredentialId := none
  metadata := ∅
  studentCredentials := ∅
  events := []

variable {Address : Type}

/-- `env.events().publish(topics, data)`. -/
def Storage.publish (s : Storage Address) (topics data : List (Val Address)) : Storage Address :=
  { s with events := ⟨topics, data⟩ :: s.events }

/-! ## Readers -/

def getMetadata (s : Storage Address) (credentialId : U64) : Option (MetadataRecord Address) :=
  s.metadata.get credentialId

variable [DecidableEq Address]

def getStudentCredentials (s : Storage Address) (student : Address) :
    List (MetadataRecord Address) :=
  ((s.studentCredentials.get student).getD []).filterMap s.metadata.get

/-! ## Entry points -/

def initializeContract (env : Env Address) (s : Storage Address) (admin : Address) :
    Outcome (Storage Address) := do
  assert (s.admin.isSome = false) "Already initialized"
  env.requireAuth admin
  pure { s with admin := some admin, nextCredentialId := some (.lit 1) }

/-- The id that `store_metadata` gives out. -/
def freeId (s : Storage Address) : U64 := s.nextCredentialId.getD (.lit 1)

/-- The id of the new credential and the storage afterwards. -/
def storeMetadata (env : Env Address) (s : Storage Address) (admin student : Address)
    (details : Details) : Outcome (U64 × Storage Address) := do
  env.requireAuth admin
  let storedAdmin ← expect s.admin "Not initialized"
  assert (admin = storedAdmin) "Only admin can store metadata"
  let credentialId := freeId s
  assert (s.metadata.has credentialId = false)
    "Credential with this ID already exists - immutability violation"
  let metadata : MetadataRecord Address := { details with credentialId, student }
  let s := { s with metadata := s.metadata.set credentialId metadata }
  let s := { s with studentCredentials := pushItem s.studentCredentials student credentialId }
  let next ← credentialId.add (.lit 1)
  let s := { s with nextCredentialId := some next }
  pure (credentialId, s.publish [.symbol "store", .symbol "cred"] [.u64 credentialId])

def updateMetadata (env : Env Address) (s : Storage Address) (admin : Address)
    (credentialId : U64) (details : Details) : Outcome (Storage Address) := do
  env.requireAuth admin
  let storedAdmin ← expect s.admin "Not initialized"
  assert (admin = storedAdmin) "Only admin can update metadata"
  let metadata ← expect (s.metadata.get credentialId) "Credential does not exist"
  let metadata := { metadata with toDetails := details }
  let s := { s with metadata := s.metadata.set credentialId metadata }
  pure (s.publish [.symbol "update", .symbol "cred"] [.u64 credentialId])

/-- A call of an entry point that can write, with its arguments. -/
inductive Call (Address : Type)
  | initializeContract (admin : Address)
  | storeMetadata (admin student : Address) (details : Details)
  | updateMetadata (admin : Address) (credentialId : U64) (details : Details)

/-- One call in its environment. The returned value is dropped; the entry points
above have it. -/
def exec (s : Storage Address) (i : Env Address × Call Address) : Outcome (Storage Address) :=
  match i.2 with
  | .initializeContract admin => initializeContract i.1 s admin
  | .storeMetadata admin student details =>
    (storeMetadata i.1 s admin student details).map Prod.snd
  | .updateMetadata admin credentialId details => updateMetadata i.1 s admin credentialId details

/-! ## What an accepted call does -/

section Steps

variable {env : Env Address} {s s' : Storage Address} {admin : Address}

theorem initializeContract_ok :
    initializeContract env s admin = .ok s' ↔ s.admin.isSome = false ∧ admin ∈ env.auths ∧
      s' = { s with admin := some admin, nextCredentialId := some (.lit 1) } := by
  simp only [initializeContract, bind_eq_ok, assert_eq_ok, Env.requireAuth_eq_ok, exists_const,
    pure_eq_ok, @eq_comm _ s']

theorem storeMetadata_ok {student : Address} {details : Details} {id : U64}
    (h : storeMetadata env s admin student details = .ok (id, s')) :
    ∃ next : U64, admin ∈ env.auths ∧ s.admin = some admin ∧ s'.admin = some admin ∧
      id = freeId s ∧ s'.nextCredentialId = some next ∧ next.val = id.val + 1 ∧
      s'.metadata = s.metadata.set id ⟨details, id, student⟩ ∧
      s'.studentCredentials = pushItem s.studentCredentials student id := by
  simp only [storeMetadata, bind_eq_ok, assert_eq_ok, Env.requireAuth_eq_ok, expect_eq_ok,
    BoundedInt.add_eq_ok, exists_const, pure_eq_ok] at h
  obtain ⟨hauth, storedAdmin, hadmin, rfl, -, next, hnext, heq⟩ := h
  cases heq
  exact ⟨next, hauth, hadmin, hadmin, rfl, rfl, hnext, rfl, rfl⟩

/-- A store writes one record. -/
theorem getMetadata_store {student : Address} {details : Details} {new : U64}
    (h : storeMetadata env s admin student details = .ok (new, s')) (id : U64) :
    getMetadata s' id = if id = freeId s then some ⟨details, freeId s, student⟩
      else getMetadata s id := by
  obtain ⟨next, -, -, -, rfl, -, -, hmetadata, -⟩ := storeMetadata_ok h
  rw [getMetadata, hmetadata, Table.get_set]
  rfl

theorem updateMetadata_ok {credentialId : U64} {details : Details}
    (h : updateMetadata env s admin credentialId details = .ok s') :
    ∃ old, admin ∈ env.auths ∧ s.admin = some admin ∧ s'.admin = some admin ∧
      getMetadata s credentialId = some old ∧ s'.nextCredentialId = s.nextCredentialId ∧
      s'.metadata = s.metadata.set credentialId { old with toDetails := details } ∧
      s'.studentCredentials = s.studentCredentials := by
  simp only [updateMetadata, bind_eq_ok, assert_eq_ok, Env.requireAuth_eq_ok, expect_eq_ok,
    exists_const, pure_eq_ok] at h
  obtain ⟨hauth, storedAdmin, hadmin, rfl, old, hold, rfl⟩ := h
  exact ⟨old, hauth, hadmin, hadmin, hold, rfl, rfl, rfl⟩

end Steps

/-! ## Initialised storages -/

/-- The storage after `initialize`. -/
def Initialised (admin : Address) (s : Storage Address) : Prop :=
  ∃ env, initializeContract env (Storage.fresh Address) admin = .ok s

/-- The contract with contract 1 as admin. -/
def exampleMetadata : Storage Nat :=
  { Storage.fresh Nat with admin := some 1, nextCredentialId := some (.lit 1) }

theorem exampleMetadata_initialised : Initialised 1 exampleMetadata := ⟨exampleEnv 0 [1], rfl⟩

/-! ## The records of a run -/

/-- An accepted store appends a record; an accepted update replaces the details of one. -/
def recordStep (records : List (MetadataRecord Address)) (s : Storage Address)
    (i : Env Address × Call Address) : List (MetadataRecord Address) :=
  match i.2 with
  | .initializeContract _ => records
  | .storeMetadata _ student details => records ++ [⟨details, freeId s, student⟩]
  | .updateMetadata _ credentialId details =>
    match getMetadata s credentialId with
    | some old => records.set (credentialId.val - 1).toNat { old with toDetails := details }
    | none => records

/-- The records of a run, in the order they were stored and with the details they have. -/
def records (s₀ : Storage Address) (past : List (Env Address × Call Address)) :
    List (MetadataRecord Address) :=
  traced exec s₀ recordStep [] past

/-- The records are a registry, and the admin is the one of the start. -/
structure Holds (admin : Address) (s : Storage Address) (log : List (MetadataRecord Address)) :
    Prop where
  admin : s.admin = some admin
  registered : Registered MetadataRecord.credentialId MetadataRecord.student (getMetadata s)
    (listAt s.studentCredentials) s.nextCredentialId log

namespace Holds

variable {admin : Address} {s s' : Storage Address} {log : List (MetadataRecord Address)}

theorem nextCredentialId_eq (h : Holds admin s log) : s.nextCredentialId = some (freeId s) := by
  obtain ⟨n, hn, -⟩ := h.registered.next
  rw [freeId, hn]
  rfl

/-- The id that a store gives out is free. -/
theorem free (h : Holds admin s log) : getMetadata s (freeId s) = none :=
  h.registered.get_next h.nextCredentialId_eq

theorem storeMetadata (h : Holds admin s log) {env : Env Address} {caller student : Address}
    {details : Details} {new : U64}
    (he : storeMetadata env s caller student details = .ok (new, s')) :
    Holds admin s' (log ++ [⟨details, freeId s, student⟩]) := by
  have hget := getMetadata_store he
  obtain ⟨next, -, hcaller, hadmin, rfl, hnext', hnext, -, hstudents⟩ := storeMetadata_ok he
  have hsame : caller = admin := Option.some.inj (hcaller.symm.trans h.admin)
  refine ⟨by rw [hadmin, hsame], h.registered.push h.nextCredentialId_eq hnext' hnext hget ?_⟩
  intro a
  rw [hstudents, listAt_pushItem]
  by_cases ha : a = student
  · rw [if_pos ha, if_pos ha, ha]
  · rw [if_neg ha, if_neg ha]

theorem updateMetadata (h : Holds admin s log) {env : Env Address} {caller : Address}
    {id : U64} {details : Details} (he : updateMetadata env s caller id details = .ok s') :
    ∃ old, getMetadata s id = some old ∧
      (∀ k, getMetadata s' k =
        if k = id then some { old with toDetails := details } else getMetadata s k) ∧
      Holds admin s' (log.set (id.val - 1).toNat { old with toDetails := details }) := by
  obtain ⟨old, -, hcaller, hadmin, hold, hnext, hmetadata, hstudents⟩ := updateMetadata_ok he
  have hsame : caller = admin := Option.some.inj (hcaller.symm.trans h.admin)
  have hget : ∀ k, getMetadata s' k =
      if k = id then some { old with toDetails := details } else getMetadata s k := by
    intro k
    rw [getMetadata, hmetadata, Table.get_set]
    rfl
  obtain ⟨-, -, hid⟩ := h.registered.getElem?_of_get hold
  subst hid
  refine ⟨old, hold, hget, by rw [hadmin, hsame], ?_⟩
  rw [hnext, hstudents]
  exact h.registered.replace hold rfl rfl hget

theorem step (h : Holds admin s log) {i : Env Address × Call Address}
    (he : exec s i = .ok s') : Holds admin s' (recordStep log s i) := by
  obtain ⟨env, call⟩ := i
  cases call with
  | initializeContract caller =>
    obtain ⟨hnone, -⟩ := initializeContract_ok.mp he
    rw [h.admin] at hnone
    cases hnone
  | storeMetadata caller student details =>
    obtain ⟨new, hc⟩ := map_snd_eq_ok.mp he
    exact h.storeMetadata hc
  | updateMetadata caller id details =>
    obtain ⟨old, hold, -, hs⟩ := h.updateMetadata he
    simp only [recordStep, hold]
    exact hs

theorem getStudentCredentials_eq (h : Holds admin s log) (student : Address) :
    getStudentCredentials s student = log.filter fun r => r.student = student :=
  h.registered.filterMap_ids student

end Holds

/-! ## What a record says -/

/-- The details that a call writes under an id, if it is accepted. -/
def written (id : U64) (s : Storage Address) (i : Env Address × Call Address) : Option Details :=
  match i.2 with
  | .initializeContract _ => none
  | .storeMetadata _ _ details => if id = freeId s then some details else none
  | .updateMetadata _ credentialId details => if id = credentialId then some details else none

/-- The details of the last accepted call of a run that wrote under the id. -/
def lastWritten (s₀ : Storage Address) (id : U64) (past : List (Env Address × Call Address)) :
    Option Details :=
  traced exec s₀ (fun last s i => (written id s i).or last) none past

/-- The student that a call stores a record for under an id, if it is accepted. -/
def storedFor (id : U64) (s : Storage Address) (i : Env Address × Call Address) :
    Option Address :=
  match i.2 with
  | .storeMetadata _ student _ => if id = freeId s then some student else none
  | _ => none

/-- The student of the first accepted call of a run that stored a record under the id. -/
def firstStored (s₀ : Storage Address) (id : U64) (past : List (Env Address × Call Address)) :
    Option Address :=
  traced exec s₀ (fun first s i => first.or (storedFor id s i)) none past

section Runs

variable {admin : Address} {s₀ : Storage Address}

theorem Initialised.holds (h : Initialised admin s₀) : Holds admin s₀ [] := by
  obtain ⟨env, h⟩ := h
  obtain ⟨-, -, rfl⟩ := initializeContract_ok.mp h
  exact ⟨rfl, Registered.empty⟩

theorem holds_after (h : Initialised admin s₀) (past : List (Env Address × Call Address)) :
    Holds admin (after exec s₀ past) (records s₀ past) :=
  after_traced h.holds past fun _ _ _ _ hs he => hs.step he

theorem Initialised.getMetadata_eq (h : Initialised admin s₀) (id : U64) :
    getMetadata s₀ id = none := by
  obtain ⟨env, h⟩ := h
  obtain ⟨-, -, rfl⟩ := initializeContract_ok.mp h
  rfl

/-- What one accepted call does to the record under an id. -/
theorem getMetadata_step {s s' : Storage Address} {log : List (MetadataRecord Address)}
    (h : Holds admin s log) {i : Env Address × Call Address} (he : exec s i = .ok s') (id : U64) :
    (getMetadata s' id).map MetadataRecord.toDetails =
        (written id s i).or ((getMetadata s id).map MetadataRecord.toDetails) ∧
      (getMetadata s' id).map MetadataRecord.student =
        ((getMetadata s id).map MetadataRecord.student).or (storedFor id s i) := by
  obtain ⟨env, call⟩ := i
  cases call with
  | initializeContract caller =>
    obtain ⟨hnone, -⟩ := initializeContract_ok.mp he
    rw [h.admin] at hnone
    cases hnone
  | storeMetadata caller student details =>
    obtain ⟨new, hc⟩ := map_snd_eq_ok.mp he
    rw [getMetadata_store hc id]
    simp only [written, storedFor]
    split
    · next heq =>
      rw [heq, h.free]
      exact ⟨rfl, rfl⟩
    · exact ⟨Option.none_or.symm, Option.or_none.symm⟩
  | updateMetadata caller credentialId details =>
    obtain ⟨old, hold, hget, -⟩ := h.updateMetadata he
    rw [hget id]
    simp only [written, storedFor]
    split
    · next heq =>
      rw [heq, hold]
      exact ⟨rfl, rfl⟩
    · exact ⟨Option.none_or.symm, Option.or_none.symm⟩

theorem getMetadata_details (h : Initialised admin s₀)
    (past : List (Env Address × Call Address)) (id : U64) :
    (getMetadata (after exec s₀ past) id).map MetadataRecord.toDetails =
      lastWritten s₀ id past := by
  refine after_traced (R := fun s g => (getMetadata s id).map MetadataRecord.toDetails = g) ?_ past
    fun e i s' _ hs he => ?_
  · rw [h.getMetadata_eq]
    rfl
  · rw [(getMetadata_step (holds_after h e) he id).1, hs]

theorem getMetadata_student (h : Initialised admin s₀)
    (past : List (Env Address × Call Address)) (id : U64) :
    (getMetadata (after exec s₀ past) id).map MetadataRecord.student = firstStored s₀ id past := by
  refine after_traced (R := fun s g => (getMetadata s id).map MetadataRecord.student = g) ?_ past
    fun e i s' _ hs he => ?_
  · rw [h.getMetadata_eq]
    rfl
  · rw [(getMetadata_step (holds_after h e) he id).2, hs]

/-- The ids in use in a run are those from 1 to below the next one, and a student's records are
those stored for the student, in order. A record has the student of the call that stored it, and
the details of the last accepted call that wrote them, which may be an update. A stored record
stays stored, for the same student, and no store ever meets the check for an existing record. -/
theorem metadata_kept (h : Initialised admin s₀) (past : List (Env Address × Call Address)) :
    (∀ id, (getMetadata (after exec s₀ past) id).isSome ↔
      1 ≤ id.val ∧ ∃ next, (after exec s₀ past).nextCredentialId = some next ∧
        id.val < next.val) ∧
    (∀ student, getStudentCredentials (after exec s₀ past) student =
      (records s₀ past).filter fun r => r.student = student) ∧
    (∀ id r, getMetadata (after exec s₀ past) id = some r ↔
      r ∈ records s₀ past ∧ r.credentialId = id) ∧
    (∀ id r, getMetadata (after exec s₀ past) id = some r →
      lastWritten s₀ id past = some r.toDetails ∧ firstStored s₀ id past = some r.student) ∧
    (∀ earlier id r, earlier <:+ past → getMetadata (after exec s₀ earlier) id = some r →
      ∃ r', getMetadata (after exec s₀ past) id = some r' ∧ r'.student = r.student ∧
        r'.credentialId = r.credentialId) ∧
    ∀ env caller student details, storeMetadata env (after exec s₀ past) caller student details ≠
      .error (.panic "Credential with this ID already exists - immutability violation") := by
  have hs := holds_after h past
  refine ⟨hs.registered.isSome_iff, hs.getStudentCredentials_eq, hs.registered.get_iff, ?_, ?_, ?_⟩
  · intro id r hr
    rw [← getMetadata_details h past, ← getMetadata_student h past, hr]
    exact ⟨rfl, rfl⟩
  · intro earlier id r hsuf hr
    have hkept : (getMetadata (after exec s₀ past) id).map MetadataRecord.student =
        some r.student := by
      refine after_kept (P := fun s => (getMetadata s id).map MetadataRecord.student =
        some r.student) hsuf (by rw [hr]; rfl) fun i e s' _ _ hs he => ?_
      rw [(getMetadata_step (holds_after h e) he id).2, hs]
      rfl
    obtain ⟨r', hr', hstudent⟩ := Option.map_eq_some_iff.mp hkept
    refine ⟨r', hr', hstudent, ?_⟩
    rw [((hs.registered.get_iff id r').mp hr').2,
      (((holds_after h earlier).registered.get_iff id r).mp hr).2]
  · intro env caller student details herror
    have hfree : (after exec s₀ past).metadata.has (freeId (after exec s₀ past)) = false :=
      Table.has_eq_false.mpr hs.free
    simp only [storeMetadata, bind_eq_error, assert_eq_error, Env.requireAuth_eq_error,
      expect_eq_error, hfree] at herror
    simp [BoundedInt.add, BoundedInt.orOverflow_eq_error] at herror

/-- Two credentials for contract 5, the second one corrected by an update. -/
def exampleMetadataRun : List (Env Nat × Call Nat) :=
  [(exampleEnv 0 [1], .updateMetadata 1 (.lit 3) ⟨"none", .lit 9, "F", []⟩),
    (exampleEnv 0 [1], .updateMetadata 1 (.lit 2) ⟨"Soroban", .lit 8, "A", ["soroban"]⟩),
    (exampleEnv 0 [1], .storeMetadata 1 5 ⟨"Soroban", .lit 8, "B", []⟩),
    (exampleEnv 0 [1], .storeMetadata 1 5 ⟨"Rust", .lit 7, "A", ["rust"]⟩)]

theorem metadata_kept_updated :
    getStudentCredentials (after exec exampleMetadata exampleMetadataRun) 5 =
      [⟨⟨"Rust", .lit 7, "A", ["rust"]⟩, .lit 1, 5⟩,
        ⟨⟨"Soroban", .lit 8, "A", ["soroban"]⟩, .lit 2, 5⟩] :=
  ((metadata_kept exampleMetadata_initialised exampleMetadataRun).2.1 5).trans (by decide +kernel)

end Runs

end Scoopdope.CredentialMetadata

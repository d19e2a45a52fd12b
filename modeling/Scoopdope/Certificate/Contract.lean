import Scoopdope.Soroban.Env
import Scoopdope.Soroban.Registry

/-!
# Certificates on chain

`CertificateContract` (`contracts/certificate/src/lib.rs`): certificates that the admin mints and
can revoke, and that cannot be transferred.

The certificates are a registry (`registered_after`). A revocation is a second record beside the
certificate. It is written once and nothing takes it away, so what is stored under an id is the one
accepted call that revoked it (`getRevocation_iff`). `certificate_status` puts the two together.
-/

namespace Scoopdope.Certificate

open Soroban

structure CertificateRecord (Address : Type) where
  id : U64
  owner : Address
  courseId : String
  metadataUrl : String
  issuedAt : U64
deriving DecidableEq

structure RevocationRecord where
  certificateId : U64
  revokedAt : U64
  reason : String
deriving DecidableEq

structure Storage (Address : Type) where
  /- Instance storage. -/
  admin : Option Address
  nextId : Option U64
  /- Persistent storage. -/
  certificate : Table U64 (CertificateRecord Address)
  ownerCertificates : Table Address (List U64)
  revocation : Table U64 RevocationRecord
  /-- The events published so far, newest first. -/
  events : List (Event Address)

/-- The storage of a contract just deployed. -/
def Storage.fresh (Address : Type) : Storage Address where
  admin := none
  nextId := none
  certificate := ∅
  ownerCertificates := ∅
  revocation := ∅
  events := []

variable {Address : Type}

/-- A `String` among the data of an event, by its bytes. -/
def Val.ofString (text : String) : Val Address := .bytes text.toUTF8.data.toList

/-- `env.events().publish(topics, data)`. -/
def Storage.publish (s : Storage Address) (topics data : List (Val Address)) : Storage Address :=
  { s with events := ⟨topics, data⟩ :: s.events }

/-! ## Readers -/

def getAdmin (s : Storage Address) : Outcome Address := unwrap s.admin

def getCertificate (s : Storage Address) (id : U64) : Option (CertificateRecord Address) :=
  s.certificate.get id

def isRevoked (s : Storage Address) (certId : U64) : Bool := s.revocation.has certId

def getRevocation (s : Storage Address) (certId : U64) : Option RevocationRecord :=
  s.revocation.get certId

variable [DecidableEq Address]

def getCertificatesByOwner (s : Storage Address) (owner : Address) :
    List (CertificateRecord Address) :=
  match s.ownerCertificates.get owner with
  | some ids => ids.filterMap s.certificate.get
  | none => []

/-! ## Entry points -/

def initializeContract (env : Env Address) (s : Storage Address) (admin : Address) :
    Outcome (Storage Address) := do
  assert (s.admin.isSome = false) "Already initialized"
  env.requireAuth admin
  pure { s with admin := some admin, nextId := some (.lit 1) }

/-- The id of the new certificate and the storage afterwards. -/
def mintCertificate (env : Env Address) (s : Storage Address) (admin recipient : Address)
    (courseId metadataUrl : String) : Outcome (U64 × Storage Address) := do
  env.requireAuth admin
  let storedAdmin ← unwrap s.admin
  assert (admin = storedAdmin) "Only admin can mint"
  let id ← unwrap s.nextId
  let cert : CertificateRecord Address :=
    { id, owner := recipient, courseId, metadataUrl, issuedAt := env.timestamp }
  let s := { s with certificate := s.certificate.set id cert }
  let s := { s with ownerCertificates := pushItem s.ownerCertificates recipient id }
  let next ← id.add (.lit 1)
  let s := { s with nextId := some next }
  pure (id, s.publish [.symbol "mint", .symbol "to", .address recipient]
    [.u64 id, .symbol courseId])

def revokeCertificate (env : Env Address) (s : Storage Address) (admin : Address) (certId : U64)
    (reason : String) : Outcome (Storage Address) := do
  env.requireAuth admin
  let storedAdmin ← unwrap s.admin
  assert (admin = storedAdmin) "Only admin can revoke"
  assert (s.certificate.has certId = true) "Certificate not found"
  assert (s.revocation.has certId = false) "Certificate already revoked"
  let revocation : RevocationRecord :=
    { certificateId := certId, revokedAt := env.timestamp, reason }
  let s := { s with revocation := s.revocation.set certId revocation }
  pure (s.publish [.symbol "revoke", .symbol "cert_id"] [.u64 certId, Val.ofString reason])

def transfer (_ : Env Address) (_ : Storage Address) (_ _ : Address) (_ : U64) :
    Outcome (Storage Address) :=
  .error (.panic "soulbound")

/-- A call of an entry point that can write, with its arguments. -/
inductive Call (Address : Type)
  | initializeContract (admin : Address)
  | mintCertificate (admin recipient : Address) (courseId metadataUrl : String)
  | revokeCertificate (admin : Address) (certId : U64) (reason : String)
  | transfer (from_ to_ : Address) (id : U64)

/-- One call in its environment. The returned value is dropped; the entry points
above have it. -/
def exec (s : Storage Address) (i : Env Address × Call Address) : Outcome (Storage Address) :=
  match i.2 with
  | .initializeContract admin => initializeContract i.1 s admin
  | .mintCertificate admin recipient courseId metadataUrl =>
    (mintCertificate i.1 s admin recipient courseId metadataUrl).map Prod.snd
  | .revokeCertificate admin certId reason => revokeCertificate i.1 s admin certId reason
  | .transfer from_ to_ id => transfer i.1 s from_ to_ id

/-! ## What an accepted call does -/

section Steps

variable {env : Env Address} {s s' : Storage Address} {admin : Address}

theorem initializeContract_ok :
    initializeContract env s admin = .ok s' ↔ s.admin.isSome = false ∧ admin ∈ env.auths ∧
      s' = { s with admin := some admin, nextId := some (.lit 1) } := by
  simp only [initializeContract, bind_eq_ok, assert_eq_ok, Env.requireAuth_eq_ok, exists_const,
    pure_eq_ok, @eq_comm _ s']

/-- A mint files a certificate under the next id, which it puts at the end of the recipient's
list. -/
theorem mintCertificate_ok {recipient : Address} {courseId metadataUrl : String} {id : U64}
    (h : mintCertificate env s admin recipient courseId metadataUrl = .ok (id, s')) :
    ∃ next : U64, admin ∈ env.auths ∧ s.admin = some admin ∧ s'.admin = some admin ∧
      s.nextId = some id ∧ s'.nextId = some next ∧ next.val = id.val + 1 ∧
      s'.certificate =
        s.certificate.set id ⟨id, recipient, courseId, metadataUrl, env.timestamp⟩ ∧
      s'.ownerCertificates = pushItem s.ownerCertificates recipient id ∧
      s'.revocation = s.revocation := by
  simp only [mintCertificate, bind_eq_ok, assert_eq_ok, Env.requireAuth_eq_ok, unwrap_eq_ok,
    BoundedInt.add_eq_ok, exists_const, pure_eq_ok] at h
  obtain ⟨hauth, storedAdmin, hadmin, rfl, id', hid, next, hnext, heq⟩ := h
  cases heq
  exact ⟨next, hauth, hadmin, hadmin, hid, rfl, hnext, rfl, rfl, rfl⟩

/-- A revocation needs a certificate that is not revoked, and writes its record only. -/
theorem revokeCertificate_ok {certId : U64} {reason : String}
    (h : revokeCertificate env s admin certId reason = .ok s') :
    admin ∈ env.auths ∧ s.admin = some admin ∧ s'.admin = some admin ∧
      (getCertificate s certId).isSome ∧ getRevocation s certId = none ∧
      s'.nextId = s.nextId ∧ s'.certificate = s.certificate ∧
      s'.ownerCertificates = s.ownerCertificates ∧
      s'.revocation = s.revocation.set certId ⟨certId, env.timestamp, reason⟩ := by
  simp only [revokeCertificate, bind_eq_ok, assert_eq_ok, Env.requireAuth_eq_ok, unwrap_eq_ok,
    exists_const, pure_eq_ok, Table.has_eq_false] at h
  obtain ⟨hauth, storedAdmin, hadmin, rfl, hcert, hnew, rfl⟩ := h
  exact ⟨hauth, hadmin, hadmin, hcert, hnew, rfl, rfl, rfl, rfl⟩

end Steps

/-! ## Initialised storages -/

/-- The storage after `initialize`. -/
def Initialised (admin : Address) (s : Storage Address) : Prop :=
  ∃ env, initializeContract env (Storage.fresh Address) admin = .ok s

/-- The contract with contract 1 as admin. -/
def exampleCertificates : Storage Nat :=
  { Storage.fresh Nat with admin := some 1, nextId := some (.lit 1) }

theorem exampleCertificates_initialised : Initialised 1 exampleCertificates :=
  ⟨exampleEnv 0 [1], rfl⟩

/-! ## The certificates of a run -/

/-- The certificate a call mints. -/
def mintedCertificate (s : Storage Address) (i : Env Address × Call Address) :
    Option (CertificateRecord Address) :=
  match i.2 with
  | .mintCertificate _ recipient courseId metadataUrl =>
    s.nextId.map fun id => ⟨id, recipient, courseId, metadataUrl, i.1.timestamp⟩
  | _ => none

/-- An accepted call appends the certificate it mints. -/
def mintStep (minted : List (CertificateRecord Address)) (s : Storage Address)
    (i : Env Address × Call Address) : List (CertificateRecord Address) :=
  minted ++ (mintedCertificate s i).toList

/-- The certificates minted in a run, oldest first. -/
def mints (s₀ : Storage Address) (past : List (Env Address × Call Address)) :
    List (CertificateRecord Address) :=
  traced exec s₀ mintStep [] past

/-- The certificates are a registry, and the admin is the one of the start. -/
structure Holds (admin : Address) (s : Storage Address)
    (minted : List (CertificateRecord Address)) : Prop where
  admin : s.admin = some admin
  registered : Registered CertificateRecord.id CertificateRecord.owner (getCertificate s)
    (listAt s.ownerCertificates) s.nextId minted

namespace Holds

variable {admin : Address} {s s' : Storage Address} {minted : List (CertificateRecord Address)}

theorem mintCertificate (h : Holds admin s minted) {env : Env Address}
    {caller recipient : Address} {courseId metadataUrl : String} {id : U64}
    (he : mintCertificate env s caller recipient courseId metadataUrl = .ok (id, s')) :
    Holds admin s' (minted ++ [⟨id, recipient, courseId, metadataUrl, env.timestamp⟩]) := by
  obtain ⟨next, -, hcaller, hadmin, hid, hnext', hnext, hcert, howners, -⟩ :=
    mintCertificate_ok he
  have hsame : caller = admin := Option.some.inj (hcaller.symm.trans h.admin)
  refine ⟨by rw [hadmin, hsame], h.registered.push hid hnext' hnext (fun k => ?_) fun a => ?_⟩
  · rw [getCertificate, hcert, Table.get_set]
    rfl
  · rw [howners, listAt_pushItem]
    by_cases ha : a = recipient
    · rw [if_pos ha, if_pos ha, ha]
    · rw [if_neg ha, if_neg ha]

theorem step (h : Holds admin s minted) {i : Env Address × Call Address}
    (he : exec s i = .ok s') : Holds admin s' (mintStep minted s i) := by
  obtain ⟨env, call⟩ := i
  cases call with
  | initializeContract caller =>
    obtain ⟨hnone, -⟩ := initializeContract_ok.mp he
    rw [h.admin] at hnone
    cases hnone
  | mintCertificate caller recipient courseId metadataUrl =>
    obtain ⟨id, hc⟩ := map_snd_eq_ok.mp he
    obtain ⟨-, -, -, -, hid, -⟩ := mintCertificate_ok hc
    have hminted : mintedCertificate s
        (env, .mintCertificate caller recipient courseId metadataUrl) =
        some ⟨id, recipient, courseId, metadataUrl, env.timestamp⟩ := by
      simp only [mintedCertificate, hid, Option.map_some]
    rw [mintStep, hminted]
    exact h.mintCertificate hc
  | revokeCertificate caller certId reason =>
    obtain ⟨-, hcaller, hadmin, -, -, hnext, hcert, howners, -⟩ := revokeCertificate_ok he
    have hsame : caller = admin := Option.some.inj (hcaller.symm.trans h.admin)
    have hget : getCertificate s' = getCertificate s := by
      funext id
      rw [getCertificate, hcert, getCertificate]
    rw [mintStep, mintedCertificate, Option.toList_none, List.append_nil]
    refine ⟨by rw [hadmin, hsame], ?_⟩
    rw [hget, howners, hnext]
    exact h.registered
  | transfer from_ to_ id => cases he

theorem getCertificatesByOwner_eq (h : Holds admin s minted) (owner : Address) :
    getCertificatesByOwner s owner = minted.filter fun c => c.owner = owner := by
  have hread : getCertificatesByOwner s owner =
      (listAt s.ownerCertificates owner).filterMap (getCertificate s) := by
    unfold getCertificatesByOwner listAt
    cases s.ownerCertificates.get owner with
    | none => rfl
    | some ids => rfl
  rw [hread, h.registered.filterMap_ids]

end Holds

section Runs

variable {admin : Address} {s₀ : Storage Address}

theorem Initialised.holds (h : Initialised admin s₀) : Holds admin s₀ [] := by
  obtain ⟨env, h⟩ := h
  obtain ⟨-, -, rfl⟩ := initializeContract_ok.mp h
  exact ⟨rfl, Registered.empty⟩

theorem holds_after (h : Initialised admin s₀) (past : List (Env Address × Call Address)) :
    Holds admin (after exec s₀ past) (mints s₀ past) :=
  after_traced h.holds past fun _ _ _ _ hs he => hs.step he

/-- A stored certificate stays as it is. -/
theorem getCertificate_kept (h : Initialised admin s₀)
    {earlier past : List (Env Address × Call Address)} (hsuf : earlier <:+ past) {id : U64}
    {cert : CertificateRecord Address}
    (hget : getCertificate (after exec s₀ earlier) id = some cert) :
    getCertificate (after exec s₀ past) id = some cert := by
  refine after_kept (P := fun s => getCertificate s id = some cert) hsuf hget ?_
  rintro ⟨env, call⟩ e s' - - hkept he
  cases call with
  | initializeContract caller =>
    obtain ⟨hnone, -⟩ := initializeContract_ok.mp he
    rw [(holds_after h e).admin] at hnone
    cases hnone
  | mintCertificate caller recipient courseId metadataUrl =>
    obtain ⟨new, hc⟩ := map_snd_eq_ok.mp he
    obtain ⟨next, -, -, -, hid, -, -, hcert, -, -⟩ := mintCertificate_ok hc
    have hfree := (holds_after h e).registered.get_next hid
    have hne : id ≠ new := by
      rintro rfl
      rw [hfree] at hkept
      cases hkept
    rw [getCertificate, hcert, Table.get_set, if_neg hne]
    exact hkept
  | revokeCertificate caller certId reason =>
    obtain ⟨-, -, -, -, -, -, hcert, -, -⟩ := revokeCertificate_ok he
    rw [getCertificate, hcert]
    exact hkept
  | transfer from_ to_ k => cases he

/-! ## Revocations -/

/-- The call, made after the calls `earlier`, is accepted and revokes the certificate with the
record `r`. -/
def Revokes (s₀ : Storage Address) (id : U64) (r : RevocationRecord)
    (earlier : List (Env Address × Call Address)) (i : Env Address × Call Address) : Prop :=
  Accepted exec s₀ earlier i ∧
    ∃ caller reason, i.2 = .revokeCertificate caller id reason ∧ r = ⟨id, i.1.timestamp, reason⟩

theorem Revokes.ok {id : U64} {r : RevocationRecord}
    {earlier : List (Env Address × Call Address)} {i : Env Address × Call Address}
    (h : Revokes s₀ id r earlier i) :
    (getCertificate (after exec s₀ earlier) id).isSome ∧
      getRevocation (after exec s₀ earlier) id = none ∧
      getRevocation (after exec s₀ (i :: earlier)) id = some r := by
  obtain ⟨⟨s', he⟩, caller, reason, hcall, rfl⟩ := h
  have hrevoke : revokeCertificate i.1 (after exec s₀ earlier) caller id reason = .ok s' := by
    rw [exec, hcall] at he
    exact he
  obtain ⟨-, -, -, hcert, hnone, -, -, -, hrevocation⟩ := revokeCertificate_ok hrevoke
  refine ⟨hcert, hnone, ?_⟩
  rw [after, apply_ok he, getRevocation, hrevocation, Table.get_set_self]

/-- A revocation is there to stay. -/
theorem getRevocation_kept {earlier past : List (Env Address × Call Address)}
    (hsuf : earlier <:+ past) {id : U64} {r : RevocationRecord}
    (hget : getRevocation (after exec s₀ earlier) id = some r) :
    getRevocation (after exec s₀ past) id = some r := by
  refine after_kept (P := fun s => getRevocation s id = some r) hsuf hget ?_
  rintro ⟨env, call⟩ e s' - - hkept he
  cases call with
  | initializeContract caller =>
    obtain ⟨-, -, rfl⟩ := initializeContract_ok.mp he
    exact hkept
  | mintCertificate caller recipient courseId metadataUrl =>
    obtain ⟨new, hc⟩ := map_snd_eq_ok.mp he
    obtain ⟨next, -, -, -, -, -, -, -, -, hrevocation⟩ := mintCertificate_ok hc
    rw [getRevocation, hrevocation]
    exact hkept
  | revokeCertificate caller certId reason =>
    obtain ⟨-, -, -, -, hnone, -, -, -, hrevocation⟩ := revokeCertificate_ok he
    have hne : id ≠ certId := by
      rintro rfl
      rw [hnone] at hkept
      cases hkept
    rw [getRevocation, hrevocation, Table.get_set, if_neg hne]
    exact hkept
  | transfer from_ to_ k => cases he

/-- What is stored as the revocation of a certificate is what an accepted call of the run
wrote. -/
theorem getRevocation_iff (h : Initialised admin s₀) (past : List (Env Address × Call Address))
    (id : U64) (r : RevocationRecord) :
    getRevocation (after exec s₀ past) id = some r ↔ Occurs (Revokes s₀ id r) past := by
  constructor
  · induction past with
    | nil =>
      intro hget
      obtain ⟨env, h⟩ := h
      obtain ⟨-, -, rfl⟩ := initializeContract_ok.mp h
      exact absurd hget Table.get_empty_ne_some
    | cons i past ih =>
      intro hget
      cases he : exec (after exec s₀ past) i with
      | error t =>
        rw [after, apply_error he] at hget
        exact (ih hget).cons i
      | ok s' =>
        rw [after, apply_ok he] at hget
        obtain ⟨env, call⟩ := i
        cases call with
        | initializeContract caller =>
          obtain ⟨-, -, rfl⟩ := initializeContract_ok.mp he
          exact (ih hget).cons _
        | mintCertificate caller recipient courseId metadataUrl =>
          obtain ⟨new, hc⟩ := map_snd_eq_ok.mp he
          obtain ⟨next, -, -, -, -, -, -, -, -, hrevocation⟩ := mintCertificate_ok hc
          rw [getRevocation, hrevocation] at hget
          exact (ih hget).cons _
        | revokeCertificate caller certId reason =>
          obtain ⟨-, -, -, -, -, -, -, -, hrevocation⟩ := revokeCertificate_ok he
          rw [getRevocation, hrevocation, Table.get_set] at hget
          split at hget
          · next heq =>
            cases hget
            exact .head ⟨⟨s', he⟩, caller, reason, by rw [heq], by rw [heq]⟩
          · exact (ih hget).cons _
        | transfer from_ to_ k => cases he
  · rintro ⟨i, earlier, hs, hrevokes⟩
    exact getRevocation_kept hs hrevokes.ok.2.2

/-- A certificate is revoked at most once. -/
theorem revoked_once {past e f : List (Env Address × Call Address)}
    {i j : Env Address × Call Address} {id : U64} {r r' : RevocationRecord}
    (hi : i :: e <:+ past) (hri : Revokes s₀ id r e i) (hj : j :: f <:+ past)
    (hrj : Revokes s₀ id r' f j) : i :: e = j :: f := by
  -- The later of two would have found the record of the earlier one.
  have hlater : ∀ {i j : Env Address × Call Address} {e f : List (Env Address × Call Address)}
      {r r' : RevocationRecord}, Revokes s₀ id r e i → Revokes s₀ id r' f j →
      i :: e <:+ j :: f → i :: e = j :: f := by
    intro i j e f r r' hri hrj hsuf
    rcases List.suffix_cons_iff.mp hsuf with heq | hbefore
    · exact heq
    · have hfound := getRevocation_kept hbefore hri.ok.2.2
      rw [hrj.ok.2.1] at hfound
      cases hfound
  rcases List.suffix_or_suffix_of_suffix hi hj with hs | hs
  · exact hlater hri hrj hs
  · exact (hlater hrj hri hs).symm

/-- The certificates of a run are those minted, under the ids from 1 to below the next one, and
`getCertificatesByOwner` has those of an owner in the order they were minted. None changes or
goes away. A certificate is revoked exactly where a call of the run revoked it, with the time and
the reason of that call; it had been minted before, no second call revokes it, and no call takes
the revocation back. Only the admin of the start mints and revokes. -/
theorem certificate_status (h : Initialised admin s₀)
    (past : List (Env Address × Call Address)) :
    (∀ id, (getCertificate (after exec s₀ past) id).isSome ↔
      1 ≤ id.val ∧ ∃ next, (after exec s₀ past).nextId = some next ∧ id.val < next.val) ∧
    (∀ id cert, getCertificate (after exec s₀ past) id = some cert ↔
      cert ∈ mints s₀ past ∧ cert.id = id) ∧
    (∀ owner, getCertificatesByOwner (after exec s₀ past) owner =
      (mints s₀ past).filter fun cert => cert.owner = owner) ∧
    (∀ earlier id cert, earlier <:+ past →
      getCertificate (after exec s₀ earlier) id = some cert →
      getCertificate (after exec s₀ past) id = some cert) ∧
    (∀ id r, getRevocation (after exec s₀ past) id = some r ↔ Occurs (Revokes s₀ id r) past) ∧
    (∀ i e id r, i :: e <:+ past → Revokes s₀ id r e i →
      (getCertificate (after exec s₀ e) id).isSome ∧ isRevoked (after exec s₀ e) id = false ∧
      ∀ later, i :: e <:+ later → isRevoked (after exec s₀ later) id = true) ∧
    (∀ i j e f id r r', i :: e <:+ past → Revokes s₀ id r e i → j :: f <:+ past →
      Revokes s₀ id r' f j → i :: e = j :: f) ∧
    ∀ i e, i :: e <:+ past → Accepted exec s₀ e i → admin ∈ i.1.auths := by
  have hs := holds_after h past
  refine ⟨hs.registered.isSome_iff, hs.registered.get_iff, hs.getCertificatesByOwner_eq,
    fun earlier id cert hsuf hget => getCertificate_kept h hsuf hget, getRevocation_iff h past,
    ?_, fun i j e f id r r' hi hri hj hrj => revoked_once hi hri hj hrj, ?_⟩
  · intro i e id r _ hrevokes
    obtain ⟨hcert, hnone, hsome⟩ := hrevokes.ok
    refine ⟨hcert, Table.has_eq_false.mpr hnone, fun later hlater => ?_⟩
    have hkept := getRevocation_kept hlater hsome
    exact Option.isSome_of_mem hkept
  · rintro ⟨env, call⟩ e _ ⟨s', he⟩
    have hadmin := (holds_after h e).admin
    cases call with
    | initializeContract caller =>
      obtain ⟨hnone, -⟩ := initializeContract_ok.mp he
      rw [hadmin] at hnone
      cases hnone
    | mintCertificate caller recipient courseId metadataUrl =>
      obtain ⟨new, hc⟩ := map_snd_eq_ok.mp he
      obtain ⟨next, hauth, hcaller, -⟩ := mintCertificate_ok hc
      cases hcaller.symm.trans hadmin
      exact hauth
    | revokeCertificate caller certId reason =>
      obtain ⟨hauth, hcaller, -⟩ := revokeCertificate_ok he
      cases hcaller.symm.trans hadmin
      exact hauth
    | transfer from_ to_ k => cases he

/-- Two certificates for contract 5. The first is revoked; a second revocation and a transfer are
refused. -/
def exampleCertificateRun : List (Env Nat × Call Nat) :=
  [(exampleEnv 0 [5], .transfer 5 6 (.lit 2)),
    (exampleEnv 0 [1], .revokeCertificate 1 (.lit 1) "again"),
    (exampleEnv 0 [1], .revokeCertificate 1 (.lit 1) "misconduct"),
    (exampleEnv 0 [1], .mintCertificate 1 5 "SOL201" ""),
    (exampleEnv 0 [1], .mintCertificate 1 5 "RUST101" "")]

theorem certificate_status_two_certificates :
    getCertificatesByOwner (after exec exampleCertificates exampleCertificateRun) 5 =
        [⟨.lit 1, 5, "RUST101", "", .lit 0⟩, ⟨.lit 2, 5, "SOL201", "", .lit 0⟩] ∧
      Occurs (Revokes exampleCertificates (.lit 1) ⟨.lit 1, .lit 0, "misconduct"⟩)
        exampleCertificateRun := by
  obtain ⟨-, -, howner, -, hrevocation, -⟩ :=
    certificate_status exampleCertificates_initialised exampleCertificateRun
  exact ⟨(howner 5).trans (by decide +kernel), (hrevocation _ _).mp (by decide +kernel)⟩

end Runs

end Scoopdope.Certificate

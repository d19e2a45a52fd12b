import Scoopdope.Learning.Achievements
import Scoopdope.Learning.Runs

/-!
# Certificates: the stages of a call

`issueCertificate` looks up the enrollment and then the certificate, inserts the row, mints and
saves the row again; a failure from the mint on removes the row. `protocol` says so, with what a
call has learned on the way, and `follows_start` that every call keeps to it.
-/

namespace Scoopdope.Certificates

open Async Database Server Learning

inductive Call
  | issueCertificate
  | handleProgressCompleted

section Start

variable (sha256 : String → String) (userId courseId : String)

/-- The calls for one user and one course. -/
def Call.start : Call → Method Unit
  | .issueCertificate => Certificates.issueCertificate sha256 userId courseId >>= fun _ => pure ()
  | .handleProgressCompleted => Certificates.handleProgressCompleted sha256 userId courseId

end Start

def recipientPublicKey (user : Option Users.User) : Option String :=
  Streaks.truthy (user.bind fun u => u .stellarPublicKey)

inductive Stage
  | beginning
  /-- The enrollment is found, with its user. -/
  | enrolled (user : Option Users.User)
  /-- No certificate was found. -/
  | checked (user : Option Users.User)
  | pending (user : Option Users.User) (certificate : schema.Row .certificate)
  | submitted (certificate : schema.Row .certificate) (txHash : String)
  | rollingBack
  | finished

namespace Stage

def Allows (sha256 : String → String) (userId courseId : String) : Stage → Request → Prop
  | beginning, q => q = .findCompletedEnrollment userId courseId
  | enrolled _, q => q = .query (.findOne .certificate (.pair userId courseId))
  | checked _, q => q = .query (.insert .certificate (pendingCertificate sha256 userId courseId))
  | pending user certificate, q =>
    match recipientPublicKey user with
    | none => q = .query (.save .certificate (minted certificate none))
    | some key => ∃ courseTitle,
      q = .stellar (.mintCertificateNFT key certificate.data.certificateHash courseTitle)
  | submitted certificate txHash, q =>
    q = .query (.save .certificate (minted certificate (some txHash)))
  | rollingBack, q => ∃ certificate, q = .query (.remove .certificate certificate)
  | finished, _ => False

def next : Stage → (q : Request) → Except HttpException q.value → Stage
  | beginning, .findCompletedEnrollment _ _, .ok (some (_, user, _)) => enrolled user
  | enrolled user, .query (.findOne _ _), .ok none => checked user
  | checked user, .query (.insert .certificate _), .ok (some certificate) =>
    pending user certificate
  | pending _ certificate, .stellar _, .ok txHash => submitted certificate txHash
  | pending _ _, .stellar _, .error _ => rollingBack
  | submitted _ _, .query (.save _ _), .ok (some _) => finished
  | submitted _ _, _, _ => rollingBack
  | _, _, _ => finished

end Stage

section Follows

variable (sha256 : String → String) (userId courseId : String)

def protocol : Protocol learningInterface Stage where
  Allows := Stage.Allows sha256 userId courseId
  next := Stage.next

variable {sha256 userId courseId} {user : Option Users.User} {certificate : schema.Row .certificate}

/-- It never returns. -/
theorem follows_rollBack {A : Type} (ok : Stage → A → Prop) (x : HttpException) :
    (rollBack certificate x).Follows (protocol sha256 userId courseId) ok (fun _ _ => True)
      .rollingBack := by
  unfold rollBack
  refine Process.follows_bind (fun _ _ => True) ?_ fun _ _ _ => trivial
  refine Process.follows_tryCatch (fun _ _ => True) ?_ fun _ _ _ => trivial
  exact follows_request ⟨certificate, rfl⟩ (fun _ => trivial) fun _ => trivial

theorem follows_mint {key courseTitle : String} (hkey : recipientPublicKey user = some key) :
    (mint certificate key courseTitle).Follows (protocol sha256 userId courseId)
      (fun _ _ => True) (fun _ _ => True) (.pending user certificate) := by
  have hallows : (protocol sha256 userId courseId).Allows (.pending user certificate)
      (.stellar (.mintCertificateNFT key certificate.data.certificateHash courseTitle)) := by
    simp only [protocol, Stage.Allows, hkey]
    exact ⟨courseTitle, rfl⟩
  unfold mint
  refine Process.follows_bind (fun stage txHash => stage = .submitted certificate txHash) ?_ ?_
  · refine Process.follows_tryCatch (fun stage _ => stage = .rollingBack) ?_ ?_
    · exact follows_request hallows (fun _ => rfl) fun _ => rfl
    · rintro stage x rfl
      exact follows_rollBack _ x
  · rintro stage txHash rfl
    refine Process.follows_tryCatch (fun stage _ => stage = .rollingBack) ?_ ?_
    · exact follows_save rfl (fun _ => trivial) (fun _ => rfl) rfl
    · rintro stage x rfl
      exact follows_rollBack _ x

theorem follows_settle (course : Option Course) :
    (settle certificate user course).Follows (protocol sha256 userId courseId)
      (fun _ _ => True) (fun _ _ => True) (.pending user certificate) := by
  unfold settle
  dsimp only
  split
  · next hkey =>
    have hallows : (protocol sha256 userId courseId).Allows (.pending user certificate)
        (.query (.save .certificate (minted certificate none))) := by
      simp only [protocol, Stage.Allows, recipientPublicKey, hkey]
    exact follows_save hallows (fun _ => trivial) (fun _ => trivial) trivial
  · next key hkey => exact follows_mint hkey

theorem follows_issueCertificate :
    (issueCertificate sha256 userId courseId).Follows (protocol sha256 userId courseId)
      (fun _ _ => True) (fun _ _ => True) .beginning := by
  unfold issueCertificate
  refine Process.follows_bind
    (fun stage enrollment => ∀ found, enrollment = some found → stage = .enrolled found.2.1) ?_ ?_
  · refine follows_request rfl (fun value found hfound => ?_) fun _ => trivial
    subst hfound
    rfl
  rintro stage enrollment hstage
  rcases enrollment with - | ⟨row, user, course⟩
  · trivial
  obtain rfl := hstage _ rfl
  refine Process.follows_bind (fun stage existing => existing = none → stage = .checked user) ?_ ?_
  · refine follows_request rfl (fun existing hnone => ?_) fun _ => trivial
    subst hnone
    rfl
  rintro stage existing hstage
  split
  · trivial
  · next hnone =>
    rw [Option.not_isSome_iff_eq_none] at hnone
    obtain rfl := hstage hnone
    refine Process.follows_bind (fun stage certificate => stage = .pending user certificate) ?_ ?_
    · exact follows_insert rfl (fun _ => rfl) (fun _ => trivial) trivial
    · rintro stage certificate rfl
      exact follows_settle course

theorem follows_start (call : Call) :
    (call.start sha256 userId courseId).Follows (protocol sha256 userId courseId)
      (fun _ _ => True) (fun _ _ => True) .beginning := by
  have hissue : (Certificates.issueCertificate sha256 userId courseId >>= fun _ => pure ()).Follows
      (protocol sha256 userId courseId) (fun _ (_ : Unit) => True) (fun _ _ => True) .beginning :=
    Process.follows_bind _ follows_issueCertificate fun _ _ _ => trivial
  cases call with
  | issueCertificate => exact hissue
  | handleProgressCompleted =>
    exact Process.follows_tryCatch (fun _ _ => True) hissue fun _ _ _ => trivial

end Follows

end Scoopdope.Certificates

/-!
## Certificates: minted once

A certificate should be minted on the chain once. `issueCertificate` looks the certificate up
before it inserts a row, and the table has no constraint on the user and the course: two calls
that have both found nothing both mint. A call whose last `save` fails removes its row, though
the certificate is minted, so the next call mints again.

`certificates_minted_once_iff`: at most one mint succeeds, exactly when each call that mints has
looked the certificate up while the row of every mint so far was stored, and nobody has minted
since. That a row with status `minted` has the transaction hash of a mint holds in every run
(`Inv.rows`). `certificate_minted_twice` is one run of each kind with two mints.
-/

namespace Scoopdope.Certificates

open Async Database Server Learning Soroban

variable (sha256 : String → String) (userId courseId : String)

/-! ## Mints -/

section Runs

variable {R : Type} [DecidableEq R]

/-- The request and the transaction hash of a mint, if an event makes one. -/
def mintedAt (pool : CallPool Unit Call R) (i : CallEvent Call R) : Option (R × String) :=
  match succeeded pool i with
  | some (r, .mintCertificateNFT _ _ _, txHash) => some (r, txHash)
  | _ => none

/-- The request that looks a certificate up. -/
def looksUp (pool : CallPool Unit Call R) (i : CallEvent Call R) : Option R :=
  match pool.performs i with
  | some (r, _, _, .query (.findOne .certificate _)) => some r
  | _ => none

/-- A certificate of the user and the course. -/
def IsStored (s : State) (certificate : schema.Row .certificate) : Prop :=
  certificate ∈ s.tables .certificate ∧ certificate.data.userId = userId ∧
    certificate.data.courseId = courseId

variable (s : State) (past : List (CallEvent Call R)) (i : CallEvent Call R)

/-- What is reached by a schedule, newest event first. -/
abbrev reached : CallPool Unit Call R := Learning.reached (Call.start sha256 userId courseId) s past

/-- The mints of a schedule, newest first. -/
def mints : List (R × String) :=
  effects (fun past i => mintedAt (reached sha256 userId courseId s past) i) past

/-- The stages of the requests. -/
def stages : R → Stage :=
  (protocol sha256 userId courseId).stages (system (Call.start sha256 userId courseId)) .beginning
    s past

/-- At most one mint has succeeded, and a certificate with status `minted` has its transaction
hash. -/
def MintedOnce : Prop :=
  (mints sha256 userId courseId s past).length ≤ 1 ∧
    ∀ certificate, IsStored userId courseId (reached sha256 userId courseId s past).shared
      certificate → certificate.data.status = .minted →
      ∃ r txHash, (r, txHash) ∈ mints sha256 userId courseId s past ∧
        certificate.data.stellarTransactionId = some txHash

/-- The request that mints has looked the certificate up after `before`. -/
def Looked (before : List (CallEvent Call R)) : Prop :=
  ∃ r txHash j, mintedAt (reached sha256 userId courseId s past) i = some (r, txHash) ∧
    j :: before <:+ past ∧ looksUp (reached sha256 userId courseId s before) j = some r

/-- Whoever mints has looked the certificate up when a certificate was stored for what was minted
so far, and nobody has minted since. -/
def LookedInTime : Prop :=
  InTime (fun past i => mintedAt (reached sha256 userId courseId s past) i)
    (Looked sha256 userId courseId s)
    (fun before => ∃ certificate,
      IsStored userId courseId (reached sha256 userId courseId s before).shared certificate) past i

end Runs

/-- The user has a key, and no certificate for the course is stored. -/
structure Unissued (s : State) : Prop where
  user : ∃ user, s.users.get userId = some user ∧ (recipientPublicKey (some user)).isSome
  certificates : ∀ certificate, ¬ IsStored userId courseId s certificate

variable {sha256 userId courseId} {R : Type} [DecidableEq R] {s : State}
  {past : List (CallEvent Call R)} {i : CallEvent Call R}

theorem mints_subset :
    mints sha256 userId courseId s past ⊆ mints sha256 userId courseId s (i :: past) :=
  (effects_suffix (List.suffix_cons i past)).subset

/-! ## What is known along a schedule -/

variable (sha256 userId courseId s past) in
/-- What a request in this stage may rely on. -/
def Knows : Stage → Prop
  | .enrolled user => (recipientPublicKey user).isSome
  | .checked user => (recipientPublicKey user).isSome
  | .pending user _ => (recipientPublicKey user).isSome
  | .submitted _ txHash => ∃ r, (r, txHash) ∈ mints sha256 userId courseId s past
  | _ => True

theorem Knows.cons {stage : Stage} (h : Knows sha256 userId courseId s past stage) :
    Knows sha256 userId courseId s (i :: past) stage := by
  cases stage with
  | submitted certificate txHash =>
    obtain ⟨r, hmint⟩ := h
    exact ⟨r, mints_subset hmint⟩
  | _ => exact h

variable (sha256 userId courseId s past) in
structure Inv : Prop where
  users : (reached sha256 userId courseId s past).shared.users = s.users
  rows : ∀ certificate, IsStored userId courseId
    (reached sha256 userId courseId s past).shared certificate →
    certificate.data.status = .minted →
    ∃ r txHash, (r, txHash) ∈ mints sha256 userId courseId s past ∧
      certificate.data.stellarTransactionId = some txHash
  stages : ∀ r, Knows sha256 userId courseId s past (stages sha256 userId courseId s past r)

theorem Stage.Allows.not_saveUser {stage : Stage} {q : Request}
    (h : stage.Allows sha256 userId courseId q) (user : Users.User) : q ≠ .saveUser user := by
  rintro rfl
  cases stage with
  | pending user certificate =>
    simp only [Stage.Allows] at h
    split at h
    · cases h
    · obtain ⟨_, h⟩ := h
      cases h
  | rollingBack =>
    obtain ⟨_, h⟩ := h
    cases h
  | _ => cases h

/-- Who has a key and an inserted row mints. -/
theorem Stage.Allows.mints {user : Option Users.User} {certificate : schema.Row .certificate}
    {q : Request} (h : (Stage.pending user certificate).Allows sha256 userId courseId q)
    (hkey : (recipientPublicKey user).isSome) :
    ∃ key hash title, q = .stellar (.mintCertificateNFT key hash title) := by
  simp only [Stage.Allows] at h
  split at h
  · next hnone =>
    rw [hnone] at hkey
    cases hkey
  · next key _ =>
    obtain ⟨title, rfl⟩ := h
    exact ⟨key, _, title, rfl⟩

/-- What an allowed request leaves of the certificates with status `minted`. -/
theorem minted_handle {stage : Stage} {q : Request} {around : Surroundings} {shared : State}
    {certificate : schema.Row .certificate} (hallows : stage.Allows sha256 userId courseId q)
    (hknows : Knows sha256 userId courseId s past stage)
    (hmem : certificate ∈ (handle around shared q).2.tables .certificate)
    (hminted : certificate.data.status = .minted) :
    certificate ∈ shared.tables .certificate ∨
      ∃ r txHash, (r, txHash) ∈ mints sha256 userId courseId s past ∧
        certificate.data.stellarTransactionId = some txHash := by
  cases stage with
  | beginning =>
    subst hallows
    have hreads : (Request.findCompletedEnrollment userId courseId).Reads := trivial
    rw [handle_reads hreads] at hmem
    exact .inl hmem
  | enrolled user =>
    subst hallows
    have hreads : (Request.query (.findOne .certificate (.pair userId courseId))).Reads := rfl
    rw [handle_reads hreads] at hmem
    exact .inl hmem
  | checked user =>
    subst hallows
    rcases mem_handle_insert hmem with hold | rfl
    · exact .inl hold
    -- The inserted row is `pending`.
    · cases hminted
  | pending user row =>
    obtain ⟨key, hash, title, rfl⟩ := hallows.mints hknows
    have hspares : (Request.stellar (.mintCertificateNFT key hash title)).Spares .certificate :=
      trivial
    rw [handle_spares hspares] at hmem
    exact .inl hmem
  | submitted row txHash =>
    subst hallows
    obtain ⟨r, hmint⟩ := hknows
    rcases mem_handle_save hmem with hold | rfl
    · exact .inl hold
    -- The only row that becomes `minted` has the hash of the mint before.
    · exact .inr ⟨r, txHash, hmint, rfl⟩
  | rollingBack =>
    obtain ⟨row, rfl⟩ := hallows
    exact .inl (mem_handle_remove hmem)
  | finished => exact hallows.elim

/-- The user of the enrollment that is found. -/
theorem user_of_findCompletedEnrollment {around : Surroundings} {shared : State}
    {row : schema.Row .enrollment} {user : Option Users.User} {course : Option Course}
    (h : (handle around shared (.findCompletedEnrollment userId courseId)).1 =
      .ok (some (row, user, course))) : user = shared.users.get userId := by
  unfold handle at h
  split at h
  · cases h
  · obtain ⟨row', hfound, hrow'⟩ := Option.map_eq_some_iff.mp (Except.ok.inj h)
    cases hrow'
    have hholds := (Repository.findOne_some hfound).1
    have huser : row.data.userId = userId := by
      simp_all [Entity.holds, PairWhere.holds]
    rw [huser]

variable (hunissued : Unissued userId courseId s)

theorem mem_mints {r : R} {around : Surroundings} {call : Call} {key hash title : String}
    (hperforms : (reached sha256 userId courseId s past).performs i =
      some (r, around, call, .stellar (.mintCertificateNFT key hash title)))
    (hfails : around.fails (.stellar (.mintCertificateNFT key hash title)) = none) :
    (r, around.hash (.mintCertificateNFT key hash title)) ∈
      mints sha256 userId courseId s (i :: past) := by
  have hsucceeded := succeeded_some.mpr ⟨around, call, hperforms, hfails, rfl⟩
  have hminted : mintedAt (reached sha256 userId courseId s past) i =
      some (r, around.hash (.mintCertificateNFT key hash title)) := by
    rw [mintedAt, hsucceeded]
  unfold mints
  rw [effects_of_some hminted]
  exact List.mem_cons_self

include hunissued in
/-- What the request that moves knows in its next stage. -/
theorem knows_next {stage : Stage} {r : R} {around : Surroundings} {call : Call} {q : Request}
    (hperforms : (reached sha256 userId courseId s past).performs i = some (r, around, call, q))
    (hallows : stage.Allows sha256 userId courseId q)
    (husers : (reached sha256 userId courseId s past).shared.users = s.users)
    (hknows : Knows sha256 userId courseId s past stage) :
    Knows sha256 userId courseId s (i :: past)
      (stage.next q (handle around (reached sha256 userId courseId s past).shared q).1) := by
  cases stage with
  | beginning =>
    subst hallows
    rcases hanswer : (handle around (reached sha256 userId courseId s past).shared
      (.findCompletedEnrollment userId courseId)).1 with x | - | ⟨row, user, course⟩
    · trivial
    · trivial
    -- The user is the one of the start, who has a key: nobody writes users.
    · obtain ⟨user', huser', hkey⟩ := hunissued.user
      have huser := user_of_findCompletedEnrollment hanswer
      rw [husers, huser'] at huser
      subst huser
      exact hkey
  | enrolled user =>
    subst hallows
    rcases (handle around (reached sha256 userId courseId s past).shared
      (.query (.findOne .certificate (.pair userId courseId)))).1 with x | - | certificate
    · trivial
    · exact hknows
    · trivial
  | checked user =>
    subst hallows
    rcases (handle around (reached sha256 userId courseId s past).shared
      (.query (.insert .certificate (pendingCertificate sha256 userId courseId)))).1 with
      x | - | certificate
    · trivial
    · trivial
    · exact hknows
  | pending user certificate =>
    obtain ⟨key, hash, title, rfl⟩ := hallows.mints hknows
    rcases hanswer : (handle around (reached sha256 userId courseId s past).shared
      (.stellar (.mintCertificateNFT key hash title))).1 with x | txHash
    · trivial
    · obtain ⟨hfails, rfl⟩ := stellar_answered hanswer
      exact ⟨r, mem_mints hperforms hfails⟩
  | submitted certificate txHash =>
    subst hallows
    rcases (handle around (reached sha256 userId courseId s past).shared
      (.query (.save .certificate (minted certificate (some txHash))))).1 with x | - | saved
    · trivial
    · trivial
    · trivial
  | rollingBack => trivial
  | finished => trivial

include hunissued in
theorem inv_reached (past : List (CallEvent Call R)) : Inv sha256 userId courseId s past := by
  induction past with
  | nil =>
    refine ⟨rfl, fun certificate hstored => ?_, fun _ => trivial⟩
    exact absurd hstored (hunissued.certificates certificate)
  | cons i past ih =>
    have hstages : stages sha256 userId courseId s (i :: past) =
        (protocol sha256 userId courseId).note (system (Call.start sha256 userId courseId))
          .beginning (reached sha256 userId courseId s past) i
          (stages sha256 userId courseId s past) := rfl
    cases hperforms : (reached sha256 userId courseId s past).performs i with
    | none =>
      have hshared := shared_of_idle hperforms
      refine ⟨?_, fun certificate hstored hminted => ?_, fun r => ?_⟩
      · rw [reached, hshared]
        exact ih.users
      · rw [reached, hshared] at hstored
        obtain ⟨r, txHash, hmint, hcarried⟩ := ih.rows certificate hstored hminted
        exact ⟨r, txHash, mints_subset hmint, hcarried⟩
      · have hstages : stages sha256 userId courseId s (i :: past) =
            stages sha256 userId courseId s past := Protocol.stages_of_none hperforms
        rw [hstages]
        exact (ih.stages r).cons
    | some moved =>
      obtain ⟨r, around, call, q⟩ := moved
      have hshared := shared_of_performs hperforms
      have hallows : (stages sha256 userId courseId s past r).Allows sha256 userId courseId q :=
        Protocol.allows_of_performs follows_start hperforms
      refine ⟨?_, fun certificate hstored hminted => ?_, fun r' => ?_⟩
      · rw [reached, hshared, handle_users hallows.not_saveUser]
        exact ih.users
      · rw [reached, hshared] at hstored
        have hfound : ∃ r txHash, (r, txHash) ∈ mints sha256 userId courseId s past ∧
            certificate.data.stellarTransactionId = some txHash := by
          rcases minted_handle hallows (ih.stages r) hstored.1 hminted with hold | hcarried
          · exact ih.rows certificate ⟨hold, hstored.2⟩ hminted
          · exact hcarried
        obtain ⟨r, txHash, hmint, hcarried⟩ := hfound
        exact ⟨r, txHash, mints_subset hmint, hcarried⟩
      · rw [hstages, Protocol.note_performs hperforms, Function.update_apply]
        split
        · exact knows_next hunissued hperforms hallows ih.users (ih.stages r)
        · exact (ih.stages r').cons

/-! ## Who has looked -/

/-- The certificate has been looked up. -/
def Stage.HasChecked : Stage → Prop
  | .checked _ => True
  | .pending _ _ => True
  | .submitted _ _ => True
  | .rollingBack => True
  | _ => False

variable (userId courseId) in
/-- The certificate is looked up, and none is found. -/
def FoundNone : (q : Request) → Except HttpException q.value → Prop
  | .query (.findOne .certificate condition), answer =>
    condition = .pair userId courseId ∧ answer = .ok none
  | _, _ => False

theorem foundNone_of_next {stage : Stage} {q : Request} {answer : Except HttpException q.value}
    (hallows : stage.Allows sha256 userId courseId q) (h : (stage.next q answer).HasChecked) :
    stage.HasChecked ∨ FoundNone userId courseId q answer := by
  cases stage with
  | beginning =>
    subst hallows
    rcases answer with x | - | ⟨row, user, course⟩ <;> exact h.elim
  | enrolled user =>
    subst hallows
    rcases answer with x | - | certificate
    · exact h.elim
    · exact .inr ⟨rfl, rfl⟩
    · exact h.elim
  | finished => exact hallows.elim
  | _ => exact .inl trivial

omit [DecidableEq R] in
theorem performs_of_mintedAt {pool : CallPool Unit Call R} {r : R} {txHash : String}
    (h : mintedAt pool i = some (r, txHash)) :
    ∃ around call key hash title,
      pool.performs i = some (r, around, call, .stellar (.mintCertificateNFT key hash title)) := by
  unfold mintedAt at h
  split at h
  · next r' key hash title txHash' hsucceeded =>
    cases h
    obtain ⟨around, call, hperforms, -, -⟩ := succeeded_some.mp hsucceeded
    exact ⟨around, call, key, hash, title, hperforms⟩
  · cases h

/-- Where a lookup finds none, none is stored. -/
theorem none_stored {around : Surroundings} {shared : State}
    (h : (handle around shared (.query (.findOne .certificate (.pair userId courseId)))).1 =
      .ok none) : ¬ ∃ certificate, IsStored userId courseId shared certificate := by
  rintro ⟨certificate, hmem, huser, hcourse⟩
  have hholds := holds_of_found_none h hmem
  simp [Entity.holds, PairWhere.holds, huser, hcourse] at hholds

/-- Who mints has looked the certificate up, at a time when none was stored. -/
theorem looked_of_mintedAt {minted : R × String}
    (h : mintedAt (reached sha256 userId courseId s past) i = some minted) :
    ∃ before, Looked sha256 userId courseId s past i before ∧
      ¬ ∃ certificate, IsStored userId courseId
        (reached sha256 userId courseId s before).shared certificate := by
  obtain ⟨r, txHash⟩ := minted
  obtain ⟨around, call, key, hash, title, hperforms⟩ := performs_of_mintedAt h
  have hallows : (stages sha256 userId courseId s past r).Allows sha256 userId courseId
      (.stellar (.mintCertificateNFT key hash title)) :=
    Protocol.allows_of_performs follows_start hperforms
  have hchecked : (stages sha256 userId courseId s past r).HasChecked := by
    -- Only a call whose row is inserted mints.
    cases hstage : stages sha256 userId courseId s past r with
    | pending user certificate => trivial
    | _ =>
      rw [hstage] at hallows
      cases hallows <;> contradiction
  obtain ⟨j, before, hbefore, around', call', q, hlookup, hnone⟩ :=
    Protocol.occurs_of_stages follows_start id (fun _ _ _ => foundNone_of_next) hchecked
  unfold FoundNone at hnone
  split at hnone
  · obtain ⟨rfl, hanswer⟩ := hnone
    refine ⟨before, ⟨r, txHash, j, h, hbefore, ?_⟩, ?_⟩
    · have hlookup' : (reached sha256 userId courseId s before).performs j =
        some (r, around', call', .query (.findOne .certificate (.pair userId courseId))) := hlookup
      rw [looksUp, hlookup']
    · exact none_stored hanswer
  · exact hnone.elim

theorem suffix_of_looked {before : List (CallEvent Call R)}
    (h : Looked sha256 userId courseId s past i before) : before <:+ past := by
  obtain ⟨_, _, j, _, hbefore, _⟩ := h
  exact (List.suffix_cons j before).trans hbefore

/-! ## When a certificate is minted once -/

/-- In every run of calls for a user with a key and a course, whatever fails, at most one mint
succeeds and every certificate with status `minted` has its transaction hash, exactly when every
request that mints has looked the certificate up in time. -/
theorem certificates_minted_once_iff (sha256 : String → String) (userId courseId : String)
    (s : State) (h : Unissued userId courseId s) (schedule : List (CallEvent Call R)) :
    (∀ earlier, earlier <:+ schedule → MintedOnce sha256 userId courseId s earlier) ↔
      Guarded (LookedInTime sha256 userId courseId s) schedule := by
  have honce : (∀ earlier, earlier <:+ schedule →
      (mints sha256 userId courseId s earlier).length ≤ 1) ↔
        Guarded (LookedInTime sha256 userId courseId s) schedule :=
    at_most_once_iff (fun _ _ _ => suffix_of_looked) (fun _ _ _ => looked_of_mintedAt) schedule
  refine Iff.trans (forall₂_congr fun earlier _ => ?_) honce
  exact and_iff_left (inv_reached h earlier).rows

/-- The first to mint has always looked in time. -/
theorem lookedInTime_of_first (h : mints sha256 userId courseId s past = []) :
    LookedInTime sha256 userId courseId s past i := by
  cases hminted : mintedAt (reached sha256 userId courseId s past) i with
  | none => exact inTime_of_none hminted
  | some minted =>
    exact (effects_eq_nil_iff (fun _ => suffix_of_looked) (looked_of_mintedAt hminted) hminted).mp h

/-! ## Two calls -/

section Example

/-- Keys and hashes of their own for each request. -/
def exampleAround (name : String) (fails : Request → Option HttpException) : Surroundings where
  now := 0
  key := fun _ _ => "k" ++ name
  hash := fun _ => "tx" ++ name
  fails := fails

def exampleSound (r : String) : CallEvent Call String := .resume r (exampleAround r fun _ => none)

/-- A `save` of a certificate fails. -/
def exampleUnsaved (r : String) : CallEvent Call String :=
  .resume r (exampleAround r fun q => match q with
    | .query (.save .certificate _) => some (.internal "connection lost")
    | _ => none)

def exampleCalled (r : String) : CallEvent Call String :=
  .call r (exampleAround r fun _ => none) .issueCertificate

/-- A user with a key who has completed a course. -/
def exampleCompleted : State :=
  { State.empty with
    users := Repository.empty.save
      (spread (Users.User.default "u1" 0) (Patch.empty.set .stellarPublicKey (some "G1"))) }
    |>.put .enrollment (Repository.empty.save ⟨"e1", 0, 0, {
      userId := "u1", courseId := "c1", completedAt := some 0, enrolledVersionNumber := none
      transactionHash := some "tx0" }⟩)

theorem unissued_exampleCompleted : Unissued "u1" "c1" exampleCompleted :=
  ⟨⟨_, rfl, by decide +kernel⟩, fun _ hstored => Repository.not_mem_empty hstored.1⟩

/-- The second call is made when the first one is done. Newest event first. -/
def exampleSequential : List (CallEvent Call String) :=
  [exampleSound "2", exampleSound "2", exampleCalled "2",
    exampleSound "1", exampleSound "1", exampleSound "1", exampleSound "1", exampleSound "1",
    exampleCalled "1"]

/-- The last `save` of the first call fails. -/
def exampleRetried : List (CallEvent Call String) :=
  [exampleSound "2", exampleSound "2", exampleSound "2", exampleSound "2", exampleSound "2",
    exampleCalled "2",
    exampleSound "1", exampleUnsaved "1", exampleSound "1", exampleSound "1", exampleSound "1",
    exampleSound "1", exampleCalled "1"]

/-- Both calls look the certificate up before one of them inserts it. Nothing fails. -/
def exampleRacing : List (CallEvent Call String) :=
  [exampleSound "2", exampleSound "1", exampleSound "2", exampleSound "1", exampleSound "2",
    exampleSound "1", exampleSound "2", exampleSound "1", exampleSound "2", exampleSound "1",
    exampleCalled "2", exampleCalled "1"]

end Example

theorem certificates_minted_once_iff_sequential :
    Unissued "u1" "c1" exampleCompleted ∧ ∀ earlier, earlier <:+ exampleSequential →
      MintedOnce id "u1" "c1" exampleCompleted earlier := by
  refine ⟨unissued_exampleCompleted, ?_⟩
  refine (certificates_minted_once_iff id "u1" "c1" _ unissued_exampleCompleted _).mpr ?_
  refine ⟨?_, ?_, ?_, ?_, ?_, ?_, ?_, ?_, ?_, trivial⟩
  · exact inTime_of_none (by decide +kernel)
  · exact inTime_of_none (by decide +kernel)
  · exact inTime_of_none (by decide +kernel)
  · exact inTime_of_none (by decide +kernel)
  all_goals exact lookedInTime_of_first (by decide +kernel)

/-- In both runs two mints succeed. -/
theorem certificate_minted_twice :
    Unissued "u1" "c1" exampleCompleted ∧
      mints id "u1" "c1" exampleCompleted exampleRetried = [("2", "tx2"), ("1", "tx1")] ∧
      ¬ MintedOnce id "u1" "c1" exampleCompleted exampleRetried ∧
      mints id "u1" "c1" exampleCompleted exampleRacing = [("2", "tx2"), ("1", "tx1")] ∧
      ¬ MintedOnce id "u1" "c1" exampleCompleted exampleRacing := by
  have hretried : mints id "u1" "c1" exampleCompleted exampleRetried =
      [("2", "tx2"), ("1", "tx1")] := by decide +kernel
  have hracing : mints id "u1" "c1" exampleCompleted exampleRacing =
      [("2", "tx2"), ("1", "tx1")] := by decide +kernel
  refine ⟨unissued_exampleCompleted, hretried, fun h => ?_, hracing, fun h => ?_⟩
  · have honce := h.1
    rw [hretried] at honce
    exact absurd honce (by decide)
  · have honce := h.1
    rw [hracing] at honce
    exact absurd honce (by decide)

end Scoopdope.Certificates

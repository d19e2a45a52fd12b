import Scoopdope.Async.Pool
import Scoopdope.Auth.Mfa

/-!
# Authentication: backup codes

`verifyCode` reads the list of backup codes, takes the code it was given out of it and
writes the list back, with other requests in between. Two requests that read the same list
both accept the code they find in it, and the later write brings back what the earlier one
has removed.

`codes_single_use_iff`: throughout a schedule of `verifyCode` calls for one user, no code is
accepted twice and no accepted code is in the stored list, exactly when every write finds
the list as its request has read it.

Before it looks a code up, `verifyCode` checks it as a TOTP code, and `otplib` throws for what does
not have six characters. A backup code has ten, so that no request comes to write the list, and
`codes_single_use` holds of every schedule.
-/

namespace Scoopdope.Auth.BackupCodes

open Async Database MfaService Server Soroban Users

variable (crypto : Crypto) (userId : String)

/-- Calls of `verifyCode` for one user, by code. -/
def system : System authInterface Env HttpException Bool State String where
  start := verifyCode crypto userId
  handle := handle

abbrev CodePool (R : Type) : Type := Pool authInterface Env HttpException Bool State String R

abbrev CodeEvent (R : Type) : Type := Event Env String R

variable {R : Type} [DecidableEq R]

/-- What is reached from `s` by a schedule, newest event first. -/
def reached (s : State) (schedule : List (CodeEvent R)) : CodePool R :=
  after (system crypto userId).exec (Pool.idle s) schedule

/-! ## What is read and what is accepted -/

section Ghosts

variable (pool : CodePool R)

def noteReads (reads : R → List User) (i : CodeEvent R) (r : R) : List User :=
  match pool.performs i with
  | some (r', _, _, .users (.findOne (.id id))) =>
    if r = r' then (pool.shared.users.get id).toList ++ reads r else reads r
  | _ => reads r

def noteAccepted (codes : List String) (i : CodeEvent R) : List String :=
  match pool.performs i with
  | some (_, _, code, .users (.save row)) =>
    if conflicts pool.shared.users row then codes else code :: codes
  | _ => codes

end Ghosts

/-- The rows that each request has read, newest first. -/
def reads (s : State) : List (CodeEvent R) → R → List User :=
  traced (system crypto userId).exec (Pool.idle s) (fun rows pool i => noteReads pool rows i)
    fun _ => []

/-- The backup codes that have been accepted, newest first. A backup code is accepted when
the list without it has been written. -/
def accepted (s : State) : List (CodeEvent R) → List String :=
  traced (system crypto userId).exec (Pool.idle s) (fun codes pool i => noteAccepted pool codes i)
    []

/-- When a request writes the list, the stored list is still the one in which it has looked
its code up: the second last that it has read, the last being read by `update`. -/
def Undisturbed (s : State) (earlier : List (CodeEvent R)) (i : CodeEvent R) : Prop :=
  ∀ r env code row last looked rest stored,
    (reached crypto userId s earlier).performs i = some (r, env, code, .users (.save row)) →
    conflicts (reached crypto userId s earlier).shared.users row = false →
    reads crypto userId s earlier r = last :: looked :: rest →
    (reached crypto userId s earlier).shared.users.get userId = some stored →
    stored .mfaBackupCodes = looked .mfaBackupCodes

/-! ## The points of a request -/

/-- What is left once the code is found in the list of a row. -/
def consume (code : String) (looked : User) : Service authInterface Bool := do
  let _ ← update userId (Patch.empty.set .mfaBackupCodes
    (some ((backupCodes looked).erase (crypto.sha256 code))))
  pure true

/-- What is left once `update` has read a row. -/
def write (code : String) (looked last : User) : Service authInterface Bool := do
  let _ ← save (spread last (Patch.empty.set .mfaBackupCodes
    (some ((backupCodes looked).erase (crypto.sha256 code)))))
  pure true

/-- Where a request is, with the rows it has read. -/
inductive Point (rows : List User) (code : String) : Service authInterface Bool → Prop
  | start : Point rows code (verifyCode crypto userId code)
  | looking (answered : Answered crypto code) : Point rows code (useBackupCode crypto userId code)
  | consuming (looked : User) (rest : List User) (answered : Answered crypto code)
      (h : rows = looked :: rest) (found : crypto.sha256 code ∈ backupCodes looked) :
      Point rows code (consume crypto userId code looked)
  | writing (looked last : User) (rest : List User) (answered : Answered crypto code)
      (h : rows = last :: looked :: rest) (found : crypto.sha256 code ∈ backupCodes looked) :
      Point rows code (write crypto code looked last)
  | returned (b : Bool) : Point rows code (.ret b)
  | failed (x : HttpException) : Point rows code (.fail x)

variable {crypto userId}

theorem settle_ofExcept {A B : Type} (env : Env) (result : Except HttpException A)
    (f : A → Service authInterface B) :
    ((Process.ofExcept result : Service authInterface A) >>= f).settle env =
      match result with
      | .ok a => (f a).settle env
      | .error x => .fail x := by
  cases result <;> rfl

/-- The first read: the code is accepted as a TOTP, or looked up in the list. -/
theorem Point.of_start {rows : List User} {code : String} (env : Env) (user : Option User) :
    Point crypto userId rows code (Process.settle env (
      match mfaSecret user with
      | none => pure false
      | some secret => do
        let env ← Process.env
        if ← Process.ofExcept (totpValid crypto env secret code) then pure true
        else useBackupCode crypto userId code)) := by
  cases mfaSecret user with
  | none => exact .returned false
  | some secret =>
    simp only [Process.env_bind, Process.settle_ask, settle_ofExcept]
    cases hvalid : totpValid crypto env secret code with
    | error x => exact .failed x
    | ok valid =>
      cases valid
      · exact .looking (answered_of_totpValid hvalid)
      · exact .returned true

/-- The second read: the code is in the list, or the answer is no. -/
theorem Point.of_looking {rest : List User} {code : String} (env : Env)
    (answered : Answered crypto code) {user : Option User} :
    Point crypto userId (user.toList ++ rest) code (Process.settle env (
      if crypto.sha256 code ∈ (user.map backupCodes).getD [] then do
        let _ ← update userId (Patch.empty.set .mfaBackupCodes
          (some (((user.map backupCodes).getD []).erase (crypto.sha256 code))))
        pure true
      else pure false)) := by
  split
  · next hmem =>
    cases user with
    | none => simp at hmem
    | some looked => exact .consuming looked rest answered rfl hmem
  · exact .returned false

/-- The read of `update`. -/
theorem Point.of_consuming {looked : User} {rest : List User} {code : String} (env : Env)
    (answered : Answered crypto code) (found : crypto.sha256 code ∈ backupCodes looked)
    {user : Option User} :
    Point crypto userId (user.toList ++ looked :: rest) code (Process.settle env (do
      let _ ← Process.lift ofUsers (do
        let last ← orThrow (.notFound "User not found") user
        let _ ← Process.env
        save (spread last (Patch.empty.set .mfaBackupCodes
          (some ((backupCodes looked).erase (crypto.sha256 code))))))
      pure true)) := by
  cases user with
  | none => exact .failed _
  | some last => exact .writing looked last rest answered rfl found

/-- The write. -/
theorem Point.of_writing {rows : List User} {code : String} (env : Env) (row : User)
    (written : Bool) :
    Point crypto userId rows code (Process.settle env (do
      let _ ← Process.lift ofUsers (if written then pure row else .fail duplicateKey)
      pure true)) := by
  cases written
  · exact .failed _
  · exact .returned true

variable {s : State}

theorem noteReads_other {pool : CodePool R} {rows : R → List User}
    {i : CodeEvent R} {r : R} (h : ∀ env code o, pool.performs i ≠ some (r, env, code, o)) :
    noteReads pool rows i r = rows r := by
  unfold noteReads
  split
  · next r' env code id hperforms =>
    split
    · next hr =>
      subst hr
      exact absurd hperforms (h env code _)
    · rfl
  · rfl

theorem noteReads_self {pool : CodePool R} {rows : R → List User} {i : CodeEvent R} {r : R}
    {env : Env} {code id : String}
    (h : pool.performs i = some (r, env, code, .users (.findOne (.id id)))) :
    noteReads pool rows i r = (pool.shared.users.get id).toList ++ rows r := by
  rw [noteReads, h]
  exact if_pos rfl

theorem noteReads_save {pool : CodePool R} {rows : R → List User} {i : CodeEvent R} {r r' : R}
    {env : Env} {code : String} {row : User}
    (h : pool.performs i = some (r', env, code, .users (.save row))) :
    noteReads pool rows i r = rows r := by
  rw [noteReads, h]

theorem reads_cons (past : List (CodeEvent R)) (i : CodeEvent R) :
    reads crypto userId s (i :: past) =
      noteReads (reached crypto userId s past) (reads crypto userId s past) i := rfl

theorem points (schedule : List (CodeEvent R)) :
    ∀ r code process, (reached crypto userId s schedule).request r = some (code, process) →
      Point crypto userId (reads crypto userId s schedule r) code process := by
  induction schedule with
  | nil => exact nofun
  | cons i past ih =>
    refine System.requests_step ih ?_ ?_ ?_ (System.after_exec _ past i)
    · intro r code process hother _ hpoint
      rw [reads_cons, noteReads_other hother]
      exact hpoint
    · intro r env code _ _
      exact .start
    · intro r env code o k hperforms hr hpoint
      cases hpoint with
      | start => exact .of_start env _
      | looking answered =>
        rw [reads_cons, noteReads_self hperforms]
        exact .of_looking env answered
      | consuming looked rest answered hrows found =>
        rw [reads_cons, noteReads_self hperforms, hrows]
        exact .of_consuming env answered found
      | writing looked last rest answered hrows found =>
        rw [reads_cons, noteReads_save hperforms]
        exact .of_writing env _ _

/-! ## What an event does -/

/-- The row that a request writes. -/
def written (crypto : Crypto) (code : String) (looked last : User) : User :=
  spread last (Patch.empty.set .mfaBackupCodes
    (some ((backupCodes looked).erase (crypto.sha256 code))))

theorem written_id (code : String) (looked last : User) :
    written crypto code looked last .id = last .id :=
  spread_of_none (Patch.set_ne _ _ _ (by decide))

theorem backupCodes_written (code : String) (looked last : User) :
    backupCodes (written crypto code looked last) =
      (backupCodes looked).erase (crypto.sha256 code) := by
  rw [backupCodes, written, spread_of_some (Patch.set_self _ _ _), Option.getD_some]

/-- An event writes the row of a request that has found its code, or it writes nothing and
reads at most the row of the user. -/
inductive Step (crypto : Crypto) (userId : String) (s : State) (past : List (CodeEvent R))
    (i : CodeEvent R) : Prop
  | quiet
      (users : (reached crypto userId s (i :: past)).shared.users =
        (reached crypto userId s past).shared.users)
      (accepts : accepted crypto userId s (i :: past) = accepted crypto userId s past)
      (rows : ∀ r, reads crypto userId s (i :: past) r = reads crypto userId s past r ∨
        ∃ row, (reached crypto userId s past).shared.users.get userId = some row ∧
          reads crypto userId s (i :: past) r = row :: reads crypto userId s past r)
      (refused : ∀ r env code row,
        (reached crypto userId s past).performs i = some (r, env, code, .users (.save row)) →
        conflicts (reached crypto userId s past).shared.users row = true)
  | writes (r : R) (env : Env) (code : String) (looked last : User) (rest : List User)
      (performs : (reached crypto userId s past).performs i =
        some (r, env, code, .users (.save (written crypto code looked last))))
      (free : conflicts (reached crypto userId s past).shared.users
        (written crypto code looked last) = false)
      (read : reads crypto userId s past r = last :: looked :: rest)
      (answered : Answered crypto code) (found : crypto.sha256 code ∈ backupCodes looked)
      (users : (reached crypto userId s (i :: past)).shared.users =
        (reached crypto userId s past).shared.users.save (written crypto code looked last))
      (accepts : accepted crypto userId s (i :: past) = code :: accepted crypto userId s past)
      (rows : reads crypto userId s (i :: past) = reads crypto userId s past)

theorem accepted_cons (past : List (CodeEvent R)) (i : CodeEvent R) :
    accepted crypto userId s (i :: past) =
      noteAccepted (reached crypto userId s past) (accepted crypto userId s past) i := rfl

variable {past : List (CodeEvent R)} {i : CodeEvent R} {r : R} {env : Env} {code : String}

theorem step_none (hperforms : (reached crypto userId s past).performs i = none)
    (hshared : (reached crypto userId s (i :: past)).shared =
      (reached crypto userId s past).shared) : Step crypto userId s past i := by
  refine .quiet (congrArg State.users hshared) ?_ (fun r => .inl ?_) ?_
  · rw [accepted_cons, noteAccepted, hperforms]
  · rw [reads_cons, noteReads, hperforms]
  · intro r env code row hsave
    rw [hperforms] at hsave
    cases hsave

theorem step_find
    (hperforms : (reached crypto userId s past).performs i =
      some (r, env, code, .users (.findOne (.id userId))))
    (hshared : (reached crypto userId s (i :: past)).shared =
      (handle env (reached crypto userId s past).shared (.users (.findOne (.id userId)))).2) :
    Step crypto userId s past i := by
  refine .quiet (congrArg State.users hshared) ?_ (fun r' => ?_) ?_
  · rw [accepted_cons, noteAccepted, hperforms]
  · rw [reads_cons]
    by_cases hr : r' = r
    · subst hr
      rw [noteReads_self hperforms]
      cases hrow : (reached crypto userId s past).shared.users.get userId with
      | none => exact .inl rfl
      | some row => exact .inr ⟨row, rfl, rfl⟩
    · refine .inl (noteReads_other fun env' code' o h => ?_)
      rw [hperforms] at h
      cases h
      exact hr rfl
  · intro r' env' code' row hsave
    rw [hperforms] at hsave
    cases hsave

/-- A save goes through, or it breaks a unique constraint. -/
theorem step_save {looked last : User} {rest : List User}
    (hperforms : (reached crypto userId s past).performs i =
      some (r, env, code, .users (.save (written crypto code looked last))))
    (hshared : (reached crypto userId s (i :: past)).shared =
      (handle env (reached crypto userId s past).shared
        (.users (.save (written crypto code looked last)))).2)
    (hrows : reads crypto userId s past r = last :: looked :: rest)
    (answered : Answered crypto code) (found : crypto.sha256 code ∈ backupCodes looked) :
    Step crypto userId s past i := by
  have hreads : reads crypto userId s (i :: past) = reads crypto userId s past := by
    funext r'
    rw [reads_cons, noteReads_save hperforms]
  cases hfree : conflicts (reached crypto userId s past).shared.users
      (written crypto code looked last) with
  | false =>
    refine .writes r env code looked last rest hperforms hfree hrows answered found ?_ ?_ hreads
    · refine (congrArg State.users hshared).trans ?_
      exact congrArg Prod.snd (handle_save env hfree)
    · simp [accepted_cons, noteAccepted, hperforms, hfree]
  | true =>
    refine .quiet ?_ ?_ (fun r' => .inl (congrFun hreads r')) ?_
    · refine (congrArg State.users hshared).trans ?_
      exact congrArg Prod.snd (handle_save_conflict env hfree)
    · simp [accepted_cons, noteAccepted, hperforms, hfree]
    · intro r' env' code' row hsave
      rw [hperforms] at hsave
      cases hsave
      exact hfree

variable (crypto userId s) in
theorem step (past : List (CodeEvent R)) (i : CodeEvent R) :
    Step crypto userId s past i := by
  cases System.exec_happens (System.after_exec (system crypto userId) past i) with
  | called r env code event free performs shared request => exact step_none performs shared
  | idle performs same => exact step_none performs (congrArg Pool.shared same)
  | resumed r env code o k performs awaits shared request =>
    cases points past r code _ awaits with
    | start => exact step_find performs shared
    | looking answered => exact step_find performs shared
    | consuming looked rest answered hrows found => exact step_find performs shared
    | writing looked last rest answered hrows found =>
      exact step_save performs shared hrows answered found

/-! ## The lists of codes -/

/-- The list of a schedule's start. -/
def initialCodes (s : State) (userId : String) : List String :=
  ((s.users.get userId).map backupCodes).getD []

/-- What is left of a list when some codes are used. -/
def unused (crypto : Crypto) (initial codes : List String) : List String :=
  initial.filter fun hash => hash ∉ hashes crypto codes

theorem unused_cons {initial : List String} (h : initial.Nodup) (code : String)
    (codes : List String) :
    (unused crypto initial codes).erase (crypto.sha256 code) =
      unused crypto initial (code :: codes) := by
  unfold unused
  rw [(h.filter _).erase_eq_filter, List.filter_filter]
  refine List.filter_congr fun hash _ => ?_
  rw [Bool.eq_iff_iff]
  simp [hashes]

/-- Every list that has been read, and the stored one, is the first one less some codes that
are accepted; the stored one is without all of them. -/
structure Inv (crypto : Crypto) (userId : String) (s : State) (schedule : List (CodeEvent R)) :
    Prop where
  stored : ∀ row, (reached crypto userId s schedule).shared.users.get userId = some row →
    backupCodes row = unused crypto (initialCodes s userId) (accepted crypto userId s schedule)
  read : ∀ r, ∀ row ∈ reads crypto userId s schedule r, row .id = userId ∧
    ((reached crypto userId s schedule).shared.users.get userId).isSome = true ∧
    ∃ codes, codes ⊆ accepted crypto userId s schedule ∧
      backupCodes row = unused crypto (initialCodes s userId) codes

/-- The stored row, when a request that has looked its code up writes. -/
theorem Inv.looked {past : List (CodeEvent R)} {r : R} {looked last : User} {rest : List User}
    (h : Inv crypto userId s past)
    (read : reads crypto userId s past r = last :: looked :: rest) :
    ∃ row, (reached crypto userId s past).shared.users.get userId = some row :=
  Option.isSome_iff_exists.mp (h.read r looked (by simp [read])).2.1

theorem Inv.written_id {past : List (CodeEvent R)} {r : R} {looked last : User}
    {rest : List User} (h : Inv crypto userId s past)
    (read : reads crypto userId s past r = last :: looked :: rest) (code : String) :
    written crypto code looked last .id = userId :=
  (BackupCodes.written_id code looked last).trans (h.read r last (by simp [read])).1

theorem Inv.step {past : List (CodeEvent R)} {i : CodeEvent R}
    (hnodup : (initialCodes s userId).Nodup) (h : Inv crypto userId s past)
    (hi : Undisturbed crypto userId s past i) : Inv crypto userId s (i :: past) := by
  cases BackupCodes.step crypto userId s past i with
  | quiet users accepts rows refused =>
    constructor
    · rw [users, accepts]
      exact h.stored
    · intro r row hrow
      rw [accepts, users]
      rcases rows r with hsame | ⟨row', hget, hcons⟩
      · rw [hsame] at hrow
        exact h.read r row hrow
      · rw [hcons] at hrow
        rcases List.mem_cons.mp hrow with rfl | hrow
        · exact ⟨Repository.key_of_get hget, Option.isSome_of_eq_some hget, _,
            List.Subset.refl _, h.stored row hget⟩
        · exact h.read r row hrow
  | writes r env code looked last rest performs free read answered found users accepts rows =>
    have hget : (reached crypto userId s (i :: past)).shared.users.get userId =
        some (written crypto code looked last) := by
      rw [users, ← h.written_id read code, Repository.get_save_self]
    constructor
    · intro row hrow
      cases hget.symm.trans hrow
      obtain ⟨stored, hstored⟩ := h.looked read
      have hcodes := hi r env code _ last looked rest stored performs free read hstored
      rw [backupCodes_written, accepts, ← unused_cons hnodup, ← h.stored stored hstored,
        backupCodes, backupCodes, hcodes]
    · intro r' row hrow
      rw [rows] at hrow
      obtain ⟨hid, -, codes, hsub, hcodes⟩ := h.read r' row hrow
      rw [accepts]
      exact ⟨hid, Option.isSome_of_eq_some hget, codes,
        fun c hc => List.mem_cons_of_mem code (hsub hc), hcodes⟩

/-- The list has hashes of codes that `generateBackupCodes` has made, from random strings of ten
characters. -/
def Generated (crypto : Crypto) (stored : List String) : Prop :=
  ∀ hash ∈ stored, ∃ random : Nat → String, (∀ i, (random i).length = 10) ∧
    hash ∈ hashes crypto (generateBackupCodes random)

/-- A code with its hash in the list has ten characters. -/
theorem Generated.length_eq (hinj : Function.Injective crypto.sha256) {stored : List String}
    (h : Generated crypto stored) {code : String} (hmem : crypto.sha256 code ∈ stored) :
    code.length = 10 := by
  obtain ⟨random, hlength, hhash⟩ := h _ hmem
  obtain ⟨generated, hgenerated, heq⟩ := List.mem_map.mp hhash
  rw [← hinj heq]
  exact length_of_mem_generateBackupCodes hlength hgenerated

section Example

def exampleCrypto : Crypto :=
  .sample "A1B2C3D4E5" "c3d393ee2620174b4c644049767c0f777a38b0e606e47b04527783d64b54fd3a"

/-- A user with a second factor and one backup code. -/
def exampleState : State where
  users := Repository.empty.save (spread (User.default "u" 0)
    (((Patch.empty.set .mfaEnabled true).set .mfaSecret (some "0000:SECRET")).set .mfaBackupCodes
      (some ["c3d393ee2620174b4c644049767c0f777a38b0e606e47b04527783d64b54fd3a"])))
  refreshTokens := .empty
  resetTokens := .empty
  auditLogs := []

/-- Two requests with the same code, step by step together. Newest event first. -/
def together : List (CodeEvent Bool) :=
  let env : Env := ⟨0, "", fun _ => ""⟩
  [ .resume true env, .resume false env, .resume true env, .resume false env,
    .resume true env, .resume false env, .resume true env, .resume false env,
    .call true env "A1B2C3D4E5", .call false env "A1B2C3D4E5" ]

end Example

end Scoopdope.Auth.BackupCodes

import Scoopdope.ApiKeys.Encryption

/-!
# API keys: who is let in

`ApiKeyStrategy` (`auth/api-key.strategy.ts`) lets a request in whose header has a key that hashes
to the hash of an active row. The rows are written by `ApiKeysService` and by the two methods that
`TokenService` (`auth/token.service.ts`) has for administrators.

The requests are served one after another. What an update does that runs together with a revocation,
and writes the row that it has read before, is not part of this. Neither is `SecretRotationService`,
whose module the application does not import.

A ledger of what was issued and revoked says who is to be let in. `key_accepted_iff`: after every
run it is they who are. `refused_until_issued`: a key that is refused, as one that was revoked or
rotated away, stays refused until one with its hash is issued.
-/

namespace Scoopdope.ApiKeys

open Async Database Database.Statements Server Soroban

section Service

variable (crypto : Crypto) (around : Around)

/-- `TokenService.generateApiKey`. -/
def generateApiKey (drawn : Drawn) (userId name : String) : Method String := do
  let hash := crypto.sha256 (rawKey drawn)
  let key ← saveNew apiKeyRepo { name, description := none, keyHash := hash, userId }
  auditLog .apiKeyCreated userId true { keyId := key.id, name := some name }
  pure (rawKey drawn)

def deactivated (key : ApiKey) : ApiKey := { key with isActive := false }

/-- The entry that `TokenService.revokeApiKey` writes to the audit log. Without a user it is left
out here. -/
def auditRevoked (id : String) (userId : Option String) : Method Unit :=
  match userId with
  | some userId => auditLog .apiKeyRevoked userId true { keyId := id }
  | none => pure ()

/-- `TokenService.revokeApiKey`. -/
def revokeApiKey (id : String) (userId : Option String) : Method String := do
  statement (.update apiKeyRepo (.id id) deactivated)
  auditRevoked id userId
  pure "API key revoked"

/-- The row that the strategy finds for a key. -/
def accepted (s : State) (apiKey : String) : Option KeyRow :=
  (keys s).findOne fun row => row.data.keyHash = crypto.sha256 apiKey ∧ row.data.isActive = true

def usedAt (now : Int) (key : ApiKey) : ApiKey := { key with lastUsedAt := some now }

/-- The date of use is written in the background, if it is. -/
def touch (s : State) (row : KeyRow) (used : Option Int) : State :=
  match used with
  | some now =>
    { tables := (Schema.query (around.generated s.count) s.tables
        (.update apiKeyRepo (.id row.id) (usedAt now))).2
      count := s.count + 1 }
  | none => s

end Service

inductive Request
  | service (call : Call)
  | generateApiKey (drawn : Drawn) (userId name : String)
  | revokeApiKey (id : String) (userId : Option String)
  /-- A request with a key in its header, and the date of use if it comes to be written. -/
  | authenticate (apiKey : String) (used : Option Int)

/-- What the ledger has of a key. -/
structure Issue where
  userId : String
  keyHash : String
  isActive : Bool
deriving DecidableEq

abbrev Ledger : Type := String → Option Issue

section Runs

variable (crypto : Crypto) (around : Around)

/-- The state after a request that is served alone. -/
def Request.next (s : State) : Request → State
  | .service call => ApiKeys.next crypto around s call
  | .generateApiKey drawn userId name =>
    (alone around s (ApiKeys.generateApiKey crypto drawn userId name)).2
  | .revokeApiKey id userId => (alone around s (ApiKeys.revokeApiKey id userId)).2
  | .authenticate apiKey used =>
    match accepted crypto s apiKey with
    | some row => touch around s row used
    | none => s

def Request.exec (s : State) (i : Request) : Outcome State := .ok (i.next crypto around s)

/-- A key with another hash. -/
def Issue.rotated (drawn : Drawn) (key : Issue) : Issue :=
  { key with keyHash := crypto.sha256 (rawKey drawn) }

def Issue.revoked (key : Issue) : Issue := { key with isActive := false }

/-- A new entry is made if the answer is no exception. -/
def enter {A : Type} (answer : Except HttpException A) (g : Ledger) (id : A → String)
    (x : Issue) : Ledger :=
  match answer with
  | .ok a => Function.update g (id a) (some x)
  | .error _ => g

/-- An entry is changed if the answer is no exception. -/
def amend {A : Type} (answer : Except HttpException A) (g : Ledger) (id : String)
    (f : Issue → Issue) : Ledger :=
  match answer with
  | .ok _ => Function.update g id ((g id).map f)
  | .error _ => g

/-- What a request that has been answered without an exception does to the ledger. -/
def note (g : Ledger) (s : State) : Request → Ledger
  | .service (.create drawn userId name description) =>
    enter (alone around s (create crypto drawn userId name description)).1 g IssuedKey.id
      ⟨userId, crypto.sha256 (rawKey drawn), true⟩
  | .service (.rotate drawn id userId) =>
    amend (alone around s (rotate crypto drawn id userId)).1 g id (Issue.rotated crypto drawn)
  | .service (.revoke id userId) =>
    amend (alone around s (revoke crypto id userId)).1 g id Issue.revoked
  | .service (.adminForceRevoke id) =>
    amend (alone around s (adminForceRevoke crypto id)).1 g id Issue.revoked
  | .service _ => g
  | .generateApiKey drawn userId name =>
    enter (alone around s (ApiKeys.generateApiKey crypto drawn userId name)).1 g
      (fun _ => around.key s.count) ⟨userId, crypto.sha256 (rawKey drawn), true⟩
  | .revokeApiKey id userId =>
    amend (alone around s (ApiKeys.revokeApiKey id userId)).1 g id Issue.revoked
  | .authenticate _ _ => g

end Runs

/-! ## What a request does to the rows -/

variable {crypto : Crypto} {around : Around} {s : State} {A : Type}

/-- What the ledger has of a row. -/
def issue (row : KeyRow) : Issue := ⟨row.data.userId, row.data.keyHash, row.data.isActive⟩

/-- The ledger that the rows amount to. -/
def issues (s : State) : Ledger := fun id => ((keys s).get id).map issue

/-- A part whose exceptions are dropped does not keep the rest from its answer. -/
theorem run_dropped {I : Interface} {E X S : Type}
    {handle : E → S → (o : I.Op) → I.Answer o × S} {e : E} {s : S} (p : Process I E X Unit)
    (a : A) :
    (Process.run handle e s ((p.tryCatch fun _ => pure ()) >>= fun _ => pure a)).1 = .ok a := by
  induction p generalizing s with
  | ret => rfl
  | fail x => rfl
  | ask k ih => exact ih e
  | await o k ih => exact ih _

/-- Writing the audit log does not throw. -/
theorem audit_answer {action : AuditAction} {userId : String} {success : Bool}
    {metadata : Metadata} (a : A) :
    (alone around s (auditLog action userId success metadata >>=
      fun _ => (pure a : Method A))).1 = .ok a :=
  run_dropped _ a

theorem issue_decrypt (crypto : Crypto) (row : KeyRow) :
    issue (decryptApiKey crypto row) = issue row := by
  unfold decryptApiKey
  split
  · rfl
  · split <;> rfl

variable (crypto around s) in
/-- A call that saves what it has read answers exactly if it does save a row. -/
theorem rewriting_answer (w : Rewrite) (x : HttpException) {rest : KeyRow → Method A}
    (hrest : ∀ s row, (∃ a, (alone around s (rest row)).1 = .ok a) ∧
      keys (alone around s (rest row)).2 = keys s) :
    (∃ row a, Writes crypto around s w row ∧
      (alone around s (rewriting crypto w x rest)).1 = .ok a ∧
      keys (alone around s (rewriting crypto w x rest)).2 =
        (keys s).save (resaved crypto around (s.count + 1) w row)) ∨
    ∃ y, (alone around s (rewriting crypto w x rest)).1 = .error y ∧
      keys (alone around s (rewriting crypto w x rest)).2 = keys s := by
  rcases rewriting_cases crypto around s w x rest with
    ⟨row, hwrites, hrun⟩ | ⟨-, y, s', hrun, hkeys⟩
  · obtain ⟨⟨a, ha⟩, hkeys⟩ := hrest (s.tick.put apiKeyRepo
      (resaved crypto around (s.count + 1) w row)) (resaved crypto around (s.count + 1) w row)
    refine .inl ⟨row, a, hwrites, by rw [hrun, ha], ?_⟩
    rw [hrun, hkeys]
    exact Served.put_tables_self (S := schema) s.tick apiKeyRepo _
  · exact .inr ⟨y, by rw [hrun], by rw [hrun, hkeys]⟩

/-- The ledger after a row is written. -/
theorem issues_save {s' : State} {row : KeyRow} (h : keys s' = (keys s).save row) :
    issues s' = Function.update (issues s) row.id (some (issue row)) := by
  funext id
  unfold issues
  rw [h, Repository.get_save, Function.update_apply]
  split
  · rfl
  · rfl

theorem issue_resaved {w : Rewrite} {row : KeyRow} {n : Nat} {f : Issue → Issue}
    (hcolumns : ∀ key : ApiKey, (⟨(w.columns key).userId, (w.columns key).keyHash,
      (w.columns key).isActive⟩ : Issue) = f ⟨key.userId, key.keyHash, key.isActive⟩) :
    issue (resaved crypto around n w row) = f (issue row) := by
  rw [← issue_decrypt crypto row]
  exact hcolumns _

/-- No two keys have one hash. -/
abbrev Distinct (s : State) : Prop := Schema.Respected (keys s)

theorem conflict_symm (a b : ApiKey) :
    schema.conflict apiKeyRepo a b = schema.conflict apiKeyRepo b a :=
  decide_eq_decide.mpr eq_comm

variable (around) in
/-- A call that goes through does to the ledger what it does to the row. -/
theorem rewriting_issues {p : Method A} {w : Rewrite} {x : HttpException}
    {rest : KeyRow → Method A} (f : Issue → Issue) (hp : p = rewriting crypto w x rest)
    (hrest : ∀ s row, (∃ a, (alone around s (rest row)).1 = .ok a) ∧
      keys (alone around s (rest row)).2 = keys s)
    (hcolumns : ∀ key : ApiKey, (⟨(w.columns key).userId, (w.columns key).keyHash,
      (w.columns key).isActive⟩ : Issue) = f ⟨key.userId, key.keyHash, key.isActive⟩)
    (hdistinct : Distinct s) :
    Distinct (alone around s p).2 ∧
      issues (alone around s p).2 = amend (alone around s p).1 (issues s) w.id f := by
  subst hp
  rcases rewriting_answer crypto around s w x hrest with
    ⟨row, a, hwrites, hanswer, hkeys⟩ | ⟨y, hanswer, hkeys⟩
  · refine ⟨?_, ?_⟩
    · unfold Distinct
      rw [hkeys]
      exact hdistinct.save_row conflict_symm hwrites.free
    · have hrow : issues s w.id = some (issue row) := by
        have hget := (Repository.findOne_some hwrites.found).2
        unfold issues
        rw [← found_id hwrites, hget, Option.map_some]
      rw [hanswer, amend, issues_save hkeys, resaved_id, found_id hwrites, hrow, Option.map_some,
        issue_resaved hcolumns]
  · refine ⟨?_, ?_⟩
    · unfold Distinct
      rw [hkeys]
      exact hdistinct
    · rw [hanswer, amend]
      unfold issues
      rw [hkeys]

variable (around s) in
/-- A new key is in the ledger under the id that the database gives it. -/
theorem saveNew_issues (data : ApiKey) (rest : KeyRow → Method A) (answer : KeyRow → A)
    (hrest : ∀ s row, (alone around s (rest row)).1 = .ok (answer row) ∧
      keys (alone around s (rest row)).2 = keys s) (hdistinct : Distinct s) :
    Distinct (alone around s (saveNew apiKeyRepo data >>= rest)).2 ∧
      ((∃ row : KeyRow, row.id = around.key s.count ∧ row.data = data ∧
          (alone around s (saveNew apiKeyRepo data >>= rest)).1 = .ok (answer row) ∧
          issues (alone around s (saveNew apiKeyRepo data >>= rest)).2 =
            Function.update (issues s) row.id (some (issue row))) ∨
        ∃ y, (alone around s (saveNew apiKeyRepo data >>= rest)).1 = .error y ∧
          issues (alone around s (saveNew apiKeyRepo data >>= rest)).2 = issues s) := by
  rw [run_saveNew (S := schema)]
  cases around.fails s.count (.insert apiKeyRepo data) with
  | some y => exact ⟨hdistinct, .inr ⟨y, rfl, rfl⟩⟩
  | none =>
    dsimp only
    cases hinsert : (Schema.insert (around.generated s.count) (s.tables apiKeyRepo) data).1 with
    | none => exact ⟨hdistinct, .inr ⟨around.duplicate, rfl, rfl⟩⟩
    | some row =>
      obtain ⟨hrow, -, hfree⟩ := insert_some.mp hinsert
      obtain ⟨hanswer, hrestKeys⟩ := hrest (s.put apiKeyRepo row) row
      have hkeys : keys (alone around (s.put apiKeyRepo row) (rest row)).2 = (keys s).save row :=
        hrestKeys.trans (Served.put_tables_self (S := schema) s apiKeyRepo row)
      refine ⟨?_, .inl ⟨row, by rw [hrow]; rfl, by rw [hrow]; rfl, hanswer, issues_save hkeys⟩⟩
      unfold Distinct
      dsimp only
      rw [hkeys]
      exact hdistinct.save_row conflict_symm hfree

/-- An update of a row that changes no hash. -/
theorem update_issues {s' : State} {id : String} (columns : ApiKey → ApiKey) (f : Issue → Issue)
    (hcolumns : ∀ key : ApiKey, (⟨(columns key).userId, (columns key).keyHash,
      (columns key).isActive⟩ : Issue) = f ⟨key.userId, key.keyHash, key.isActive⟩)
    (hhash : ∀ key : ApiKey, (columns key).keyHash = key.keyHash)
    (h : keys s' = (keys s).update (Schema.rewrite (S := schema) (t := apiKeyRepo) (.id id) columns)
      (Schema.rewrite_id _ _)) (hdistinct : Distinct s) :
    Distinct s' ∧ issues s' = Function.update (issues s) id ((issues s id).map f) := by
  have hdata : ∀ row : KeyRow, (Schema.rewrite (S := schema) (t := apiKeyRepo) (.id id) columns
      row).data.keyHash = row.data.keyHash := by
    intro row
    unfold Schema.rewrite
    split
    · exact hhash row.data
    · rfl
  refine ⟨?_, funext fun other => ?_⟩
  · unfold Distinct
    rw [h]
    intro a ha b hb hne
    obtain ⟨a, haold, rfl⟩ := Repository.mem_update.mp ha
    obtain ⟨b, hbold, rfl⟩ := Repository.mem_update.mp hb
    rw [Schema.rewrite_id, Schema.rewrite_id] at hne
    have hfree := hdistinct a haold b hbold hne
    have hconflict : ∀ a b : ApiKey, schema.conflict apiKeyRepo a b =
        decide (a.keyHash = b.keyHash) := fun _ _ => rfl
    rw [hconflict] at hfree ⊢
    rw [hdata, hdata]
    exact hfree
  · unfold issues
    rw [h, Repository.get_update, Function.update_apply, Option.map_map]
    cases hrow : (keys s).get other with
    | none =>
      split
      · next heq => rw [← heq, hrow]; rfl
      · rfl
    | some row =>
      have hkey : row.id = other := Repository.key_of_get hrow
      have hholds : schema.holds apiKeyRepo (KeyWhere.id id) row = decide (row.id = id) := rfl
      rw [Option.map_some, Function.comp_apply, Schema.rewrite, hholds, hkey]
      by_cases heq : other = id
      · rw [if_pos heq, if_pos (decide_eq_true heq), ← heq, hrow]
        exact congrArg some (hcolumns row.data)
      · rw [if_neg heq, if_neg (by rw [decide_eq_false heq]; exact Bool.false_ne_true)]
        rfl

theorem issues_of_keys {s' : State} (h : keys s' = keys s) (hdistinct : Distinct s) :
    Distinct s' ∧ issues s' = issues s := by
  unfold Distinct issues
  rw [h]
  exact ⟨hdistinct, rfl⟩

variable (crypto around) in
theorem create_issues (drawn : Drawn) (userId name : String) (description : Option String)
    (hdistinct : Distinct s) :
    Distinct (next crypto around s (.create drawn userId name description)) ∧
      issues (next crypto around s (.create drawn userId name description)) =
        note crypto around (issues s) s (.service (.create drawn userId name description)) := by
  obtain ⟨hkept, hcases⟩ := saveNew_issues around s
    { name, description := encryptDescription crypto drawn description
      keyHash := crypto.sha256 (rawKey drawn), userId, isActive := true }
    (fun key => auditLog .apiKeyCreated userId true { keyId := key.id, name := some name } >>=
      fun _ => pure { id := key.id, name := key.data.name, apiKey := rawKey drawn })
    (fun key => ({ id := key.id, name := key.data.name, apiKey := rawKey drawn } : IssuedKey))
    (fun s row => ⟨audit_answer _, keys_after_audit _⟩) hdistinct
  refine ⟨hkept, ?_⟩
  rcases hcases with ⟨row, hid, hdata, hanswer, hissues⟩ | ⟨y, hanswer, hissues⟩
  · have hrun : (alone around s (create crypto drawn userId name description)).1 =
        .ok { id := row.id, name := row.data.name, apiKey := rawKey drawn } := hanswer
    rw [note, hrun, enter]
    refine hissues.trans ?_
    rw [issue, hdata]
  · have hrun : (alone around s (create crypto drawn userId name description)).1 = .error y :=
      hanswer
    rw [note, hrun, enter]
    exact hissues

variable (crypto around) in
theorem generateApiKey_issues (drawn : Drawn) (userId name : String) (hdistinct : Distinct s) :
    Distinct ((Request.generateApiKey drawn userId name).next crypto around s) ∧
      issues ((Request.generateApiKey drawn userId name).next crypto around s) =
        note crypto around (issues s) s (.generateApiKey drawn userId name) := by
  obtain ⟨hkept, hcases⟩ := saveNew_issues around s
    { name, description := none, keyHash := crypto.sha256 (rawKey drawn), userId }
    (fun key => auditLog .apiKeyCreated userId true { keyId := key.id, name := some name } >>=
      fun _ => pure (rawKey drawn))
    (fun _ => rawKey drawn) (fun s row => ⟨audit_answer _, keys_after_audit _⟩) hdistinct
  refine ⟨hkept, ?_⟩
  rcases hcases with ⟨row, hid, hdata, hanswer, hissues⟩ | ⟨y, hanswer, hissues⟩
  · have hrun : (alone around s (generateApiKey crypto drawn userId name)).1 =
        .ok (rawKey drawn) := hanswer
    rw [note, hrun, enter]
    refine hissues.trans ?_
    rw [issue, hdata, hid]
  · have hrun : (alone around s (generateApiKey crypto drawn userId name)).1 = .error y :=
      hanswer
    rw [note, hrun, enter]
    exact hissues

variable (crypto around) in
theorem rewrite_issues (i : Call) (hdistinct : Distinct s) (hnew : ∀ drawn userId name description,
      i ≠ .create drawn userId name description) :
    Distinct (next crypto around s i) ∧
      issues (next crypto around s i) = note crypto around (issues s) s (.service i) := by
  have haudit : ∀ {B : Type} {action : AuditAction} {userId : String} {metadata : Metadata}
      (s : State) (b : B), (∃ a, (alone around s (auditLog action userId true metadata >>=
        fun _ => (pure b : Method B))).1 = .ok a) ∧
      keys (alone around s (auditLog action userId true metadata >>=
        fun _ => (pure b : Method B))).2 = keys s :=
    fun s b => ⟨⟨b, audit_answer b⟩, keys_after_audit b⟩
  cases i with
  | create drawn userId name description => exact absurd rfl (hnew drawn userId name description)
  | findByUser userId =>
    refine issues_of_keys (run_spares (S := schema) (t := apiKeyRepo) ?_) hdistinct
    exact Process.only_bind (only_statement nofun) fun _ => trivial
  | findById id userId =>
    refine issues_of_keys (run_spares (S := schema) (t := apiKeyRepo) ?_) hdistinct
    refine Process.only_bind (only_statement nofun) fun row => ?_
    cases row <;> trivial
  | update drawn id userId data =>
    have hform : update crypto drawn id userId data =
        rewriting crypto ⟨id, some userId, fun _ => false, updated crypto drawn data⟩
          (.notFound "") (fun key => pure (maskKey crypto key)) := by
      unfold update rewriting
      simp only [Bool.false_eq_true, if_false]
    have hstep := rewriting_issues around (fun key => key) hform
      (fun s row => ⟨⟨_, rfl⟩, rfl⟩) (fun _ => rfl) hdistinct
    refine ⟨hstep.1, hstep.2.trans ?_⟩
    unfold amend
    rw [Option.map_id', Function.update_eq_self]
    split <;> rfl
  | revoke id userId =>
    have hform : revoke crypto id userId = rewriting crypto
        ⟨id, some userId, fun key => !key.isActive, fun key => { key with isActive := false }⟩
        (.conflict "API key is already revoked")
        (fun key => auditLog .apiKeyRevoked userId true
          { keyId := id, name := some key.data.name } >>=
            fun _ => pure "API key revoked successfully") := by
      unfold revoke rewriting
      simp only [Bool.not_eq_true']
    exact rewriting_issues around Issue.revoked hform (fun s _ => haudit s _) (fun _ => rfl)
      hdistinct
  | rotate drawn id userId =>
    have hform : rotate crypto drawn id userId = rewriting crypto
        ⟨id, some userId, fun key => !key.isActive, fun key =>
          { key with keyHash := crypto.sha256 (rawKey drawn), lastUsedAt := none }⟩
        (.conflict "Cannot rotate a revoked API key")
        (fun key => auditLog .apiKeyRotated userId true { keyId := id } >>=
          fun _ => pure { id := key.id, name := key.data.name, apiKey := rawKey drawn }) := by
      unfold rotate rewriting
      simp only [Bool.not_eq_true']
    exact rewriting_issues around (Issue.rotated crypto drawn) hform (fun s _ => haudit s _)
      (fun _ => rfl) hdistinct
  | adminForceRevoke id =>
    have hform : adminForceRevoke crypto id = rewriting crypto
        ⟨id, none, fun key => !key.isActive, fun key => { key with isActive := false }⟩
        (.conflict "API key is already revoked")
        (fun key => auditLog .apiKeyRevoked key.data.userId true
          { keyId := id, name := some key.data.name, forcedByAdmin := true } >>=
            fun _ => pure "API key revoked by admin") := by
      unfold adminForceRevoke rewriting
      simp only [Bool.not_eq_true']
    exact rewriting_issues around Issue.revoked hform (fun s _ => haudit s _) (fun _ => rfl)
      hdistinct

variable (crypto around) in
theorem revokeApiKey_issues (id : String) (userId : Option String) (hdistinct : Distinct s) :
    Distinct ((Request.revokeApiKey id userId).next crypto around s) ∧
      issues ((Request.revokeApiKey id userId).next crypto around s) =
        note crypto around (issues s) s (.revokeApiKey id userId) := by
  have hrest : ∀ s : State,
      (alone around s (auditRevoked id userId >>= fun _ => (pure "API key revoked" :
        Method String))).1 = .ok "API key revoked" ∧
      keys (alone around s (auditRevoked id userId >>= fun _ => (pure "API key revoked" :
        Method String))).2 = keys s := by
    intro s
    cases userId with
    | some userId => exact ⟨audit_answer _, keys_after_audit _⟩
    | none => exact ⟨rfl, rfl⟩
  have hrun : alone around s (revokeApiKey id userId) =
      Process.run (handle (S := schema)) around
        (handle (S := schema) around s (.update apiKeyRepo (.id id) deactivated)).2
        ((Process.ofExcept (handle (S := schema) around s
          (.update apiKeyRepo (.id id) deactivated)).1 : Method Unit) >>= fun _ =>
            auditRevoked id userId >>= fun _ => pure "API key revoked") := rfl
  have hnote : note crypto around (issues s) s (.revokeApiKey id userId) =
      amend (alone around s (revokeApiKey id userId)).1 (issues s) id Issue.revoked := rfl
  have hnext : (Request.revokeApiKey id userId).next crypto around s =
      (alone around s (revokeApiKey id userId)).2 := rfl
  rw [hnote, hnext]
  cases hfails : around.fails s.count (.update apiKeyRepo (.id id) deactivated) with
  | some x =>
    have hfailed : handle (S := schema) around s (.update apiKeyRepo (.id id) deactivated) =
        (.error x, s.tick) := by
      unfold handle
      rw [hfails]
    rw [hrun, hfailed]
    exact ⟨hdistinct, rfl⟩
  | none =>
    obtain ⟨updated, hupdated⟩ : ∃ updated : State, updated =
        ⟨(Schema.query (around.generated s.count) s.tables
          (.update apiKeyRepo (.id id) deactivated)).2, s.count + 1⟩ := ⟨_, rfl⟩
    have hserved : handle (S := schema) around s (.update apiKeyRepo (.id id) deactivated) =
        (.ok (), updated) := by
      unfold handle
      rw [hfails, hupdated]
    rw [hrun, hserved]
    obtain ⟨hanswer, hkept⟩ := hrest updated
    have hkeys : keys (alone around updated (auditRevoked id userId >>= fun _ =>
          (pure "API key revoked" : Method String))).2 =
        (keys s).update (Schema.rewrite (S := schema) (t := apiKeyRepo) (.id id) deactivated)
          (Schema.rewrite_id _ _) := by
      rw [hkept, hupdated]
      exact Function.update_self apiKeyRepo _ s.tables
    obtain ⟨hdistinct, hissues⟩ := update_issues deactivated Issue.revoked (fun _ => rfl)
      (fun _ => rfl) hkeys hdistinct
    refine ⟨hdistinct, hissues.trans ?_⟩
    have hamend : amend (alone around updated (auditRevoked id userId >>= fun _ =>
          (pure "API key revoked" : Method String))).1 (issues s) id Issue.revoked =
        Function.update (issues s) id ((issues s id).map Issue.revoked) := by
      rw [hanswer, amend]
    exact hamend.symm

theorem touch_issues (row : KeyRow) (used : Option Int) (hdistinct : Distinct s) :
    Distinct (touch around s row used) ∧ issues (touch around s row used) = issues s := by
  cases used with
  | none => exact ⟨hdistinct, rfl⟩
  | some now =>
    have hkeys : keys (touch around s row (some now)) = (keys s).update
        (Schema.rewrite (S := schema) (t := apiKeyRepo) (.id row.id) (usedAt now))
        (Schema.rewrite_id _ _) := Function.update_self apiKeyRepo _ s.tables
    obtain ⟨hkept, hissues⟩ := update_issues (usedAt now) (fun key => key) (fun _ => rfl)
      (fun _ => rfl) hkeys hdistinct
    rw [Option.map_id', Function.update_eq_self] at hissues
    exact ⟨hkept, hissues⟩

variable (crypto around) in
/-- The rows amount to the ledger after a request if they did before it. -/
theorem next_issues (i : Request) (hdistinct : Distinct s) :
    Distinct (i.next crypto around s) ∧
      issues (i.next crypto around s) = note crypto around (issues s) s i := by
  cases i with
  | service call =>
    by_cases hnew : ∃ drawn userId name description, call = .create drawn userId name description
    · obtain ⟨drawn, userId, name, description, rfl⟩ := hnew
      exact create_issues crypto around drawn userId name description hdistinct
    · exact rewrite_issues crypto around call hdistinct fun drawn userId name description heq =>
        hnew ⟨drawn, userId, name, description, heq⟩
  | generateApiKey drawn userId name =>
    exact generateApiKey_issues crypto around drawn userId name hdistinct
  | revokeApiKey id userId => exact revokeApiKey_issues crypto around id userId hdistinct
  | authenticate apiKey used =>
    cases hfound : accepted crypto s apiKey with
    | none =>
      have hnext : (Request.authenticate apiKey used).next crypto around s = s := by
        rw [Request.next, hfound]
      rw [hnext]
      exact ⟨hdistinct, rfl⟩
    | some row =>
      have hnext : (Request.authenticate apiKey used).next crypto around s =
          touch around s row used := by
        rw [Request.next, hfound]
      rw [hnext]
      exact touch_issues row used hdistinct

/-! ## Runs -/

section Ledgers

variable (crypto : Crypto) (around : Around)

/-- The state after a run, one request after another, that starts without keys. -/
abbrev served (past : List Request) : State :=
  after (Request.exec crypto around) Served.empty past

/-- The ledger along the run. -/
def ledger (past : List Request) : Ledger :=
  traced (Request.exec crypto around) Served.empty (note crypto around) (fun _ => none) past

theorem served_ledger (past : List Request) :
    Distinct (served crypto around past) ∧
      issues (served crypto around past) = ledger crypto around past := by
  refine after_traced (R := fun s g => Distinct s ∧ issues s = g) ?_ past
    fun e i s' _ hrel he => ?_
  · exact ⟨respected_empty, funext fun id => congrArg (Option.map issue) Repository.get_empty⟩
  · obtain ⟨hdistinct, hissues⟩ := hrel
    cases he
    rw [← hissues]
    exact next_issues crypto around i hdistinct

variable {crypto around}

theorem accepted_some_iff {apiKey : String} {row : KeyRow} (hdistinct : Distinct s) :
    accepted crypto s apiKey = some row ↔
      row ∈ keys s ∧ row.data.keyHash = crypto.sha256 apiKey ∧ row.data.isActive = true := by
  constructor
  · intro h
    obtain ⟨hholds, hget⟩ := Repository.findOne_some h
    exact ⟨hget, of_decide_eq_true hholds⟩
  · rintro ⟨hrow, hhash, hactive⟩
    refine Repository.findOne_of_unique hrow (decide_eq_true ⟨hhash, hactive⟩)
      fun other hother hholds => ?_
    by_contra hne
    have hfree := hdistinct other hother row hrow hne
    exact absurd ((of_decide_eq_true hholds).1.trans hhash.symm) (of_decide_eq_false hfree)

theorem ledger_of_accepted {past : List Request} {apiKey : String} {row : KeyRow}
    (h : accepted crypto (served crypto around past) apiKey = some row) :
    ledger crypto around past row.id = some ⟨row.data.userId, crypto.sha256 apiKey, true⟩ := by
  obtain ⟨hdistinct, hissues⟩ := served_ledger crypto around past
  obtain ⟨hmem, hhash, hactive⟩ := (accepted_some_iff hdistinct).mp h
  have hget : (keys (served crypto around past)).get row.id = some row := hmem
  rw [← hissues, issues, hget, Option.map_some, issue, hhash, hactive]

/-- After every run, a key is accepted for a user exactly if it hashes to what the ledger has of a
key of this user that is active. -/
theorem key_accepted_iff (past : List Request) (apiKey userId : String) :
    (accepted crypto (served crypto around past) apiKey).map (fun row => row.data.userId) =
        some userId ↔
      ∃ id, ledger crypto around past id = some ⟨userId, crypto.sha256 apiKey, true⟩ := by
  obtain ⟨hdistinct, hissues⟩ := served_ledger crypto around past
  rw [Option.map_eq_some_iff]
  constructor
  · rintro ⟨row, hrow, rfl⟩
    exact ⟨row.id, ledger_of_accepted hrow⟩
  · rintro ⟨id, hid⟩
    rw [← hissues] at hid
    obtain ⟨row, hget, hrow⟩ := Option.map_eq_some_iff.mp hid
    obtain ⟨huser, hhash, hactive⟩ := Issue.mk.inj hrow
    refine ⟨row, (accepted_some_iff hdistinct).mpr ⟨?_, hhash, hactive⟩, huser⟩
    rw [Repository.mem_def, Repository.key_of_get hget]
    exact hget

/-- The request issues a key with the hash of this one. -/
def Request.Issues (crypto : Crypto) (apiKey : String) : Request → Prop
  | .service (.create drawn _ _ _) => crypto.sha256 (rawKey drawn) = crypto.sha256 apiKey
  | .service (.rotate drawn _ _) => crypto.sha256 (rawKey drawn) = crypto.sha256 apiKey
  | .generateApiKey drawn _ _ => crypto.sha256 (rawKey drawn) = crypto.sha256 apiKey
  | _ => False

theorem eq_of_enter {answer : Except HttpException A} {g : Ledger} {key : A → String}
    {other : String} {x y : Issue} (hne : y ≠ x) (h : enter answer g key y other = some x) :
    g other = some x := by
  cases answer with
  | error z => exact h
  | ok a =>
    rw [enter, Function.update_apply] at h
    split at h
    · exact absurd (Option.some.inj h) hne
    · exact h

theorem eq_of_amend {answer : Except HttpException A} {g : Ledger} {key other : String}
    {f : Issue → Issue} {x : Issue} (hf : ∀ y, f y = x → y = x)
    (h : amend answer g key f other = some x) : g other = some x := by
  cases answer with
  | error y => exact h
  | ok a =>
    rw [amend, Function.update_apply] at h
    split at h
    · next heq =>
      obtain ⟨y, hy, hx⟩ := Option.map_eq_some_iff.mp h
      rw [heq, hy, hf y hx]
    · exact h

/-- Only a request that issues the hash makes an entry that is active and has it. -/
theorem active_before {i : Request} {apiKey : String} (hnot : ¬ i.Issues crypto apiKey)
    {g : Ledger} {id userId : String}
    (h : note crypto around g s i id = some ⟨userId, crypto.sha256 apiKey, true⟩) :
    g id = some ⟨userId, crypto.sha256 apiKey, true⟩ := by
  have hrevoked : ∀ key : Issue, key.revoked = ⟨userId, crypto.sha256 apiKey, true⟩ →
      key = ⟨userId, crypto.sha256 apiKey, true⟩ := fun key heq =>
    absurd (congrArg Issue.isActive heq) Bool.false_ne_true
  have hissued : ∀ {drawn : Drawn} {owner : String},
      crypto.sha256 (rawKey drawn) ≠ crypto.sha256 apiKey →
      (⟨owner, crypto.sha256 (rawKey drawn), true⟩ : Issue) ≠
        ⟨userId, crypto.sha256 apiKey, true⟩ := fun hne heq => hne (congrArg Issue.keyHash heq)
  cases i with
  | service call =>
    cases call with
    | create drawn owner name description =>
      exact eq_of_enter (hissued hnot) h
    | rotate drawn key owner =>
      have hrotated : ∀ y : Issue, y.rotated crypto drawn ≠ ⟨userId, crypto.sha256 apiKey, true⟩ :=
        fun y heq => hnot (congrArg Issue.keyHash heq)
      exact eq_of_amend (fun y heq => absurd heq (hrotated y)) h
    | revoke key owner => exact eq_of_amend hrevoked h
    | adminForceRevoke key => exact eq_of_amend hrevoked h
    | findByUser | findById | update => exact h
  | generateApiKey drawn owner name =>
    exact eq_of_enter (hissued hnot) h
  | revokeApiKey key owner => exact eq_of_amend hrevoked h
  | authenticate key used => exact h

/-- No two entries have one hash. -/
theorem ledger_distinct {past : List Request} {id id' : String} {a b : Issue}
    (ha : ledger crypto around past id = some a) (hb : ledger crypto around past id' = some b)
    (hhash : a.keyHash = b.keyHash) : id = id' := by
  obtain ⟨hdistinct, hissues⟩ := served_ledger crypto around past
  rw [← hissues] at ha hb
  obtain ⟨row, hrow, rfl⟩ := Option.map_eq_some_iff.mp ha
  obtain ⟨row', hrow', rfl⟩ := Option.map_eq_some_iff.mp hb
  have hid := Repository.key_of_get hrow
  have hid' := Repository.key_of_get hrow'
  by_contra hne
  have hfree := hdistinct row (by rw [Repository.mem_def, hid]; exact hrow) row'
    (by rw [Repository.mem_def, hid']; exact hrow') (by rw [hid, hid']; exact hne)
  exact absurd hhash (of_decide_eq_false hfree)

/-- A key whose entry was active and has changed, as by a rotation or a revocation, is refused for
as long as no key with its hash is issued. -/
theorem refused_until_issued {e later : List Request} {i : Request} {apiKey userId id : String}
    (hactive : ledger crypto around e id = some ⟨userId, crypto.sha256 apiKey, true⟩)
    (hchanged : ledger crypto around (i :: e) id ≠ ledger crypto around e id)
    (hs : i :: e <:+ later)
    (hnot : ∀ j f, j :: f <:+ later → e <:+ f → ¬ j.Issues crypto apiKey) :
    accepted crypto (served crypto around later) apiKey = none := by
  -- no entry is active with this hash from the change on
  have hnone : ∀ userId' id',
      ledger crypto around later id' ≠ some ⟨userId', crypto.sha256 apiKey, true⟩ := by
    induction later with
    | nil => exact absurd (List.suffix_nil.mp hs) (List.cons_ne_nil i e)
    | cons j past ih =>
      intro userId' id' hid'
      have hstep : ledger crypto around (j :: past) id' = note crypto around
        (ledger crypto around past) (served crypto around past) j id' := rfl
      rw [hstep] at hid'
      rcases List.suffix_cons_iff.mp hs with heq | hpast
      · cases heq
        have hbefore := active_before (hnot i e (List.suffix_refl _) (List.suffix_refl _)) hid'
        obtain rfl : id' = id := ledger_distinct hbefore hactive rfl
        exact hchanged (hid'.trans hbefore.symm)
      · have hbefore := active_before (hnot j past (List.suffix_refl _)
          ((List.suffix_cons i e).trans hpast)) hid'
        exact ih hpast (fun k f hk => hnot k f (hk.trans (List.suffix_cons j past)))
          userId' id' hbefore
  cases hfound : accepted crypto (served crypto around later) apiKey with
  | none => rfl
  | some row => exact absurd (ledger_of_accepted hfound) (hnone _ _)

end Ledgers

/-- A key that has been issued. -/
def exampleIssued : List Request := [.service (.create (exampleDrawn "01") "u1" "ci" none)]

theorem refused_until_issued_example :
    accepted exampleCrypto (served exampleCrypto exampleAround
      (.authenticate "bst_01" none :: .service (.revoke "" "u1") :: exampleIssued)) "bst_01" =
        none := by
  have hactive : ledger exampleCrypto exampleAround exampleIssued "" =
      some ⟨"u1", exampleCrypto.sha256 "bst_01", true⟩ := by decide +kernel
  have hchanged : ledger exampleCrypto exampleAround (.service (.revoke "" "u1") :: exampleIssued)
      "" ≠ ledger exampleCrypto exampleAround exampleIssued "" := by decide +kernel
  refine refused_until_issued hactive hchanged (List.suffix_cons _ _) fun j f hj hf => ?_
  rcases List.suffix_cons_iff.mp hj with heq | hj
  · cases heq
    exact id
  · rcases List.suffix_cons_iff.mp hj with heq | hj
    · cases heq
      exact id
    · have hlength := hj.length_le
      have hshort := hf.length_le
      rw [List.length_cons] at hlength
      omega

end Scoopdope.ApiKeys

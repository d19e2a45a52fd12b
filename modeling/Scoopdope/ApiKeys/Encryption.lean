import Scoopdope.ApiKeys.Service
import Scoopdope.Soroban.History

/-!
# API keys: descriptions at rest

`findById` decrypts the description of the row it has found, and whoever saves that row saves the
plain text: `revoke`, `rotate`, `adminForceRevoke`, and `update` of the name alone.

`encrypted_at_rest_iff`: throughout a run every stored description is an encryption of the one set
last, and is read back as that, exactly when none of these calls is made for a key that has a
description.
-/

namespace Scoopdope.ApiKeys

open Async Database Database.Statements Server Soroban

inductive Call
  | create (drawn : Drawn) (userId name : String) (description : Option String)
  | findByUser (userId : String)
  | findById (id : String) (userId : Option String)
  | update (drawn : Drawn) (id userId : String) (data : UpdateApiKeyDto)
  | revoke (id userId : String)
  | rotate (drawn : Drawn) (id userId : String)
  | adminForceRevoke (id : String)

abbrev State : Type := Served schema

abbrev Around : Type := Statements.Surroundings schema HttpException

def keys (s : State) : schema.Rows apiKeyRepo := s.tables apiKeyRepo

/-- A call that saves a key it has read. -/
structure Rewrite where
  id : String
  userId : Option String
  refuses : ApiKey → Bool
  columns : ApiKey → ApiKey

section Runs

variable (crypto : Crypto) (around : Around)

def next (s : State) : Call → State
  | .create drawn userId name description =>
    (alone around s (create crypto drawn userId name description)).2
  | .findByUser userId => (alone around s (findByUser crypto userId)).2
  | .findById id userId => (alone around s (findById crypto id userId)).2
  | .update drawn id userId data => (alone around s (update crypto drawn id userId data)).2
  | .revoke id userId => (alone around s (revoke crypto id userId)).2
  | .rotate drawn id userId => (alone around s (rotate crypto drawn id userId)).2
  | .adminForceRevoke id => (alone around s (adminForceRevoke crypto id)).2

def exec (s : State) (i : Call) : Outcome State := .ok (next crypto around s i)

/-- The state after a run that starts without keys. -/
abbrev reached (past : List Call) : State := after (exec crypto around) Served.empty past

/-- What a call sets the description of a key to: that of a new key, or that of an update that
goes through. -/
def sets (s : State) (id : String) : Call → Option (Option String)
  | .create drawn userId name description =>
    if (keys s).get id = none ∧
        (keys (next crypto around s (.create drawn userId name description))).get id ≠ none then
      some (truthy description)
    else none
  | .update drawn id' userId data =>
    if id' = id ∧ ((alone around s (update crypto drawn id' userId data)).1.toOption).isSome then
      data.description.map fun description => truthy (some description)
    else none
  | _ => none

/-- The description set last. -/
def lastSet (id : String) : List Call → Option String
  | [] => none
  | i :: past => (sets crypto around (reached crypto around past) id i).getD (lastSet id past)

/-- A description as it is to be stored: none, or an encryption that is not the plain text. -/
def Encrypted (set stored : Option String) : Prop :=
  match set with
  | none => stored = none
  | some description =>
    (∃ drawn : Drawn,
      stored = some (EncryptionService.encrypt crypto drawn.bytes16 description)) ∧
      stored ≠ some description

/-- The stored descriptions after the run. -/
def EncryptedAtRest (past : List Call) : Prop :=
  ∀ row ∈ keys (reached crypto around past),
    Encrypted crypto (lastSet crypto around row.id past) row.data.description ∧
    ∃ read, (alone around.calm (reached crypto around past) (findById crypto row.id none)).1 =
        .ok read ∧
      read.data.description = lastSet crypto around row.id past

/-- The calls that save what they have read. -/
def Call.rewrite : Call → Option Rewrite
  | .update drawn id userId data =>
    some ⟨id, some userId, fun _ => false, updated crypto drawn data⟩
  | .revoke id userId =>
    some ⟨id, some userId, fun key => !key.isActive, fun key => { key with isActive := false }⟩
  | .rotate drawn id userId =>
    some ⟨id, some userId, fun key => !key.isActive, fun key =>
      { key with keyHash := crypto.sha256 (rawKey drawn), lastUsedAt := none }⟩
  | .adminForceRevoke id =>
    some ⟨id, none, fun key => !key.isActive, fun key => { key with isActive := false }⟩
  | _ => none

/-- The row that a call saves in place of the one it has read. -/
def resaved (n : Nat) (w : Rewrite) (row : KeyRow) : KeyRow :=
  { decryptApiKey crypto row with
    data := w.columns (decryptApiKey crypto row).data, updatedAt := around.now n }

/-- The row is found, not refused, and saved. -/
structure Writes (s : State) (w : Rewrite) (row : KeyRow) : Prop where
  found : (keys s).findOne (schema.holds apiKeyRepo (condition w.id w.userId)) = some row
  accepted : w.refuses (decryptApiKey crypto row).data = false
  looked : around.fails s.count (.findOne apiKeyRepo (condition w.id w.userId)) = none
  saved : around.fails (s.count + 1) (.save apiKeyRepo
    { decryptApiKey crypto row with data := w.columns (decryptApiKey crypto row).data }) = none
  free : Schema.conflicts (keys s) (resaved crypto around (s.count + 1) w row) = false

/-- The call saves a key that has a description, and does not set it anew. -/
def SavesDecrypted (s : State) (i : Call) : Prop :=
  ∃ w row, i.rewrite crypto = some w ∧ Writes crypto around s w row ∧
    (truthy row.data.description).isSome = true ∧
    ∀ drawn id userId data, i = .update drawn id userId data → data.description = none

end Runs

/-! ## Calls that save what they have read -/

variable {crypto : Crypto} {around : Around} {s : State} {A : Type}

theorem decryptApiKey_id (row : KeyRow) : (decryptApiKey crypto row).id = row.id := by
  unfold decryptApiKey
  split
  · rfl
  · split <;> rfl

/-- The common form of these calls. -/
def rewriting (crypto : Crypto) (w : Rewrite) (x : HttpException) (rest : KeyRow → Method A) :
    Method A := do
  let key ← findById crypto w.id w.userId
  if w.refuses key.data = true then .fail x
  else do
    let key ← save apiKeyRepo { key with data := w.columns key.data }
    rest key

section Rewriting

variable {w : Rewrite} {x : HttpException} {rest : KeyRow → Method A} {row : KeyRow}

variable (crypto around s w x rest) in
/-- Such a call saves the row that it finds, or throws without having written anything. -/
theorem rewriting_cases :
    (∃ row, Writes crypto around s w row ∧
      alone around s (rewriting crypto w x rest) =
        alone around (s.tick.put apiKeyRepo (resaved crypto around (s.count + 1) w row))
          (rest (resaved crypto around (s.count + 1) w row))) ∨
    ((∀ row, ¬ Writes crypto around s w row) ∧
      ∃ y s', alone around s (rewriting crypto w x rest) = (.error y, s') ∧ keys s' = keys s) := by
  unfold rewriting findById
  rw [Process.bind_assoc, run_findOne (S := schema)]
  cases hlooked : around.fails s.count (.findOne apiKeyRepo (condition w.id w.userId)) with
  | some y =>
    refine .inr ⟨fun row hwrites => ?_, y, _, rfl, rfl⟩
    rw [hwrites.looked] at hlooked
    cases hlooked
  | none =>
  dsimp only
  cases hfound : (s.tables apiKeyRepo).findOne
    (schema.holds apiKeyRepo (condition w.id w.userId)) with
  | none =>
    refine .inr ⟨fun row hwrites => ?_, .notFound "API key not found", s.tick, rfl, rfl⟩
    cases hfound.symm.trans hwrites.found
  | some row =>
  have hrow : ∀ row', Writes crypto around s w row' → row' = row := by
    intro row' hwrites
    cases hwrites.found.symm.trans hfound
    rfl
  dsimp only [Process.ret_bind, Process.pure_eq]
  cases hrefuses : w.refuses (decryptApiKey crypto row).data with
  | true =>
    refine .inr ⟨fun row' hwrites => ?_, x, s.tick, rfl, rfl⟩
    cases hrow row' hwrites
    cases hrefuses.symm.trans hwrites.accepted
  | false =>
  rw [if_neg Bool.false_ne_true, run_save (S := schema)]
  cases hsaved : around.fails s.tick.count (.save apiKeyRepo
    { decryptApiKey crypto row with data := w.columns (decryptApiKey crypto row).data }) with
  | some y =>
    refine .inr ⟨fun row' hwrites => ?_, y, _, rfl, rfl⟩
    cases hrow row' hwrites
    cases hsaved.symm.trans hwrites.saved
  | none =>
  dsimp only
  cases hresult : (Schema.save (around.generated s.tick.count) (s.tick.tables apiKeyRepo)
    { decryptApiKey crypto row with data := w.columns (decryptApiKey crypto row).data }).1 with
  | some saved =>
    obtain ⟨rfl, hfree⟩ := save_some.mp hresult
    exact .inl ⟨row, ⟨hfound, hrefuses, hlooked, hsaved, hfree⟩, rfl⟩
  | none =>
    refine .inr ⟨fun row' hwrites => ?_, around.duplicate, s.tick.tick, rfl, rfl⟩
    cases hrow row' hwrites
    cases hresult.symm.trans (save_some.mpr ⟨rfl, hwrites.free⟩)

end Rewriting

theorem keys_after_audit {action : AuditAction} {userId : String} {success : Bool}
    {metadata : Metadata} (a : A) :
    keys (alone around s (auditLog action userId success metadata >>=
      fun _ => (pure a : Method A))).2 = keys s :=
  run_spares (S := schema) (t := apiKeyRepo) (Process.only_bind
    (Process.only_tryCatch (Process.only_bind (only_saveNew (S := schema) (t := auditRepo) nofun)
      fun _ => trivial) fun _ => trivial)
    fun _ => trivial)

variable (around s) in
/-- What a call that saves what it has read makes of the keys. -/
theorem next_rewrite {i : Call} {w : Rewrite} (h : i.rewrite crypto = some w) :
    (∃ row, Writes crypto around s w row ∧
      keys (next crypto around s i) = (keys s).save (resaved crypto around (s.count + 1) w row)) ∨
    (∀ row, ¬ Writes crypto around s w row) ∧ keys (next crypto around s i) = keys s := by
  have hput (row : KeyRow) : keys (s.tick.put apiKeyRepo row) = (keys s).save row :=
    Served.put_tables_self (S := schema) s.tick apiKeyRepo row
  -- The methods are `rewriting`, with an audit log or nothing after it.
  have hcases {A : Type} {p : Method A} (x : HttpException) (rest : KeyRow → Method A)
      (hp : p = rewriting crypto w x rest)
      (hrest : ∀ s row, keys (alone around s (rest row)).2 = keys s) :
      (∃ row, Writes crypto around s w row ∧
        keys (alone around s p).2 = (keys s).save (resaved crypto around (s.count + 1) w row)) ∨
      (∀ row, ¬ Writes crypto around s w row) ∧ keys (alone around s p).2 = keys s := by
    subst hp
    rcases rewriting_cases crypto around s w x rest with
      ⟨row, hwrites, hrun⟩ | ⟨hnone, y, s', hrun, hkeys⟩
    · refine .inl ⟨row, hwrites, ?_⟩
      rw [hrun, hrest, hput]
    · refine .inr ⟨hnone, ?_⟩
      rw [hrun]
      exact hkeys
  cases i with
  | update drawn id userId data =>
    cases h
    refine hcases (.notFound "") (fun key => pure (maskKey crypto key)) ?_ fun _ _ => rfl
    unfold update rewriting
    simp only [Bool.false_eq_true, if_false]
  | revoke id userId =>
    cases h
    exact hcases _ _ (by unfold revoke rewriting; simp only [Bool.not_eq_true']; rfl)
      fun s row => keys_after_audit _
  | rotate drawn id userId =>
    cases h
    exact hcases _ _ (by unfold rotate rewriting; simp only [Bool.not_eq_true']; rfl)
      fun s row => keys_after_audit _
  | adminForceRevoke id =>
    cases h
    exact hcases _ _ (by unfold adminForceRevoke rewriting; simp only [Bool.not_eq_true']; rfl)
      fun s row => keys_after_audit _
  | _ => cases h

theorem update_ok {drawn : Drawn} {id userId : String} {data : UpdateApiKeyDto} :
    ((alone around s (update crypto drawn id userId data)).1.toOption).isSome = true ↔
      ∃ row, Writes crypto around s ⟨id, some userId, fun _ => false, updated crypto drawn data⟩
        row := by
  have hform : update crypto drawn id userId data =
      rewriting crypto ⟨id, some userId, fun _ => false, updated crypto drawn data⟩ (.notFound "")
        (fun key => pure (maskKey crypto key)) := by
    unfold update rewriting
    simp only [Bool.false_eq_true, if_false]
  rw [hform]
  rcases rewriting_cases crypto around s
    ⟨id, some userId, fun _ => false, updated crypto drawn data⟩ (.notFound "")
    (fun key => pure (maskKey crypto key)) with ⟨row, hwrites, hrun⟩ | ⟨hnone, y, s', hrun, -⟩
  · rw [hrun]
    exact iff_of_true rfl ⟨row, hwrites⟩
  · rw [hrun]
    exact iff_of_false Bool.false_ne_true fun ⟨row, hwrites⟩ => hnone row hwrites

/-! ## What is set -/

variable {i : Call} {w : Rewrite} {row : KeyRow}

/-- A call that saves what it has read sets the description anew, or leaves that of the key. -/
theorem rewrite_description (h : i.rewrite crypto = some w) :
    (∃ drawn id userId data description, i = .update drawn id userId data ∧
      data.description = some description ∧
      ∀ key, (w.columns key).description = encryptDescription crypto drawn (some description)) ∨
    (∀ drawn id userId data, i = .update drawn id userId data → data.description = none) ∧
      ∀ key, (w.columns key).description = key.description := by
  cases i with
  | update drawn id userId data =>
    cases h
    cases hdata : data.description with
    | some description =>
      refine .inl ⟨drawn, id, userId, data, description, rfl, hdata, fun key => ?_⟩
      unfold updated
      rw [hdata]
    | none =>
      refine .inr ⟨fun _ _ _ _ heq => ?_, fun key => ?_⟩
      · cases heq
        exact hdata
      · unfold updated
        rw [hdata]
  | create => cases h
  | findByUser => cases h
  | findById => cases h
  | _ =>
    cases h
    exact .inr ⟨nofun, fun _ => rfl⟩

theorem found_id (h : Writes crypto around s w row) : row.id = w.id := by
  have hholds := (Repository.findOne_some h.found).1
  unfold condition at hholds
  split at hholds
  · exact (of_decide_eq_true hholds).1
  · exact of_decide_eq_true hholds

theorem resaved_id (n : Nat) : (resaved crypto around n w row).id = row.id := decryptApiKey_id row

theorem sets_update {drawn : Drawn} {id id' userId : String} {data : UpdateApiKeyDto} :
    sets crypto around s id (.update drawn id' userId data) =
      if id' = id ∧ ((alone around s (update crypto drawn id' userId data)).1.toOption).isSome then
        data.description.map fun description => truthy (some description)
      else none := rfl

/-- Such a call sets no other description. -/
theorem sets_rewrite (h : i.rewrite crypto = some w) (id : String) :
    (∃ drawn userId data description, i = .update drawn id userId data ∧ w.id = id ∧
      data.description = some description ∧ (∃ row, Writes crypto around s w row) ∧
      sets crypto around s id i = some (truthy (some description))) ∨
    sets crypto around s id i = none := by
  cases i with
  | update drawn id' userId data =>
    cases h
    rw [sets_update]
    split
    · next hset =>
      obtain ⟨rfl, hok⟩ := hset
      cases hdata : data.description with
      | some description =>
        exact .inl ⟨drawn, userId, data, description, rfl, rfl, hdata, update_ok.mp hok, rfl⟩
      | none => exact .inr rfl
    · exact .inr rfl
  | create => cases h
  | _ => exact .inr rfl

variable (crypto around s) in
/-- `create` makes a new key with the description encrypted, or none. -/
theorem next_create (drawn : Drawn) (userId name : String) (description : Option String) :
    keys (next crypto around s (.create drawn userId name description)) = keys s ∨
    ∃ row, (keys s).get row.id = none ∧
      row.data.description = encryptDescription crypto drawn description ∧
      keys (next crypto around s (.create drawn userId name description)) = (keys s).save row := by
  show keys (alone around s (create crypto drawn userId name description)).2 = _ ∨ _
  refine bind_saveNew (S := schema) (P := fun r => keys r.2 = keys s ∨
    ∃ row, (keys s).get row.id = none ∧
      row.data.description = encryptDescription crypto drawn description ∧
      keys r.2 = (keys s).save row) (fun _ => .inl rfl) fun row hrow hnew => ?_
  refine .inr ⟨row, hnew, by rw [hrow]; rfl, ?_⟩
  exact (keys_after_audit _).trans (Served.put_tables_self (S := schema) s apiKeyRepo row)

/-! ## What is read back -/

/-- Deciphering gives the text back, and a cipher text, with its initialization vector, is longer
than the text. -/
structure SoundCipher (crypto : Crypto) : Prop where
  round : ∀ (drawn : Drawn) text, crypto.decipher (crypto.encipher drawn.bytes16 text) = some text
  longer : ∀ (drawn : Drawn) text, text.length < (crypto.encipher drawn.bytes16 text).length

section Sound

variable (hcipher : SoundCipher crypto)

include hcipher

theorem encipher_ne_text (drawn : Drawn) (text : String) :
    crypto.encipher drawn.bytes16 text ≠ text := by
  intro heq
  have hlt := hcipher.longer drawn text
  rw [heq] at hlt
  exact lt_irrefl _ hlt

theorem truthy_encipher (drawn : Drawn) (text : String) :
    truthy (some (crypto.encipher drawn.bytes16 text)) =
      some (crypto.encipher drawn.bytes16 text) := by
  refine truthy_eq_some.mpr ⟨rfl, fun hempty => ?_⟩
  have hlt := hcipher.longer drawn text
  rw [hempty] at hlt
  exact absurd hlt (Nat.not_lt_zero _)

theorem encrypted_encryptDescription (drawn : Drawn) (description : Option String) :
    Encrypted crypto (truthy description) (encryptDescription crypto drawn description) := by
  unfold encryptDescription
  cases truthy description with
  | none => rfl
  | some text =>
    refine ⟨⟨drawn, rfl⟩, fun heq => ?_⟩
    exact encipher_ne_text hcipher _ _ (Option.some.inj heq)

theorem decrypted_description {set : Option String}
    (h : Encrypted crypto set row.data.description) :
    (decryptApiKey crypto row).data.description = set := by
  unfold decryptApiKey
  cases set with
  | none =>
    have hnone : row.data.description = none := h
    rw [hnone]
    exact hnone
  | some text =>
    obtain ⟨⟨drawn, hstored⟩, -⟩ := h
    have hne : crypto.encipher drawn.bytes16 text ≠ "" :=
      (truthy_eq_some.mp (truthy_encipher hcipher drawn text)).2
    have hdecrypt :
        EncryptionService.decrypt crypto (crypto.encipher drawn.bytes16 text) = .ok text := by
      rw [EncryptionService.decrypt, if_neg hne, hcipher.round]
    rw [hstored, EncryptionService.encrypt, truthy_encipher hcipher]
    dsimp only
    rw [hdecrypt]

end Sound

/-! ## Runs -/

variable {past : List Call}

/-- The part of the property that is about the table. -/
def StoredEncrypted (crypto : Crypto) (around : Around) (past : List Call) : Prop :=
  ∀ row ∈ keys (reached crypto around past),
    Encrypted crypto (lastSet crypto around row.id past) row.data.description

theorem encryptedAtRest_iff (hcipher : SoundCipher crypto) :
    EncryptedAtRest crypto around past ↔ StoredEncrypted crypto around past := by
  constructor
  · exact fun h row hrow => (h row hrow).1
  · intro h row hrow
    refine ⟨h row hrow, decryptApiKey crypto row, ?_, decrypted_description hcipher (h row hrow)⟩
    have hget : (keys (reached crypto around past)).get row.id = some row := hrow
    have hfound : ((reached crypto around past).tables apiKeyRepo).findOne
        (schema.holds apiKeyRepo (condition row.id none)) = some row := by
      rw [← hget]
      exact Repository.findOne_key fun other => decide_eq_true_iff
    unfold findById
    rw [run_findOne_ok (S := schema) rfl hfound]
    rfl

theorem lastSet_cons (i : Call) (id : String) :
    lastSet crypto around id (i :: past) =
      (sets crypto around (reached crypto around past) id i).getD (lastSet crypto around id past) :=
  rfl

theorem reached_cons (i : Call) :
    reached crypto around (i :: past) = next crypto around (reached crypto around past) i := rfl

/-- A call that leaves the keys and sets nothing. -/
theorem StoredEncrypted.unchanged (h : StoredEncrypted crypto around past)
    (hkeys : keys (reached crypto around (i :: past)) = keys (reached crypto around past))
    (hsets : ∀ id, ((keys (reached crypto around past)).get id).isSome = true →
      sets crypto around (reached crypto around past) id i = none) :
    StoredEncrypted crypto around (i :: past) := by
  intro row hrow
  rw [hkeys] at hrow
  have hget : (keys (reached crypto around past)).get row.id = some row := hrow
  rw [lastSet_cons, hsets row.id (by rw [hget]; rfl)]
  exact h row hrow

theorem StoredEncrypted.create (hcipher : SoundCipher crypto)
    (h : StoredEncrypted crypto around past) (drawn : Drawn) (userId name : String)
    (description : Option String) :
    StoredEncrypted crypto around (.create drawn userId name description :: past) := by
  have hsets (id : String) (hold : ((keys (reached crypto around past)).get id).isSome = true) :
      sets crypto around (reached crypto around past) id
        (.create drawn userId name description) = none :=
    if_neg fun hnew => by
      rw [hnew.1] at hold
      cases hold
  rcases next_create crypto around (reached crypto around past) drawn userId name description
    with hkeys | ⟨row, hnew, hdescription, hkeys⟩
  · exact h.unchanged hkeys hsets
  · intro row' hrow'
    rw [reached_cons, hkeys] at hrow'
    rcases Repository.mem_save.mp hrow' with rfl | ⟨hold, -⟩
    · have hset : sets crypto around (reached crypto around past) row'.id
          (.create drawn userId name description) = some (truthy description) := by
        refine if_pos ⟨hnew, ?_⟩
        rw [hkeys, Repository.get_save, if_pos rfl]
        exact Option.some_ne_none _
      rw [lastSet_cons, hset, hdescription]
      exact encrypted_encryptDescription hcipher drawn description
    · have hget : (keys (reached crypto around past)).get row'.id = some row' := hold
      rw [lastSet_cons, hsets row'.id (by rw [hget]; rfl)]
      exact h row' hold

theorem row_mem (hwrites : Writes crypto around s w row) : row ∈ keys s :=
  (Repository.findOne_some hwrites.found).2

variable (around) in
/-- The description of a row that is saved as it was read. -/
theorem resaved_encrypted_iff (hcipher : SoundCipher crypto) {set : Option String}
    (hrow : Encrypted crypto set row.data.description) (n : Nat)
    (hcolumns : ∀ key, (w.columns key).description = key.description) :
    Encrypted crypto set (resaved crypto around n w row).data.description ↔
      (truthy row.data.description).isSome = false := by
  have hdecrypted : (resaved crypto around n w row).data.description = set :=
    (hcolumns _).trans (decrypted_description hcipher hrow)
  rw [hdecrypted]
  cases set with
  | none =>
    have hnone : row.data.description = none := hrow
    rw [hnone]
    exact iff_of_true rfl rfl
  | some text =>
    obtain ⟨⟨drawn, hstored⟩, -⟩ := hrow
    refine iff_of_false (fun hplain => hplain.2 rfl) ?_
    rw [hstored, EncryptionService.encrypt, truthy_encipher hcipher]
    exact Bool.noConfusion

theorem StoredEncrypted.rewrite_iff (hcipher : SoundCipher crypto)
    (h : StoredEncrypted crypto around past) (hi : i.rewrite crypto = some w) :
    StoredEncrypted crypto around (i :: past) ↔
      ¬ SavesDecrypted crypto around (reached crypto around past) i := by
  rcases next_rewrite around (reached crypto around past) hi
    with ⟨row, hwrites, hkeys⟩ | ⟨hnone, hkeys⟩
  swap
  · -- Nothing is written.
    refine iff_of_true (h.unchanged hkeys fun id _ => ?_) ?_
    · rcases sets_rewrite hi id with ⟨_, _, _, _, _, _, _, ⟨row, hwrites⟩, _⟩ | hset
      · exact absurd hwrites (hnone row)
      · exact hset
    · rintro ⟨w', row, hw', hwrites, -⟩
      cases hi.symm.trans hw'
      exact hnone row hwrites
  have hid := found_id hwrites
  have hsaved :
      (resaved crypto around ((reached crypto around past).count + 1) w row).id = row.id :=
    resaved_id _
  have hstored := h row (row_mem hwrites)
  -- The other rows and what was set for them are as before.
  have hother (hset : Encrypted crypto (lastSet crypto around row.id (i :: past))
      (resaved crypto around ((reached crypto around past).count + 1) w row).data.description) :
      StoredEncrypted crypto around (i :: past) := by
    intro row' hrow'
    rw [reached_cons, hkeys] at hrow'
    rcases Repository.mem_save.mp hrow' with rfl | ⟨hold, hne⟩
    · rw [hsaved]
      exact hset
    · rw [lastSet_cons]
      rcases sets_rewrite hi row'.id with ⟨_, _, _, _, _, hsame, _⟩ | hnone
      · exact absurd (hsame.symm.trans (hid.symm.trans hsaved.symm)) hne
      · rw [hnone]
        exact h row' hold
  have hsavedMem : resaved crypto around ((reached crypto around past).count + 1) w row ∈
      keys (reached crypto around (i :: past)) := by
    rw [reached_cons, hkeys]
    exact Repository.mem_save.mpr (.inl rfl)
  rcases rewrite_description hi with
    ⟨drawn, id, userId, data, description, rfl, hdata, hcolumns⟩ | ⟨hundescribed, hcolumns⟩
  · -- A description is set.
    refine iff_of_true (hother ?_) ?_
    · cases hi
      have hset : sets crypto around (reached crypto around past) row.id
          (.update drawn id userId data) = some (truthy (some description)) := by
        rw [sets_update, if_pos ⟨hid.symm, update_ok.mpr ⟨row, hwrites⟩⟩, hdata]
        rfl
      rw [lastSet_cons, hset]
      show Encrypted crypto _ (updated crypto drawn data _).description
      rw [hcolumns]
      exact encrypted_encryptDescription hcipher drawn (some description)
    · rintro ⟨_, _, _, _, _, hnone⟩
      cases hdata.symm.trans (hnone drawn id userId data rfl)
  · -- None is.
    have hset (id : String) : sets crypto around (reached crypto around past) id i = none := by
      rcases sets_rewrite hi id with ⟨_, _, _, _, heq, _, hsome, _⟩ | hnone
      · cases hsome.symm.trans (hundescribed _ _ _ _ heq)
      · exact hnone
    have hiff := resaved_encrypted_iff around hcipher hstored
      ((reached crypto around past).count + 1) hcolumns
    have hlast : lastSet crypto around row.id (i :: past) = lastSet crypto around row.id past := by
      rw [lastSet_cons, hset]
      rfl
    constructor
    · rintro hall ⟨w', row', hw', hwrites', hdescribed, -⟩
      cases hi.symm.trans hw'
      cases hwrites.found.symm.trans hwrites'.found
      have hnew := hall _ hsavedMem
      rw [hsaved, hlast] at hnew
      rw [hiff.mp hnew] at hdescribed
      cases hdescribed
    · intro hnot
      refine hother ?_
      rw [hlast]
      refine hiff.mpr (Bool.eq_false_iff.mpr fun hdescribed => hnot ?_)
      exact ⟨w, row, hi, hwrites, hdescribed, hundescribed⟩

/-- Throughout a run every stored description is an encryption of the one set last and is read
back as that, exactly when no call saves a description that it has decrypted. -/
theorem encrypted_at_rest_iff (hcipher : SoundCipher crypto) (around : Around) (past : List Call) :
    (∀ earlier, earlier <:+ past → EncryptedAtRest crypto around earlier) ↔
      Guarded (fun earlier i => ¬ SavesDecrypted crypto around (reached crypto around earlier) i)
        past := by
  simp only [encryptedAtRest_iff hcipher]
  refine throughout_iff_guarded (fun row hrow => absurd hrow Repository.not_mem_empty) past
    fun e i _ h => ?_
  have hreads (hrewrite : i.rewrite crypto = none) :
      ¬ SavesDecrypted crypto around (reached crypto around e) i := by
    rintro ⟨w, _, hw, -⟩
    cases hrewrite.symm.trans hw
  cases hi : i.rewrite crypto with
  | some w => exact h.rewrite_iff hcipher hi
  | none =>
    refine iff_of_true ?_ (hreads hi)
    cases i with
    | create drawn userId name description => exact h.create hcipher drawn userId name description
    | findByUser userId =>
      refine h.unchanged (run_spares (S := schema) (t := apiKeyRepo) ?_) fun _ _ => rfl
      exact Process.only_bind (only_statement nofun) fun _ => trivial
    | findById id userId =>
      refine h.unchanged (run_spares (S := schema) (t := apiKeyRepo) ?_) fun _ _ => rfl
      refine Process.only_bind (only_statement nofun) fun row => ?_
      cases row <;> trivial
    | _ => cases hi

/-- A cipher that puts the initialization vector in front of the text. -/
def exampleCrypto : Crypto :=
  { Crypto.sample "" "" with
    decipher := fun text => some (.ofList ((text.toList.dropWhile fun c => c ≠ ':').drop 1)) }

theorem exampleCrypto_sound : SoundCipher exampleCrypto := by
  have htext (drawn : Drawn) (text : String) :
      (drawn.bytes16 ++ ":" ++ text).toList = drawn.bytes16.toList ++ ':' :: text.toList := by
    simp
  refine ⟨fun drawn text => ?_, fun drawn text => ?_⟩
  · show some (String.ofList (((drawn.bytes16 ++ ":" ++ text).toList.dropWhile _).drop 1)) = _
    have hhex : ∀ c ∈ drawn.bytes16.toList, c ≠ ':' := by
      rintro c hc rfl
      exact absurd (List.all_eq_true.mp drawn.hex ':' hc) (by decide)
    rw [htext, List.dropWhile_append_of_pos fun c hc => decide_eq_true (hhex c hc),
      List.dropWhile_cons_of_neg (by decide), List.drop_one, List.tail_cons, String.ofList_toList]
  · show text.length < (drawn.bytes16 ++ ":" ++ text).length
    rw [← String.length_toList, ← String.length_toList, htext, List.length_append, List.length_cons]
    omega

/-- Nothing fails, and the keys are longer and longer. -/
def exampleAround : Around where
  now := fun n => n
  key := fun n => String.ofList (List.replicate n 'k')
  fails := fun _ _ => none
  duplicate := .internal "duplicate key value"

def exampleDrawn (text : String) : Drawn := ⟨text, "00ff", by decide⟩

/-- A key for the build server, with a new description. -/
def exampleRun : List Call :=
  [.update (exampleDrawn "02") "" "u1" ⟨none, some "CI of main"⟩,
    .create (exampleDrawn "01") "u1" "ci" (some "CI")]

theorem encrypted_at_rest_iff_run : EncryptedAtRest exampleCrypto exampleAround exampleRun := by
  refine (encrypted_at_rest_iff exampleCrypto_sound exampleAround exampleRun).mpr ⟨?_, ?_, trivial⟩
    exampleRun (List.suffix_refl _)
  · rintro ⟨_, _, _, _, _, hnone⟩
    cases hnone _ _ _ _ rfl
  · rintro ⟨_, _, hw, _⟩
    cases hw

/-- Revoking the key leaves its description in plain text. -/
theorem revoked_in_plain_text :
    (keys (reached exampleCrypto exampleAround (.revoke "" "u1" :: exampleRun))).get "" =
      some ⟨"", 0, 5, ⟨"ci", some "CI of main", "bst_01", false, "u1", none⟩⟩ ∧
    lastSet exampleCrypto exampleAround "" (.revoke "" "u1" :: exampleRun) = some "CI of main" :=
  ⟨by decide +kernel, by decide +kernel⟩

end Scoopdope.ApiKeys

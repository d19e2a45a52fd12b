import Scoopdope.Moderation.Service
import Scoopdope.Soroban.History

/-!
# Moderation: items that can still be decided

An item that is hidden automatically gets the status HIDDEN, which neither `reviewItem` nor
`resolveAppeal` accepts, and nothing ever sets `isHidden` back.

`moderation_corrects_iff`: throughout a run every hidden item can still be decided, and no approved
content stays hidden, exactly when no call of `flagContent` hides an item.
-/

namespace Scoopdope.Moderation

open Async Database Database.Statements Server Soroban

inductive Call
  /-- With what AWS Comprehend answers. -/
  | analyzeContent (comprehend : String → Option Comprehension) (contentType : ContentType)
      (contentId text userId : String)
  | flagContent (dto : FlagContentDto) (userId : String)
  | reviewItem (id : String) (dto : ReviewItemDto) (adminId : String)
  | submitAppeal (id : String) (dto : AppealDto) (userId : String)
  | resolveAppeal (id : String) (approve : Bool) (adminId : String) (note : Option String)

abbrev State : Type := Served schema

abbrev Around : Type := Statements.Surroundings schema HttpException

def items (s : State) : schema.Rows itemRepo := s.tables itemRepo

section Runs

variable (config : Config) (around : Around)

def next (s : State) : Call → State
  | .analyzeContent comprehend contentType contentId text userId =>
    (alone around s (analyzeContent config comprehend contentType contentId text userId)).2
  | .flagContent dto userId => (alone around s (flagContent config dto userId)).2
  | .reviewItem id dto adminId => (alone around s (reviewItem id dto adminId)).2
  | .submitAppeal id dto userId => (alone around s (submitAppeal id dto userId)).2
  | .resolveAppeal id approve adminId note =>
    (alone around s (resolveAppeal id approve adminId note)).2

def exec (s : State) (i : Call) : Outcome State := .ok (next config around s i)

/-- The state after a run that starts without items. -/
abbrev reached (past : List Call) : State := after (exec config around) Served.empty past

/-- `reviewItem` or `resolveAppeal` accepts the item, if nothing fails. -/
def Accepts (s : State) (id : String) : Prop :=
  (∃ dto adminId saved s', alone around.calm s (reviewItem id dto adminId) = (.ok saved, s')) ∨
  ∃ approve adminId note saved s',
    alone around.calm s (resolveAppeal id approve adminId note) = (.ok saved, s')

/-- The item that a call decides, and how. -/
def Call.decision : Call → Option (String × ModerationStatus)
  | .reviewItem id dto _ => some (id, dto.status.status)
  | .resolveAppeal id approve _ _ => some (id, if approve then .approved else .rejected)
  | _ => none

/-- The latest decision on an item that was written, and the run up to it. -/
def latestDecision (id : String) : List Call → Option (ModerationStatus × List Call)
  | [] => none
  | i :: past =>
    match i.decision with
    | some (id', status) =>
      if id' = id ∧
          (items (reached config around (i :: past))).get id ≠
            (items (reached config around past)).get id then
        some (status, i :: past)
      else latestDecision id past
    | none => latestDecision id past

/-- Moderation can correct itself after the run. -/
structure Correctable (past : List Call) : Prop where
  decidable : ∀ row ∈ items (reached config around past), row.data.isHidden = true →
    Accepts around (reached config around past) row.id
  approved : ∀ id decided row, latestDecision config around id past = some (.approved, decided) →
    (items (reached config around past)).get id = some row →
    (alone around.calm (reached config around past)
      (isContentHidden row.data.contentType row.data.contentId)).1 = .ok true →
    ∃ other ∈ items (reached config around past), other.id ≠ id ∧
      other.data.contentType = row.data.contentType ∧ other.data.contentId = row.data.contentId ∧
      other.data.isHidden = true ∧
      ∀ before ∈ items (reached config around decided), before.id = other.id →
        before.data.isHidden = false

/-- The item with one flag more, hidden. -/
def autoHidden (row : ItemRow) : ItemRow :=
  { row with data := { flaggedAgain row.data with isHidden := true, status := .hidden } }

/-- The call is a `flagContent` whose lookup finds a pending item that is not hidden, with one
flag less than the threshold or more, and whose lookup and save do not fail. -/
def AutoHides (s : State) (i : Call) : Prop :=
  ∃ dto userId row, i = .flagContent dto userId ∧
    around.fails s.count (.findOne itemRepo (.pending dto.contentType dto.contentId)) = none ∧
    (items s).findOne (schema.holds itemRepo (.pending dto.contentType dto.contentId)) = some row ∧
    row.data.isHidden = false ∧ config.autoHide ≤ row.data.flagCount + 1 ∧
    around.fails (s.count + 1) (.save itemRepo (autoHidden row)) = none

end Runs

/-! ## Decisions -/

variable {config : Config} {around : Around} {s : State} {id : String}

theorem save_item (n : Nat) (rows : schema.Rows itemRepo) (row : ItemRow) :
    (Schema.save (around.generated n) rows row).1 =
      some { row with updatedAt := around.now n } := by
  refine save_some.mpr ⟨rfl, conflicts_eq_false.mpr fun _ _ _ => rfl⟩

theorem items_get_id (id : String) :
    (items s).findOne (schema.holds itemRepo (.id id)) = (items s).get id :=
  Repository.findOne_key fun row => by simp [ItemWhere.holds]

theorem run_getItemOrThrow {A : Type} {row : ItemRow} (hrow : (items s).get id = some row)
    (f : ItemRow → Method A) :
    alone around.calm s (getItemOrThrow id >>= f) = alone around.calm s.tick (f row) := by
  unfold getItemOrThrow
  rw [Process.bind_assoc, run_findOne (S := schema)]
  have hfound : (s.tables itemRepo).findOne (schema.holds itemRepo (.id id)) = some row :=
    (items_get_id id).trans hrow
  rw [hfound]
  rfl

/-- An item with the status HIDDEN is decided by nobody. -/
theorem not_accepts {row : ItemRow} (hrow : (items s).get id = some row)
    (hstatus : row.data.status = .hidden) : ¬ Accepts around s id := by
  rintro (⟨dto, adminId, saved, s', hrun⟩ | ⟨approve, adminId, note, saved, s', hrun⟩)
  · rw [reviewItem, run_getItemOrThrow hrow, if_pos (by rw [hstatus]; decide)] at hrun
    cases hrun
  · rw [resolveAppeal, run_getItemOrThrow hrow, if_pos (by rw [hstatus]; decide)] at hrun
    cases hrun

/-! ## Calls that hide nothing -/

def NoHidden (s : State) : Prop := ∀ row ∈ items s, row.data.isHidden = false

theorem NoHidden.put {row : ItemRow} (h : NoHidden s) (hrow : row.data.isHidden = false) :
    NoHidden (s.put itemRepo row) := by
  intro other hother
  rw [items, Served.put_tables_self (S := schema)] at hother
  rcases Repository.mem_save.mp hother with rfl | ⟨hold, -⟩
  · exact hrow
  · exact h other hold

/-- What comes after an item is written leaves the items. -/
theorem items_after_log {A : Type} {itemId contentId : String} {contentType : ContentType}
    {action : ModerationAction} {performedBy note : Option String} (a : A) :
    items (alone around s (log itemId contentType contentId action performedBy note >>=
      fun _ => (pure a : Method A))).2 = items s :=
  run_spares (S := schema) (t := itemRepo) (Process.only_bind
    (Process.only_bind (only_saveNew (S := schema) (t := logRepo) nofun) fun _ => trivial)
    fun _ => trivial)

theorem NoHidden.log {A : Type} {itemId contentId : String} {contentType : ContentType}
    {action : ModerationAction} {performedBy note : Option String} (h : NoHidden s) (a : A) :
    NoHidden (alone around s (log itemId contentType contentId action performedBy note >>=
      fun _ => (pure a : Method A))).2 := by
  unfold NoHidden
  rw [items_after_log]
  exact h

theorem bind_getItemOrThrow {A : Type} {P : Except HttpException A × State → Prop}
    {f : ItemRow → Method A} (herror : ∀ x, P (.error x, s.tick))
    (hok : ∀ row, (items s).get id = some row → P (alone around s.tick (f row))) :
    P (alone around s (getItemOrThrow id >>= f)) := by
  unfold getItemOrThrow
  rw [Process.bind_assoc]
  refine bind_findOne herror ?_
  have hfound : (s.tables itemRepo).findOne (schema.holds itemRepo (.id id)) = (items s).get id :=
    items_get_id id
  rw [hfound]
  cases hrow : (items s).get id with
  | none => exact herror _
  | some row => exact hok row hrow

theorem mem_of_get {row : ItemRow} (hrow : (items s).get id = some row) : row ∈ items s := by
  rw [Repository.mem_def, Repository.key_of_get hrow]
  exact hrow

/-- Every call but one that hides an item. -/
theorem NoHidden.next {i : Call} (h : NoHidden s) (hi : ¬ AutoHides config around s i) :
    NoHidden (next config around s i) := by
  have htick : NoHidden s.tick := h
  cases i with
  | analyzeContent comprehend contentType contentId text userId =>
    show NoHidden (alone around s (analyzeContent config comprehend contentType contentId text
      userId)).2
    unfold analyzeContent
    dsimp only
    split
    · refine bind_saveNew (P := fun r => NoHidden r.2) (fun _ => htick) fun row hrow _ => ?_
      exact (h.put (by rw [hrow]; rfl)).log _
    · exact h
  | flagContent dto userId =>
    show NoHidden (alone around s (flagContent config dto userId)).2
    unfold flagContent
    rw [run_findOne (S := schema)]
    cases hfails : around.fails s.count
      (.findOne itemRepo (.pending dto.contentType dto.contentId)) with
    | some x => exact htick
    | none =>
    cases hfound : (s.tables itemRepo).findOne
      (schema.holds itemRepo (.pending dto.contentType dto.contentId)) with
    | none =>
      refine bind_saveNew (P := fun r => NoHidden r.2) (fun _ => htick) fun row hrow _ => ?_
      exact (htick.put (by rw [hrow]; rfl)).log _
    | some row =>
      have hvisible : row.data.isHidden = false := h row (Repository.findOne_some hfound).2
      dsimp only
      split
      · next hmany =>
        rw [run_save (S := schema)]
        cases hsave : around.fails s.tick.count (.save itemRepo (autoHidden row)) with
        | none => exact absurd ⟨dto, userId, row, rfl, hfails, hfound, hvisible, hmany.2, hsave⟩ hi
        | some x =>
          have hsave' := hsave
          unfold autoHidden at hsave'
          rw [hsave']
          exact htick
      · refine alone_save (P := fun r => NoHidden r.2) (fun _ => htick) fun row' hrow' => ?_
        exact htick.put (by rw [hrow']; exact hvisible)
  | reviewItem id dto adminId =>
    refine bind_getItemOrThrow (P := fun r => NoHidden r.2) (fun _ => htick) fun row hrow => ?_
    have hvisible : row.data.isHidden = false := h row (mem_of_get hrow)
    split
    · exact htick
    · refine bind_save (P := fun r => NoHidden r.2) (fun _ => htick) fun row' hrow' => ?_
      exact (htick.put (by rw [hrow']; exact hvisible)).log _
  | submitAppeal id dto userId =>
    refine bind_getItemOrThrow (P := fun r => NoHidden r.2) (fun _ => htick) fun row hrow => ?_
    have hvisible : row.data.isHidden = false := h row (mem_of_get hrow)
    split
    · exact htick
    split
    · exact htick
    · refine bind_save (P := fun r => NoHidden r.2) (fun _ => htick) fun row' hrow' => ?_
      exact (htick.put (by rw [hrow']; exact hvisible)).log _
  | resolveAppeal id approve adminId note =>
    refine bind_getItemOrThrow (P := fun r => NoHidden r.2) (fun _ => htick) fun row hrow => ?_
    have hvisible : row.data.isHidden = false := h row (mem_of_get hrow)
    split
    · exact htick
    · refine bind_save (P := fun r => NoHidden r.2) (fun _ => htick) fun row' hrow' => ?_
      exact (htick.put (by rw [hrow']; exact hvisible)).log _

/-- A call that hides an item leaves one that is hidden and that nobody can decide. -/
theorem next_autoHides {i : Call} (h : AutoHides config around s i) :
    ∃ row ∈ items (next config around s i),
      row.data.isHidden = true ∧ row.data.status = .hidden := by
  obtain ⟨dto, userId, row, rfl, hfails, hfound, hvisible, hmany, hsave⟩ := h
  have hfound' : (s.tables itemRepo).findOne
      (schema.holds itemRepo (.pending dto.contentType dto.contentId)) = some row := hfound
  let hidden : ItemRow := { autoHidden row with updatedAt := around.now (s.count + 1) }
  refine ⟨hidden, ?_, rfl, rfl⟩
  have hitems : items (next config around s (.flagContent dto userId)) =
      (items s).save hidden := by
    show items (alone around s (flagContent config dto userId)).2 = _
    unfold flagContent
    rw [run_findOne_ok (S := schema) hfails hfound']
    dsimp only
    rw [if_pos ⟨hvisible, hmany⟩, run_save_ok (S := schema) hsave (save_item _ _ _)]
    exact (items_after_log _).trans (Served.put_tables_self (S := schema) s.tick itemRepo hidden)
  rw [hitems]
  exact Repository.mem_save.mpr (.inl rfl)

/-! ## Runs -/

variable {past : List Call}

theorem correctable_of_noHidden (h : NoHidden (reached config around past)) :
    Correctable config around past := by
  constructor
  · intro row hrow hhidden
    rw [h row hrow] at hhidden
    cases hhidden
  · intro id decided row _ _ hhidden
    -- Where no item is hidden, no content is.
    unfold isContentHidden at hhidden
    rw [run_findOne_ok (S := schema) rfl rfl] at hhidden
    obtain ⟨item, hitem⟩ := Option.isSome_iff_exists.mp (Except.ok.inj hhidden)
    obtain ⟨hholds, hmem⟩ := Repository.findOne_some hitem
    have hvisible : item.data.isHidden = false := h item hmem
    have htrue : item.data.isHidden = true := (of_decide_eq_true hholds).2.2
    rw [hvisible] at htrue
    cases htrue

theorem reached_cons (i : Call) :
    reached config around (i :: past) = next config around (reached config around past) i := rfl

theorem noHidden_of_guarded
    (h : Guarded (fun earlier i => ¬ AutoHides config around (reached config around earlier) i)
      past) : NoHidden (reached config around past) := by
  induction past with
  | nil => exact fun _ hrow => absurd hrow Repository.not_mem_empty
  | cons i past ih =>
    rw [reached_cons]
    exact (ih h.2).next h.1

/-- Throughout a run every hidden item can still be decided, and approved content is not hidden by
what came before the decision, exactly when no call hides an item. -/
theorem moderation_corrects_iff (config : Config) (around : Around) (past : List Call) :
    (∀ earlier, earlier <:+ past → Correctable config around earlier) ↔
      Guarded (fun earlier i => ¬ AutoHides config around (reached config around earlier) i)
        past := by
  have hempty : NoHidden (reached config around []) := noHidden_of_guarded trivial
  refine throughout_iff_guarded_of (correctable_of_noHidden hempty) past
    fun e i _ hguarded _ => ⟨fun hcorrectable hhides => ?_, fun hi => ?_⟩
  · obtain ⟨row, hrow, hhidden, hstatus⟩ := next_autoHides hhides
    refine not_accepts ?_ hstatus (hcorrectable.decidable row hrow hhidden)
    exact Repository.mem_def.mp hrow
  · have hnone : NoHidden (reached config around (i :: e)) := noHidden_of_guarded ⟨hi, hguarded⟩
    exact correctable_of_noHidden hnone

def exampleConfig : Config := ⟨none, none⟩

/-- Nothing fails, and the keys are longer and longer. -/
def exampleAround : Around where
  now := fun n => n
  key := fun n => String.ofList (List.replicate n 'k')
  fails := fun _ _ => none
  duplicate := .internal "duplicate key value"

def exampleFlag (userId : String) : Call := .flagContent ⟨.post, "p1", none⟩ userId

/-- Five users flag a post. -/
def exampleFlags : List Call := ["u5", "u4", "u3", "u2", "u1"].map exampleFlag

/-- A sixth user flags it, and the new item is approved. -/
def exampleApproval : List Call :=
  .reviewItem (String.ofList (List.replicate 13 'k')) ⟨.approved, none⟩ "a1" ::
    exampleFlag "u6" :: exampleFlags

/-- The post is hidden, and no moderator can decide about it. It stays hidden when another item of
it is approved. -/
theorem hidden_for_good :
    (∃ row ∈ items (reached exampleConfig exampleAround exampleFlags), row.data.isHidden = true ∧
      ¬ Accepts exampleAround (reached exampleConfig exampleAround exampleFlags) row.id) ∧
    latestDecision exampleConfig exampleAround (String.ofList (List.replicate 13 'k'))
      exampleApproval = some (.approved, exampleApproval) ∧
    (alone exampleAround.calm (reached exampleConfig exampleAround exampleApproval)
      (isContentHidden .post "p1")).1 = .ok true := by
  refine ⟨?_, ?_, by decide +kernel⟩
  · obtain ⟨row, hrow⟩ := Option.isSome_iff_exists.mp
      (show ((items (reached exampleConfig exampleAround exampleFlags)).get "k").isSome = true by
        decide +kernel)
    have hkey := Repository.key_of_get hrow
    have hdata : ((items (reached exampleConfig exampleAround exampleFlags)).get "k").all
      (fun row => row.data.isHidden = true ∧ row.data.status = .hidden) = true := by decide +kernel
    rw [hrow] at hdata
    obtain ⟨hhidden, hstatus⟩ := of_decide_eq_true hdata
    exact ⟨row, mem_of_get hrow, hhidden, not_accepts (hkey ▸ hrow) hstatus⟩
  · have hchanged : (items (reached exampleConfig exampleAround exampleApproval)).get
        (String.ofList (List.replicate 13 'k')) ≠
      (items (reached exampleConfig exampleAround (exampleFlag "u6" :: exampleFlags))).get
        (String.ofList (List.replicate 13 'k')) := by decide +kernel
    unfold latestDecision exampleApproval
    exact if_pos (And.intro rfl hchanged)

end Scoopdope.Moderation

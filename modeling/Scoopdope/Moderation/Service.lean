import Mathlib.Data.Rat.Defs
import Scoopdope.Database.Statements
import Scoopdope.Server.Http

/-!
# Moderation: the service

`ModerationService` (`moderation/moderation.service.ts`) with the tables of items and of their
log. The answer of AWS Comprehend is a parameter of `analyzeContent`; without an answer the call
of the client throws.
-/

namespace Scoopdope.Moderation

open Async Database Database.Statements Server

inductive ContentType
  | course
  | post
  | reply
  | review
deriving DecidableEq

inductive ModerationStatus
  | pending
  | approved
  | rejected
  | appealed
  | hidden
deriving DecidableEq

inductive ModerationAction
  | flag
  | approve
  | reject
  | autoHide
  | appealSubmitted
  | appealApproved
  | appealRejected
deriving DecidableEq

/-- What `DetectToxicContentCommand` answers: the `Toxicity` of the results, in `ResultList`. -/
structure Comprehension where
  resultList : Option (List (Option Rat))
deriving DecidableEq

/-- The columns of `moderation_items`. -/
structure ModerationItem where
  contentType : ContentType
  contentId : String
  reportedByUserId : String
  status : ModerationStatus := .pending
  flagReason : Option String := none
  flagCount : Nat := 1
  isHidden : Bool := false
  toxicityScore : Option Rat := none
  comprehendResult : Option Comprehension := none
  reviewedByUserId : Option String := none
  reviewNote : Option String := none
  appealReason : Option String := none
  appealedByUserId : Option String := none
deriving DecidableEq

/-- The columns of `moderation_logs`. -/
structure ModerationLog where
  moderationItemId : String
  contentType : ContentType
  contentId : String
  action : ModerationAction
  performedByUserId : Option String
  note : Option String
deriving DecidableEq

inductive Entity
  | item
  | log
deriving DecidableEq

abbrev Entity.Columns : Entity → Type
  | item => ModerationItem
  | log => ModerationLog

/-- The conditions of the lookups: by `id`, by the content and `status: PENDING`, and by the
content and `isHidden: true`. -/
inductive ItemWhere
  | id (id : String)
  | pending (contentType : ContentType) (contentId : String)
  | hidden (contentType : ContentType) (contentId : String)

def ItemWhere.holds : ItemWhere → Stored ModerationItem → Bool
  | .id itemId, row => row.id = itemId
  | .pending contentType contentId, row =>
    row.data.contentType = contentType ∧ row.data.contentId = contentId ∧ row.data.status = .pending
  | .hidden contentType contentId, row =>
    row.data.contentType = contentType ∧ row.data.contentId = contentId ∧ row.data.isHidden = true

/-- The tables have no unique constraint besides their primary keys. -/
abbrev schema : Schema where
  Entity := Entity
  Columns := Entity.Columns
  Where
    | .item => ItemWhere
    | .log => String
  holds
    | .item => ItemWhere.holds
    | .log => fun moderationItemId row => row.data.moderationItemId = moderationItemId
  conflict := fun _ _ _ => false

abbrev itemRepo : schema.Entity := Entity.item

abbrev logRepo : schema.Entity := Entity.log

abbrev ItemRow : Type := schema.Row itemRepo

/-- A method of the service. -/
abbrev Method (A : Type) : Type := Statements.Method schema HttpException A

structure FlagContentDto where
  contentType : ContentType
  contentId : String
  reason : Option String
deriving DecidableEq

/-- `ModerationStatus.APPROVED | ModerationStatus.REJECTED`. -/
inductive Decision
  | approved
  | rejected
deriving DecidableEq

def Decision.status : Decision → ModerationStatus
  | approved => .approved
  | rejected => .rejected

structure ReviewItemDto where
  status : Decision
  note : Option String
deriving DecidableEq

structure AppealDto where
  reason : String
deriving DecidableEq

/-- `config.get('moderation.toxicityThreshold')` and
`config.get('moderation.autoHideThreshold')`. -/
structure Config where
  toxicityThreshold : Option Rat
  autoHideThreshold : Option Nat

/-- `... || 0.7`: 0 counts as false. -/
def Config.toxicity (config : Config) : Rat :=
  match config.toxicityThreshold with
  | some threshold => if threshold = 0 then 7 / 10 else threshold
  | none => 7 / 10

/-- `... || 5`. -/
def Config.autoHide (config : Config) : Nat :=
  match config.autoHideThreshold with
  | some threshold => if threshold = 0 then 5 else threshold
  | none => 5

def log (moderationItemId : String) (contentType : ContentType) (contentId : String)
    (action : ModerationAction) (performedByUserId note : Option String) : Method Unit := do
  let _ ← saveNew logRepo
    { moderationItemId, contentType, contentId, action, performedByUserId, note }
  pure ()

/-- `resultItems[0]?.Toxicity ?? null`. -/
def Comprehension.toxicity (answer : Comprehension) : Option Rat :=
  ((answer.resultList.getD []).head?).join

/-- Whether the content was flagged. -/
def analyzeContent (config : Config) (comprehend : String → Option Comprehension)
    (contentType : ContentType) (contentId text userId : String) : Method Bool := do
  let comprehendResult := comprehend text
  let toxicityScore := comprehendResult.bind Comprehension.toxicity
  let isToxic := toxicityScore.any fun score => config.toxicity ≤ score
  if isToxic then do
    let saved ← saveNew itemRepo
      { contentType, contentId, reportedByUserId := userId, status := .pending
        flagReason := some "Auto-flagged by AWS Comprehend", toxicityScore, comprehendResult }
    log saved.id contentType contentId .flag none (some "auto-flagged")
    pure isToxic
  else
    pure isToxic

/-- An item that is flagged once more. -/
def flaggedAgain (item : ModerationItem) : ModerationItem :=
  { item with flagCount := item.flagCount + 1 }

def flagContent (config : Config) (dto : FlagContentDto) (userId : String) : Method ItemRow := do
  let existing ← findOne itemRepo (.pending dto.contentType dto.contentId)
  match existing with
  | some existing => do
    let existing := { existing with data := flaggedAgain existing.data }
    if existing.data.isHidden = false ∧ config.autoHide ≤ existing.data.flagCount then do
      let existing :=
        { existing with data := { existing.data with isHidden := true, status := .hidden } }
      let existing ← save itemRepo existing
      log existing.id dto.contentType dto.contentId .autoHide none
        (some ("Auto-hidden after " ++ toString existing.data.flagCount ++ " flags"))
      pure existing
    else
      save itemRepo existing
  | none => do
    let saved ← saveNew itemRepo
      { contentType := dto.contentType, contentId := dto.contentId, reportedByUserId := userId
        status := .pending, flagReason := dto.reason, flagCount := 1, isHidden := false }
    log saved.id dto.contentType dto.contentId .flag (some userId) dto.reason
    pure saved

/-- Check if content is hidden. -/
def isContentHidden (contentType : ContentType) (contentId : String) : Method Bool := do
  let item ← findOne itemRepo (.hidden contentType contentId)
  pure item.isSome

def getItemOrThrow (id : String) : Method ItemRow := do
  let item ← findOne itemRepo (.id id)
  match item with
  | some item => pure item
  | none => .fail (.notFound "Moderation item not found")

/-- Admin reviews an item. -/
def reviewItem (id : String) (dto : ReviewItemDto) (adminId : String) : Method ItemRow := do
  let item ← getItemOrThrow id
  if item.data.status ≠ .pending ∧ item.data.status ≠ .appealed then
    .fail (.badRequest "Item is not pending review")
  else do
    let saved ← save itemRepo
      { item with data := { item.data with
          status := dto.status.status, reviewedByUserId := some adminId, reviewNote := dto.note } }
    let action := if dto.status = .approved then .approve else .reject
    log id item.data.contentType item.data.contentId action (some adminId) dto.note
    pure saved

/-- Content owner submits an appeal. -/
def submitAppeal (id : String) (dto : AppealDto) (userId : String) : Method ItemRow := do
  let item ← getItemOrThrow id
  if item.data.status ≠ .rejected then
    .fail (.badRequest "Only rejected items can be appealed")
  else if (truthy item.data.appealedByUserId).isSome then
    .fail (.badRequest "Appeal already submitted")
  else do
    let saved ← save itemRepo
      { item with data := { item.data with
          status := .appealed, appealReason := some dto.reason, appealedByUserId := some userId } }
    log id item.data.contentType item.data.contentId .appealSubmitted (some userId)
      (some dto.reason)
    pure saved

/-- Admin resolves an appeal. -/
def resolveAppeal (id : String) (approve : Bool) (adminId : String) (note : Option String) :
    Method ItemRow := do
  let item ← getItemOrThrow id
  if item.data.status ≠ .appealed then
    .fail (.badRequest "Item is not under appeal")
  else do
    let saved ← save itemRepo
      { item with data := { item.data with
          status := if approve then .approved else .rejected
          reviewedByUserId := some adminId, reviewNote := note } }
    let action := if approve then .appealApproved else .appealRejected
    log id item.data.contentType item.data.contentId action (some adminId) note
    pure saved

end Scoopdope.Moderation

import Scoopdope.Indexer.Service

/-!
# The indexer: the stages of a poll

A poll reads the cursor, gets a page of events, hands one after the other to its handler and
stores the latest ledger. `protocol` says so, with what a poll has learned on the way, and
`follows_start` that `poll` keeps to it whatever the others answer and whichever handlers fail.
-/

namespace Scoopdope.Indexer

open Async Server

/-- What a poll has got, and how far it is. -/
structure Progress where
  lastLedger : Nat
  latestLedger : Nat
  page : List EventResponse
  /-- The events that are not handled yet. -/
  left : List EventResponse
  failed : List EventResponse

namespace Progress

/-- A poll that has read `lastLedger` gets its page. -/
def received (lastLedger : Nat) (page : List EventResponse) (latestLedger : Nat) : Progress :=
  { lastLedger, latestLedger, page, left := page, failed := [] }

/-- The handler of an event has come to an end. -/
def settled (progress : Progress) (event : EventResponse) (success : Bool) : Progress :=
  { progress with
    left := progress.left.tail
    failed := if success then progress.failed else event :: progress.failed }

/-- The event was not on the page, or its handler has failed. -/
def Misses (progress : Progress) (event : EventResponse) : Prop :=
  event ∉ progress.page ∨ event ∈ progress.failed

/-- A page that is not full has every event of the indexed contracts, from the start of the
poll up to the latest ledger it was given. -/
def Short (config : Config) (limit : Nat) (network : Network) (progress : Progress) : Prop :=
  progress.lastLedger ≠ 0 → progress.page.length < limit → ∀ event ∈ network.events,
    event.contractId ∈ config.contractIds → progress.lastLedger ≤ event.ledger →
    event.ledger ≤ progress.latestLedger → event ∈ progress.page

end Progress

inductive Stage
  | beginning
  | asking (lastLedger : Nat)
  | handling (progress : Progress)
  | finished

namespace Stage

def received (page : List EventResponse) (latestLedger : Nat) : Stage → Stage
  | asking lastLedger => handling (.received lastLedger page latestLedger)
  | _ => finished

def settled (event : EventResponse) (success : Bool) : Stage → Stage
  | handling progress => handling (progress.settled event success)
  | _ => finished

def Allows (config : Config) : Stage → Op → Prop
  | beginning, .request .getLastLedger => True
  | beginning, .close _ => True
  | asking lastLedger, .request (.getEvents start contractIds) =>
    start = startLedger lastLedger ∧ contractIds = config.contractIds
  | handling _, .request (.findByStellarPublicKey _) => True
  | handling _, .request (.issue _ _ _) => True
  | handling _, .request (.onCredentialIssued _ _) => True
  | handling _, .request (.delTokenBalance _) => True
  | handling progress, .handled event _ => progress.left.head? = some event
  | handling progress, .request (.setLastLedger ledger) =>
    progress.left = [] ∧ ledger = progress.latestLedger ∧ progress.lastLedger < ledger
  | _, _ => False

def next (stage : Stage) : (o : Op) → o.answer → Stage
  | .request .getLastLedger, .ok lastLedger => asking (lastLedger.getD 0)
  | .request .getLastLedger, .error _ => finished
  | .request (.getEvents _ _), .ok (page, latestLedger) => stage.received page latestLedger
  | .request (.getEvents _ _), .error _ => finished
  | .request (.setLastLedger _), _ => finished
  | .request (.findByStellarPublicKey _), _ => stage
  | .request (.issue _ _ _), _ => stage
  | .request (.onCredentialIssued _ _), _ => stage
  | .request (.delTokenBalance _), _ => stage
  | .handled event success, _ => stage.settled event success
  | .close _, _ => finished

end Stage

def protocol (config : Config) : Protocol indexerInterface Stage where
  Allows := Stage.Allows config
  next := Stage.next

/-- The requests of the handlers. -/
def OfHandler : Op → Prop
  | .request (.findByStellarPublicKey _) => True
  | .request (.issue _ _ _) => True
  | .request (.onCredentialIssued _ _) => True
  | .request (.delTokenBalance _) => True
  | _ => False

theorem only_request {q : Request} (h : OfHandler (.request q)) :
    (request q).Only OfHandler :=
  ⟨h, fun r => by cases r <;> trivial⟩

theorem only_handleEvent (event : EventResponse) : (handleEvent event).Only OfHandler := by
  unfold handleEvent
  dsimp only
  split
  · unfold handleAnalyticsCompleted
    split
    · refine Process.only_bind (only_request trivial) fun found => ?_
      split
      · trivial
      · exact Process.only_bind (only_request trivial) fun _ => only_request trivial
    · trivial
  · split
    · unfold handleTokenTransfer
      split
      · exact only_request trivial
      · trivial
    · trivial

variable {config : Config}

theorem handling_of_handler {progress : Progress} (o : Op) (h : OfHandler o) :
    (protocol config).Allows (.handling progress) o ∧
      ∀ r, (protocol config).next (.handling progress) o r = .handling progress := by
  cases o with
  | request q => cases q <;> first | exact ⟨trivial, fun _ => rfl⟩ | exact h.elim
  | handled event success => exact h.elim
  | close published => exact h.elim

theorem follows_settleEvent {progress : Progress} {event : EventResponse}
    (h : progress.left.head? = some event) :
    (settleEvent event).Follows (protocol config)
      (fun stage _ => ∃ success, stage = .handling (progress.settled event success))
      (fun _ _ => False) (.handling progress) := by
  unfold settleEvent
  refine Process.follows_bind (fun stage _ => stage = Stage.handling progress) ?_ ?_
  · refine Process.follows_tryCatch (fun stage _ => stage = Stage.handling progress) ?_
      fun stage x hstage => hstage
    exact Process.follows_bind _
      (Process.follows_of_only handling_of_handler (only_handleEvent event))
      fun stage _ hstage => hstage
  · rintro stage success rfl
    exact ⟨h, fun _ => ⟨success, rfl⟩⟩

/-- The loop over the events that are left. -/
theorem follows_handleEvents {lastLedger latestLedger : Nat} (events : List EventResponse) :
    ∀ progress : Progress, progress.lastLedger = lastLedger →
      progress.latestLedger = latestLedger → progress.left = events →
      (handleEvents events).Follows (protocol config)
        (fun stage _ => ∃ progress : Progress, stage = .handling progress ∧
          progress.lastLedger = lastLedger ∧ progress.latestLedger = latestLedger ∧
          progress.left = [])
        (fun _ _ => False) (.handling progress) := by
  induction events with
  | nil =>
    intro progress hlast hlatest hleft
    exact ⟨progress, rfl, hlast, hlatest, hleft⟩
  | cons event events ih =>
    intro progress hlast hlatest hleft
    unfold handleEvents
    refine Process.follows_bind _ (follows_settleEvent (by rw [hleft, List.head?_cons])) ?_
    rintro stage _ ⟨success, rfl⟩
    refine ih _ hlast hlatest ?_
    simp [Progress.settled, hleft]

theorem follows_request {q : Request} {stage : Stage} (ok : Stage → q.value → Prop)
    (hallows : stage.Allows config (.request q))
    (hok : ∀ value, ok (stage.next (.request q) (.ok value)) value) :
    (request q).Follows (protocol config) ok (fun _ _ => True) stage := by
  refine ⟨hallows, fun answer => ?_⟩
  cases answer with
  | error x => trivial
  | ok value => exact hok value

theorem follows_poll (config : Config) :
    (poll config).Follows (protocol config) (fun _ _ => True) (fun _ _ => True) .beginning := by
  unfold poll
  refine Process.follows_tryCatch (fun _ _ => True) ?_ fun _ _ _ => trivial
  unfold poll.attempt
  refine Process.follows_bind
    (fun stage (lastLedger : Option Nat) => stage = .asking (lastLedger.getD 0))
    (follows_request _ trivial fun _ => rfl) ?_
  rintro stage lastLedger rfl
  refine Process.follows_bind (fun stage (answer : List EventResponse × Nat) =>
      stage = (Stage.asking (lastLedger.getD 0)).received answer.1 answer.2)
    (follows_request _ ⟨rfl, rfl⟩ fun _ => rfl) ?_
  rintro stage ⟨page, latestLedger⟩ rfl
  refine Process.follows_bind _
    ((follows_handleEvents page _ rfl rfl rfl).mono (fun _ _ h => h) fun _ _ h => h.elim) ?_
  rintro stage _ ⟨progress, rfl, hlast, hlatest, hleft⟩
  split
  · next hlater =>
    exact follows_request _ ⟨hleft, hlatest.symm, hlast ▸ hlater⟩ fun _ => trivial
  · trivial

theorem follows_start (config : Config) (call : Call) :
    (call.start config).Follows (protocol config) (fun _ _ => True) (fun _ _ => True)
      .beginning := by
  cases call with
  | poll => exact follows_poll config
  | close published => exact ⟨trivial, fun _ => trivial⟩

end Scoopdope.Indexer

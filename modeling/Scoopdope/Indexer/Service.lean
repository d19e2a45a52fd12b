import Mathlib.Data.List.Pairwise
import Scoopdope.Async.Protocol
import Scoopdope.Users.Service

/-!
# The indexer: the service

`StellarIndexerService` (`stellar/stellar-indexer.service.ts`). A timer calls `poll`, whether or
not the poll before is done. Every request to the cache, the RPC, the database or another
service may fail; `poll` catches what its handlers throw, and what it throws itself.

The network is a party of its own: `close` is what it does.
-/

namespace Scoopdope.Indexer

open Async Server Users

/-! ## The network

What `getEvents` of the Soroban RPC answers from: the events of all ledgers so far, oldest
first. A ledger that closes appends the events published in it. Events are numbered, so
that two that say the same are told apart. -/

/-- A contract event, as `EventResponse` has it. -/
structure EventResponse where
  id : Nat
  ledger : Nat
  contractId : String
  /-- The texts of the topics: `t?.value?.toString() ?? ''` of each. -/
  topic : List String
  /-- The properties of `event.value.value()`, as texts. -/
  value : List (String × String)
deriving DecidableEq

structure Network where
  latestLedger : Nat
  events : List EventResponse
  closed : ∀ event ∈ events, event.ledger ≤ latestLedger
  inOrder : events.Pairwise fun event later => event.ledger ≤ later.ledger
  numbered : events.map EventResponse.id = List.range events.length

/-- The first ledger. -/
def genesis : Network where
  latestLedger := 1
  events := []
  closed := nofun
  inOrder := .nil
  numbered := rfl

namespace Network

/-- The events that a ledger adds: what was published, with that ledger and the next ids. -/
def added (network : Network) (published : List EventResponse) : List EventResponse :=
  published.mapIdx fun k event =>
    { event with id := network.events.length + k, ledger := network.latestLedger + 1 }

theorem ledger_of_added {network : Network} {published : List EventResponse}
    {event : EventResponse} (h : event ∈ network.added published) :
    event.ledger = network.latestLedger + 1 := by
  obtain ⟨_, _, rfl⟩ := List.mem_mapIdx.mp h
  rfl

theorem ids_of_added (network : Network) (published : List EventResponse) :
    (network.added published).map EventResponse.id =
      (List.range published.length).map (network.events.length + ·) := by
  apply List.ext_getElem <;> simp [added]

/-- The next ledger. -/
def close (network : Network) (published : List EventResponse) : Network where
  latestLedger := network.latestLedger + 1
  events := network.events ++ network.added published
  closed := by
    intro event hevent
    rcases List.mem_append.mp hevent with hold | hnew
    · exact Nat.le_succ_of_le (network.closed event hold)
    · exact Nat.le_of_eq (ledger_of_added hnew)
  inOrder := by
    rw [List.pairwise_append]
    refine ⟨network.inOrder, ?_, fun event hevent later hlater => ?_⟩
    · refine List.pairwise_of_forall_mem_list fun event hevent later hlater => ?_
      exact Nat.le_of_eq ((ledger_of_added hevent).trans (ledger_of_added hlater).symm)
    · rw [ledger_of_added hlater]
      exact Nat.le_succ_of_le (network.closed event hevent)
  numbered := by
    have hlength : (network.added published).length = published.length := List.length_mapIdx
    rw [List.map_append, network.numbered, ids_of_added, List.length_append, hlength,
      List.range_add]

/-- The events of some contracts, from a ledger on. -/
def matching (network : Network) (startLedger : Nat) (contractIds : List String) :
    List EventResponse :=
  network.events.filter fun event =>
    startLedger ≤ event.ledger ∧ event.contractId ∈ contractIds

/-- The earliest of them, as many as there are on a page. -/
def page (network : Network) (limit startLedger : Nat) (contractIds : List String) :
    List EventResponse :=
  (network.matching startLedger contractIds).take limit

variable {network : Network} {limit startLedger : Nat} {contractIds : List String}
  {event : EventResponse}

theorem mem_matching : event ∈ network.matching startLedger contractIds ↔
    event ∈ network.events ∧ startLedger ≤ event.ledger ∧ event.contractId ∈ contractIds := by
  unfold matching
  simp

/-- Only a full page leaves out an event. -/
theorem limit_lt_of_cut (hevent : event ∈ network.matching startLedger contractIds)
    (hcut : event ∉ network.page limit startLedger contractIds) :
    limit < (network.matching startLedger contractIds).length := by
  by_contra hall
  unfold page at hcut
  rw [List.take_of_length_le (Nat.not_lt.mp hall)] at hcut
  exact hcut hevent

/-- Nothing is left out of a page that is not full. -/
theorem mem_page (hshort : (network.page limit startLedger contractIds).length < limit)
    (hevent : event ∈ network.matching startLedger contractIds) :
    event ∈ network.page limit startLedger contractIds := by
  by_contra hcut
  have hlimit := limit_lt_of_cut hevent hcut
  unfold page at hshort
  rw [List.length_take_of_le (Nat.le_of_lt hlimit)] at hshort
  exact absurd hshort (Nat.lt_irrefl limit)

theorem mem_close {published : List EventResponse} (h : event ∈ (network.close published).events) :
    event ∈ network.events ∨ event.ledger = network.latestLedger + 1 := by
  rcases List.mem_append.mp h with hold | hnew
  · exact .inl hold
  · exact .inr (ledger_of_added hnew)

end Network

/-! ## Requests -/

/-- What the service asks others for. -/
inductive Request
  /-- `cacheManager.get(LAST_LEDGER_KEY)`. -/
  | getLastLedger
  | getEvents (startLedger : Option Nat) (contractIds : List String)
  /-- `cacheManager.set(LAST_LEDGER_KEY, ledger, 0)`. -/
  | setLastLedger (ledger : Nat)
  | findByStellarPublicKey (stellarPublicKey : String)
  /-- `credentialsService.issue`. -/
  | issue (userId courseId stellarPublicKey : String)
  /-- `notificationsService.onCredentialIssued`. -/
  | onCredentialIssued (userId courseId : String)
  /-- `cacheManager.del` of the key `token_balance:` with the public key. -/
  | delTokenBalance (stellarPublicKey : String)

/-- `getEvents` answers with events and the latest ledger. -/
abbrev Request.value : Request → Type
  | .getLastLedger => Option Nat
  | .getEvents _ _ => List EventResponse × Nat
  | .setLastLedger _ => Unit
  | .findByStellarPublicKey _ => Option User
  | .issue _ _ _ => Unit
  | .onCredentialIssued _ _ => Unit
  | .delTokenBalance _ => Unit

inductive Op
  | request (q : Request)
  /-- The promise of `handleEvent(event)` is settled, with or without success. -/
  | handled (event : EventResponse) (success : Bool)
  | close (published : List EventResponse)

abbrev Op.answer : Op → Type
  | .request q => Except HttpException q.value
  | .handled _ _ => Unit
  | .close _ => Unit

abbrev indexerInterface : Interface where
  Op := Op
  Answer := Op.answer

/-- What a request meets. -/
structure Surroundings where
  /-- The exception with which it fails. -/
  exception : Option HttpException
  /-- The events that `getEvents` returns when it is given no start ledger. -/
  unstarted : List EventResponse

abbrev Indexing (A : Type) : Type := Process indexerInterface Surroundings HttpException A

def request (q : Request) : Indexing q.value := do
  Process.ofExcept (← Process.perform (I := indexerInterface) (.request q))

/-! ## Methods -/

def handleAnalyticsCompleted (event : EventResponse) : Indexing Unit :=
  match truthy (event.value.lookup "student"), truthy (event.value.lookup "course") with
  | some studentPublicKey, some courseId => do
    match ← request (.findByStellarPublicKey studentPublicKey) with
    | none => pure ()
    | some user =>
      request (.issue (user .id) courseId studentPublicKey)
      request (.onCredentialIssued (user .id) courseId)
  | _, _ => pure ()

def handleTokenTransfer (event : EventResponse) : Indexing Unit :=
  match truthy (event.value.lookup "to") with
  | some toPublicKey => request (.delTokenBalance toPublicKey)
  | none => pure ()

def handleEvent (event : EventResponse) : Indexing Unit :=
  let contractType := event.topic[0]?
  let eventName := event.topic[1]?
  if contractType = some "analytics" ∧ eventName = some "completed" then
    handleAnalyticsCompleted event
  else if contractType = some "token" ∧ eventName = some "transfer" then
    handleTokenTransfer event
  else pure ()

/-- `await this.handleEvent(event).catch(...)`. -/
def settleEvent (event : EventResponse) : Indexing Unit := do
  let success ← (do handleEvent event; pure true).tryCatch fun _ => pure false
  Process.perform (I := indexerInterface) (.handled event success)

def handleEvents : List EventResponse → Indexing Unit
  | [] => pure ()
  | event :: events => do
    settleEvent event
    handleEvents events

structure Config where
  analyticsContractId : String
  tokenContractId : String

/-- `[this.analyticsContractId, this.tokenContractId].filter(Boolean)`. -/
def Config.contractIds (config : Config) : List String :=
  [config.analyticsContractId, config.tokenContractId].filter (· ≠ "")

/-- `lastLedger || undefined`. -/
def startLedger (lastLedger : Nat) : Option Nat :=
  if lastLedger = 0 then none else some lastLedger

variable (config : Config)

def poll : Indexing Unit :=
  attempt.tryCatch fun _ => pure ()
where
  /-- The block of the `try`. -/
  attempt : Indexing Unit := do
    let lastLedger := (← request .getLastLedger).getD 0
    let (events, latestLedger) ←
      request (.getEvents (startLedger lastLedger) config.contractIds)
    handleEvents events
    if latestLedger > lastLedger then request (.setLastLedger latestLedger)

/-! ## The parties -/

/-- The network and what the requests are about. -/
structure State where
  network : Network
  /-- The cache, under `indexer:last_ledger`. -/
  lastLedger : Option Nat
  /-- The public keys with a balance in the cache. -/
  cachedBalances : List String
  users : UserTable
  /-- User, course and key of each credential that was issued, newest first. -/
  issued : List (String × String × String)
  /-- User and course of each notification, newest first. -/
  notified : List (String × String)

variable (limit : Nat)

/-- A request that does not fail. -/
def respond (around : Surroundings) (s : State) : (q : Request) → q.value × State
  | .getLastLedger => (s.lastLedger, s)
  | .getEvents (some startLedger) contractIds =>
    ((s.network.page limit startLedger contractIds, s.network.latestLedger), s)
  | .getEvents none _ => ((around.unstarted, s.network.latestLedger), s)
  | .setLastLedger ledger => ((), { s with lastLedger := some ledger })
  | .findByStellarPublicKey key => (s.users.findOne (Where.stellarPublicKey key).holds, s)
  | .issue userId courseId key => ((), { s with issued := (userId, courseId, key) :: s.issued })
  | .onCredentialIssued userId courseId =>
    ((), { s with notified := (userId, courseId) :: s.notified })
  | .delTokenBalance key =>
    ((), { s with cachedBalances := s.cachedBalances.filter (· ≠ key) })

def handle (around : Surroundings) (s : State) : (o : Op) → o.answer × State
  | .request q =>
    match around.exception with
    | some x => (.error x, s)
    | none =>
      let (value, s) := respond limit around s q
      (.ok value, s)
  | .handled _ _ => ((), s)
  | .close published => ((), { s with network := s.network.close published })

inductive Call
  | poll
  | close (published : List EventResponse)

def Call.start : Call → Indexing Unit
  | poll => Indexer.poll config
  | close published => Process.perform (I := indexerInterface) (.close published)

/-- The indexer and the network. -/
def system : System indexerInterface Surroundings HttpException Unit State Call where
  start := Call.start config
  handle := handle limit

end Scoopdope.Indexer

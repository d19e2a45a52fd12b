import Scoopdope.Analytics.Contract
import Scoopdope.Indexer.Service
import Scoopdope.Token.Steps

/-!
# The indexer: the contracts' events

What `handleEvent` makes of the events that the contracts publish. The token contract puts
the symbols `transfer` and `from` first where the indexer waits for `token` and `transfer`,
and both contracts publish tuples where it reads named properties.

`events_not_understood`: no transfer takes the recipient's balance out of the cache, and no
completed course has a credential issued.
-/

namespace Scoopdope.Indexer

open Async Server Soroban Users

variable {Address : Type}

/-- How the SDK writes a value as a text. -/
structure Sdk (Address : Type) where
  text : Val Address → String
  text_symbol : ∀ name, text (.symbol name) = name

namespace Sdk

variable (sdk : Sdk Address)

def publicKey (a : Address) : String := sdk.text (.address a)

/-- The properties of `event.value.value()`. A tuple is an array: it has its indices and a
length. -/
def properties : List (Val Address) → List (String × String)
  | [] => []
  | [_] => []
  | tuple => (tuple.mapIdx fun k v => (toString k, sdk.text v)) ++
      [("length", toString tuple.length)]

/-- The response has the topics and the data of the event. -/
def Delivers (event : Event Address) (response : EventResponse) : Prop :=
  response.topic = event.topics.map sdk.text ∧ response.value = sdk.properties event.data

instance (event : Event Address) (response : EventResponse) :
    Decidable (sdk.Delivers event response) := inferInstanceAs (Decidable (_ ∧ _))

end Sdk

/-! ## What the indexer is meant to do -/

/-- Once the event is handled, the balance under the key is not in the cache. -/
def Invalidates (response : EventResponse) (key : String) : Prop :=
  ∀ (limit : Nat) (around : Surroundings) (s : State), around.exception = none →
    key ∉ ((handleEvent response).run (handle limit) around s).2.cachedBalances

/-- A credential for the course is issued to the user with the key. -/
def Issues (response : EventResponse) (key courseId : String) : Prop :=
  ∀ (limit : Nat) (around : Surroundings) (s : State) (user : User), around.exception = none →
    s.users.findOne (Where.stellarPublicKey key).holds = some user →
    ((handleEvent response).run (handle limit) around s).2.issued =
      (user .id, courseId, key) :: s.issued

/-! ## What it does -/

section Handlers

variable {response : EventResponse}

theorem handleEvent_of_unknown {first second : String} {rest : List String}
    (h : response.topic = first :: second :: rest)
    (hanalytics : ¬ (first = "analytics" ∧ second = "completed"))
    (htoken : ¬ (first = "token" ∧ second = "transfer")) : handleEvent response = pure () := by
  unfold handleEvent
  simp only [h, List.getElem?_cons_zero, List.getElem?_cons_succ, Option.some.injEq]
  rw [if_neg hanalytics, if_neg htoken]

theorem handleAnalyticsCompleted_of_missing (h : response.value.lookup "student" = none) :
    handleAnalyticsCompleted response = pure () := by
  unfold handleAnalyticsCompleted
  rw [h]
  rfl

/-- A user whose key is the given one. -/
def holderOf (key : String) : User
  | .stellarPublicKey => some key
  | c => User.default "u" 0 c

def stateWith (users : UserTable) (cachedBalances : List String) : State where
  network := genesis
  lastLedger := none
  cachedBalances
  users
  issued := []
  notified := []

def quiet : Surroundings := ⟨none, []⟩

theorem not_invalidates (h : handleEvent response = pure ()) (key : String) :
    ¬ Invalidates response key := by
  intro hinvalidates
  have hgone := hinvalidates 0 quiet (stateWith .empty [key]) rfl
  rw [h] at hgone
  exact hgone List.mem_cons_self

theorem not_issues (h : handleEvent response = pure ()) (key courseId : String) :
    ¬ Issues response key courseId := by
  intro hissues
  -- A user with the key exists, so the event should have been enough.
  have hfound : (Database.Repository.empty.save (holderOf key) : UserTable).findOne
      (Where.stellarPublicKey key).holds = some (holderOf key) := by
    refine List.find?_cons_of_pos ?_
    exact decide_eq_true rfl
  have hissued := hissues 0 quiet (stateWith _ []) (holderOf key) rfl hfound
  rw [h] at hissued
  cases hissued

end Handlers

/-! ## The events of the contracts -/

variable {sdk : Sdk Address} {event : Event Address} {response : EventResponse}

/-- A pair has no named properties. -/
theorem lookup_pair (v w : Val Address) {name : String} (h₀ : name ≠ "0") (h₁ : name ≠ "1")
    (hlength : name ≠ "length") : (sdk.properties [v, w]).lookup name = none := by
  have hpair : sdk.properties [v, w] =
      [("0", sdk.text v), ("1", sdk.text w), ("length", "2")] := by
    have hdigits : Nat.repr 0 = "0" ∧ Nat.repr 1 = "1" ∧ Nat.repr 2 = "2" := by decide +kernel
    simpa [Sdk.properties] using hdigits
  rw [hpair]
  simp [List.lookup_cons, beq_false_of_ne h₀, beq_false_of_ne h₁, beq_false_of_ne hlength]

/-- The event of `transfer` and `transfer_from`. -/
def transferEvent (sender recipient : Address) (amount : I128) : Event Address :=
  ⟨[.symbol "transfer", .symbol "from", .address sender], [.address recipient, .i128 amount]⟩

/-- The event of `record_progress` at 100 percent. -/
def completedEvent (student : Address) (courseId : String) : Event Address :=
  ⟨[.symbol "analytics", .symbol "completed"], [.address student, .symbol courseId]⟩

theorem handleEvent_transfer {sender recipient : Address} {amount : I128}
    (h : sdk.Delivers (transferEvent sender recipient amount) response) :
    handleEvent response = pure () := by
  have htopic : response.topic = "transfer" :: "from" :: [sdk.publicKey sender] := by
    rw [h.1]
    simp [transferEvent, sdk.text_symbol, Sdk.publicKey]
  exact handleEvent_of_unknown htopic (by decide) (by decide)

theorem handleEvent_completed {student : Address} {courseId : String}
    (h : sdk.Delivers (completedEvent student courseId) response) :
    handleEvent response = pure () := by
  have htopic : response.topic = ["analytics", "completed"] := by
    rw [h.1]
    simp [completedEvent, sdk.text_symbol]
  have hstudent : response.value.lookup "student" = none := by
    rw [h.2]
    exact lookup_pair _ _ (by decide) (by decide) (by decide)
  unfold handleEvent
  simp only [htopic, List.getElem?_cons_zero, List.getElem?_cons_succ]
  exact handleAnalyticsCompleted_of_missing hstudent

section Emitted

variable [DecidableEq Address] {env : Env Address}

theorem transfer_emits {s s' : Token.Storage Address} {sender recipient : Address} {amount : I128}
    (h : Token.transfer env s sender recipient amount = .ok s') :
    s'.events = transferEvent sender recipient amount :: s.events := by
  obtain ⟨-, -, -, t, -, rfl⟩ := Token.transfer_ok h
  rfl

theorem transferFrom_emits {s s' : Token.Storage Address} {spender sender recipient : Address}
    {amount : I128} (h : Token.transferFrom env s spender sender recipient amount = .ok s') :
    s'.events = transferEvent sender recipient amount :: s.events := by
  obtain ⟨-, -, -, -, rest, t, -, -, rfl⟩ := Token.transferFrom_ok h
  rfl

/-- The event of a completed course is the last that the call publishes. -/
theorem recordProgress_emits {s s' : Analytics.Storage Address} {caller student : Address}
    {courseId : String}
    (h : Analytics.recordProgress env s caller student courseId (.lit 100) = .ok s') :
    ∃ earlier, s'.events = completedEvent student courseId :: earlier := by
  simp only [Analytics.recordProgress, bind_eq_ok, pure_eq_ok, ↓reduceIte] at h
  obtain ⟨_, _, _, _, _, _, _, _, rfl⟩ := h
  exact ⟨_, rfl⟩

/-- No event of the contracts is understood: a transfer leaves the recipient's balance in the
cache, and a completed course has no credential issued, whoever the student is. -/
theorem events_not_understood (sdk : Sdk Address) :
    (∀ (env : Env Address) (s s' : Token.Storage Address) (sender recipient : Address)
        (amount : I128), Token.transfer env s sender recipient amount = .ok s' →
      ∃ event, s'.events = event :: s.events ∧ ∀ response, sdk.Delivers event response →
        ¬ Invalidates response (sdk.publicKey recipient)) ∧
    (∀ (env : Env Address) (s s' : Token.Storage Address) (spender sender recipient : Address)
        (amount : I128), Token.transferFrom env s spender sender recipient amount = .ok s' →
      ∃ event, s'.events = event :: s.events ∧ ∀ response, sdk.Delivers event response →
        ¬ Invalidates response (sdk.publicKey recipient)) ∧
    ∀ (env : Env Address) (s s' : Analytics.Storage Address) (caller student : Address)
        (courseId : String),
      Analytics.recordProgress env s caller student courseId (.lit 100) = .ok s' →
      ∃ event earlier, s'.events = event :: earlier ∧
        ∀ response, sdk.Delivers event response →
          ¬ Issues response (sdk.publicKey student) courseId := by
  refine ⟨?_, ?_, ?_⟩
  · intro env s s' sender recipient amount h
    refine ⟨_, transfer_emits h, fun response hdelivers => ?_⟩
    exact not_invalidates (handleEvent_transfer hdelivers) _
  · intro env s s' spender sender recipient amount h
    refine ⟨_, transferFrom_emits h, fun response hdelivers => ?_⟩
    exact not_invalidates (handleEvent_transfer hdelivers) _
  · intro env s s' caller student courseId h
    obtain ⟨earlier, hevents⟩ := recordProgress_emits h
    refine ⟨_, earlier, hevents, fun response hdelivers => ?_⟩
    exact not_issues (handleEvent_completed hdelivers) _ _

end Emitted

/-! ## A transfer and a completed course -/

def exampleSdk : Sdk Nat where
  text
    | .symbol name => name
    | .bool b => toString b
    | .u32 n => toString n.val
    | .u64 n => toString n.val
    | .i128 n => toString n.val
    | .bytes b => toString b
    | .address a => toString a
    | .variant name => name
  text_symbol := fun _ => rfl

/-- Account 2 has 10. -/
def exampleBalances : Token.Storage Nat :=
  { Token.Storage.fresh Nat with balance := (∅ : Table Nat I128).set 2 (.lit 10) }

/-- Account 2 sends 5 to account 3. -/
def exampleTransfer : EventResponse where
  id := 0
  ledger := 1
  contractId := "token"
  topic := ["transfer", "from", "2"]
  value := [("0", "3"), ("1", "5"), ("length", "2")]

/-- Student 7 completes a course. -/
def exampleCompleted : EventResponse where
  id := 1
  ledger := 1
  contractId := "analytics"
  topic := ["analytics", "completed"]
  value := [("0", "7"), ("1", "RUST101"), ("length", "2")]

theorem events_not_understood_transfer :
    ∃ s' event, Token.transfer (exampleEnv 0 [2]) exampleBalances 2 3 (.lit 5) = .ok s' ∧
      s'.events = event :: exampleBalances.events ∧
      ∀ response, exampleSdk.Delivers event response →
        ¬ Invalidates response (exampleSdk.publicKey 3) := by
  cases h : Token.transfer (exampleEnv 0 [2]) exampleBalances 2 3 (.lit 5) with
  | ok s' =>
    obtain ⟨event, hevents, hignored⟩ := (events_not_understood exampleSdk).1 _ _ s' 2 3 _ h
    exact ⟨s', event, rfl, hevents, hignored⟩
  | error t =>
    have hok : (Token.transfer (exampleEnv 0 [2]) exampleBalances 2 3 (.lit 5)).isOk = true := by
      decide +kernel
    rw [h] at hok
    cases hok

theorem transfer_not_understood :
    (Token.transfer (exampleEnv 0 [2]) exampleBalances 2 3 (.lit 5)).map
        (fun s' => s'.events.length) = .ok 1 ∧
      exampleSdk.Delivers (transferEvent 2 3 (.lit 5)) exampleTransfer ∧
      ((handleEvent exampleTransfer).run (handle 1) quiet (stateWith .empty ["3"])).2.cachedBalances
        = ["3"] ∧
      ¬ Invalidates exampleTransfer (exampleSdk.publicKey 3) ∧
      exampleSdk.Delivers (completedEvent 7 "RUST101") exampleCompleted ∧
      ((handleEvent exampleCompleted).run (handle 1) quiet
        (stateWith (Database.Repository.empty.save (holderOf "7")) [])).2.issued = [] ∧
      ¬ Issues exampleCompleted (exampleSdk.publicKey 7) "RUST101" := by
  refine ⟨by decide +kernel, by decide +kernel, by decide +kernel, ?_, by decide +kernel,
    by decide +kernel, ?_⟩
  · exact not_invalidates rfl _
  · exact not_issues rfl _ _

end Scoopdope.Indexer

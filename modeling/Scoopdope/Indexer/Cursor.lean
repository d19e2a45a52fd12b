import Scoopdope.Indexer.Stages

/-!
# The indexer: the cursor

The ledger that `poll` stores is the ledger the next poll starts at: what was published before
it is never asked for again. It should move past an event only when its handler has completed.
But `poll` stores the latest ledger of the network, whatever was on the page that it got, and
whatever became of the handlers.

`no_event_lost_iff`: no event from the first cursor on is lost exactly when every poll that
stores a ledger has missed nothing below it, or what it has missed (events that were not on the
page, and events whose handlers failed) has been handled by other polls.
`nothing_lost_of_complete`: so nothing is lost while pages are not full and no handler fails.
`event_lost` is a page that is too short.
-/

namespace Scoopdope.Indexer

open Async Database Server Soroban Users

variable {config : Config}

/-! ## What is lost -/

/-- Before the first poll: nothing is stored. -/
def fresh (network : Network) (users : UserTable) : State :=
  { network, lastLedger := none, cachedBalances := [], users, issued := [], notified := [] }

variable {R : Type} [DecidableEq R]

section Ghosts

variable (pool : Pool indexerInterface Surroundings HttpException Unit State Call R)

/-- The request and the ledger that an event stores. -/
def stores (i : Event Surroundings Call R) : Option (R × Nat) :=
  match pool.performs i with
  | some (r, around, _, .request (.setLastLedger ledger)) =>
    if around.exception = none then some (r, ledger) else none
  | _ => none

def noteHandled (handled : List EventResponse) (i : Event Surroundings Call R) :
    List EventResponse :=
  match pool.performs i with
  | some (_, _, _, .handled event true) => event :: handled
  | _ => handled

end Ghosts

section Reached

variable (config : Config) (limit : Nat) (s : State)
  (schedule earlier : List (Event Surroundings Call R)) (i : Event Surroundings Call R)

/-- What is reached by a schedule, newest event first. -/
def reached : Pool indexerInterface Surroundings HttpException Unit State Call R :=
  after (system config limit).exec (Pool.idle s) schedule

/-- The stages of the polls. -/
def stages : R → Stage :=
  (protocol config).stages (system config limit) .beginning s schedule

/-- The events whose handlers have completed successfully. -/
def handled : List EventResponse :=
  traced (system config limit).exec (Pool.idle s)
    (fun handled pool i => noteHandled pool handled i) [] schedule

/-- The first ledger that was stored. -/
def firstCursor : Option Nat :=
  traced (system config limit).exec (Pool.idle s)
    (fun first pool i => first.or ((stores pool i).map Prod.snd)) none schedule

/-- Every event of the indexed contracts from the first cursor on, up to the cursor, is
handled. -/
def NothingLost : Prop :=
  ∀ cursor first event, (reached config limit s schedule).shared.lastLedger = some cursor →
    firstCursor config limit s schedule = some first →
    event ∈ (reached config limit s schedule).shared.network.events →
    event.contractId ∈ config.contractIds → first ≤ event.ledger → event.ledger < cursor →
    event ∈ handled config limit s schedule

/-- When a poll stores a ledger, the events below it that the poll has missed, from the first
cursor and its own start on, are handled by other polls. -/
def MadeUp : Prop :=
  ∀ r ledger progress first event,
    stores (reached config limit s earlier) i = some (r, ledger) →
    stages config limit s earlier r = .handling progress →
    firstCursor config limit s earlier = some first →
    event ∈ (reached config limit s earlier).shared.network.events →
    event.contractId ∈ config.contractIds → max first progress.lastLedger ≤ event.ledger →
    event.ledger < ledger → progress.Misses event → event ∈ handled config limit s earlier

end Reached

variable {limit : Nat} {s : State} {past : List (Event Surroundings Call R)}
  {i : Event Surroundings Call R}

variable (config limit s past i) in
theorem exec_reached : (system config limit).exec (reached config limit s past) i =
    .ok (reached config limit s (i :: past)) := rfl

theorem handled_cons (past : List (Event Surroundings Call R)) (i : Event Surroundings Call R) :
    handled config limit s (i :: past) =
      noteHandled (reached config limit s past) (handled config limit s past) i := rfl

theorem firstCursor_cons (past : List (Event Surroundings Call R))
    (i : Event Surroundings Call R) :
    firstCursor config limit s (i :: past) =
      (firstCursor config limit s past).or
        ((stores (reached config limit s past) i).map Prod.snd) := rfl

theorem handled_mono {event : EventResponse} (h : event ∈ handled config limit s past) :
    event ∈ handled config limit s (i :: past) := by
  rw [handled_cons]
  unfold noteHandled
  split
  · exact List.mem_cons_of_mem _ h
  · exact h

theorem firstCursor_mono {first : Nat} (h : firstCursor config limit s past = some first) :
    firstCursor config limit s (i :: past) = some first := by
  rw [firstCursor_cons, h, Option.some_or]

/-! ## What an event does to the state -/

theorem lastLedger_handle {around : Surroundings} {s : State} {o : Op} :
    (handle limit around s o).2.lastLedger =
      match o with
      | .request (.setLastLedger ledger) =>
        if around.exception = none then some ledger else s.lastLedger
      | _ => s.lastLedger := by
  cases o with
  | request q =>
    unfold handle
    cases around.exception with
    | some x => cases q <;> rfl
    | none => cases q <;> first | rfl | (next start ids => cases start <;> rfl)
  | handled event success => rfl
  | close published => rfl

/-- The cursor is what an event stores, or what it was. -/
theorem lastLedger_cons :
    (reached config limit s (i :: past)).shared.lastLedger =
      ((stores (reached config limit s past) i).map Prod.snd).or
        (reached config limit s past).shared.lastLedger := by
  have hexec := exec_reached config limit s past i
  cases hperforms : (reached config limit s past).performs i with
  | none =>
    rw [stores, hperforms]
    exact congrArg State.lastLedger (System.shared_of_idle hexec hperforms)
  | some moved =>
    obtain ⟨r, around, call, o⟩ := moved
    have hshared := congrArg State.lastLedger (System.shared_of_performs hexec hperforms)
    refine (hshared.trans lastLedger_handle).trans ?_
    rw [stores, hperforms]
    cases o with
    | request q =>
      cases q with
      | setLastLedger ledger => dsimp only; split <;> rfl
      | _ => rfl
    | handled event success => rfl
    | close published => rfl

theorem network_handle {around : Surroundings} {s : State} {o : Op} :
    (handle limit around s o).2.network =
      match o with
      | .close published => s.network.close published
      | _ => s.network := by
  cases o with
  | request q =>
    unfold handle
    cases around.exception with
    | some x => cases q <;> rfl
    | none => cases q <;> first | rfl | (next start ids => cases start <;> rfl)
  | handled event success => rfl
  | close published => rfl

variable (config limit s past i) in
theorem network_cons :
    (reached config limit s (i :: past)).shared.network =
        (reached config limit s past).shared.network ∨
      ∃ published, (reached config limit s (i :: past)).shared.network =
        (reached config limit s past).shared.network.close published := by
  have hexec := exec_reached config limit s past i
  cases hperforms : (reached config limit s past).performs i with
  | none => exact .inl (congrArg State.network (System.shared_of_idle hexec hperforms))
  | some moved =>
    obtain ⟨r, around, call, o⟩ := moved
    have hnetwork := (congrArg State.network
      (System.shared_of_performs hexec hperforms)).trans network_handle
    cases o with
    | request q => exact .inl hnetwork
    | handled event success => exact .inl hnetwork
    | close published => exact .inr ⟨published, hnetwork⟩

/-- The latest ledger of the network never goes back. -/
theorem latestLedger_mono :
    (reached config limit s past).shared.network.latestLedger ≤
      (reached config limit s (i :: past)).shared.network.latestLedger := by
  rcases network_cons config limit s past i with hsame | ⟨published, hclose⟩
  · rw [hsame]
  · rw [hclose]
    exact Nat.le_succ _

/-- Nothing is added to the ledgers up to the latest. -/
theorem mem_events_cons {event : EventResponse}
    (h : event ∈ (reached config limit s (i :: past)).shared.network.events)
    (hledger : event.ledger ≤ (reached config limit s past).shared.network.latestLedger) :
    event ∈ (reached config limit s past).shared.network.events := by
  rcases network_cons config limit s past i with hsame | ⟨published, hclose⟩
  · rw [← hsame]
    exact h
  · rw [hclose] at h
    rcases Network.mem_close h with hold | hnew
    · exact hold
    · rw [hnew] at hledger
      exact absurd hledger (Nat.not_succ_le_self _)

/-! ## What is known along a schedule -/

variable (config limit s past) in
/-- The events from the first cursor on and below the ledger are handled. A poll that has
read no cursor knows nothing. -/
def Below (ledger : Nat) : Prop :=
  ledger ≤ (reached config limit s past).shared.network.latestLedger ∧
    (ledger ≠ 0 → ∃ first, firstCursor config limit s past = some first ∧
      ∀ event ∈ (reached config limit s past).shared.network.events,
        event.contractId ∈ config.contractIds → first ≤ event.ledger → event.ledger < ledger →
        event ∈ handled config limit s past)

variable (config limit s past) in
/-- What a poll in this stage may rely on. -/
def Knows : Stage → Prop
  | .beginning => True
  | .asking lastLedger => Below config limit s past lastLedger
  | .handling progress =>
    Below config limit s past progress.lastLedger ∧
      progress.latestLedger ≤ (reached config limit s past).shared.network.latestLedger ∧
      (∀ event ∈ progress.page, event ∈ progress.left ∨ event ∈ progress.failed ∨
        event ∈ handled config limit s past) ∧
      progress.Short config limit (reached config limit s past).shared.network
  | .finished => True

theorem Below.cons {ledger : Nat} (h : Below config limit s past ledger) :
    Below config limit s (i :: past) ledger := by
  obtain ⟨hlatest, hbelow⟩ := h
  refine ⟨hlatest.trans latestLedger_mono, fun hledger => ?_⟩
  obtain ⟨first, hfirst, hevents⟩ := hbelow hledger
  refine ⟨first, firstCursor_mono hfirst, fun event hevent hindexed hfrom hto => ?_⟩
  have hold := mem_events_cons hevent (hto.le.trans hlatest)
  exact handled_mono (hevents event hold hindexed hfrom hto)

theorem Knows.cons {stage : Stage} (h : Knows config limit s past stage) :
    Knows config limit s (i :: past) stage := by
  cases stage with
  | beginning => trivial
  | asking lastLedger => exact Below.cons h
  | handling progress =>
    obtain ⟨hbelow, hlatest, hpage, hshort⟩ := h
    refine ⟨hbelow.cons, hlatest.trans latestLedger_mono, fun event hevent => ?_, ?_⟩
    · rcases hpage event hevent with hleft | hfailed | hhandled
      · exact .inl hleft
      · exact .inr (.inl hfailed)
      · exact .inr (.inr (handled_mono hhandled))
    · intro hstart hfull event hevent hindexed hfrom hto
      have hold := mem_events_cons hevent (hto.trans hlatest)
      exact hshort hstart hfull event hold hindexed hfrom hto
  | finished => trivial

variable (config limit s past) in
/-- What holds at a point of a schedule, as long as nothing is lost. -/
structure Inv : Prop where
  cursor : ∀ cursor, (reached config limit s past).shared.lastLedger = some cursor →
    cursor ≤ (reached config limit s past).shared.network.latestLedger ∧
      ∃ first, firstCursor config limit s past = some first
  stages : ∀ r, Knows config limit s past (stages config limit s past r)

/-- A poll that reads the cursor starts where everything before is handled. -/
theorem below_cursor (hinv : Inv config limit s past) (hkept : NothingLost config limit s past) :
    Below config limit s past ((reached config limit s past).shared.lastLedger.getD 0) := by
  cases hcursor : (reached config limit s past).shared.lastLedger with
  | none => exact ⟨Nat.zero_le _, fun hzero => absurd rfl hzero⟩
  | some cursor =>
    obtain ⟨hlatest, first, hfirst⟩ := hinv.cursor cursor hcursor
    exact ⟨hlatest, fun _ => ⟨first, hfirst, fun event hevent hindexed hfrom hto =>
      hkept cursor first event hcursor hfirst hevent hindexed hfrom hto⟩⟩

/-- The latest ledger that `getEvents` answers with. -/
theorem latestLedger_respond {around : Surroundings} {s : State} {start : Option Nat}
    {contractIds : List String} :
    (respond limit around s (.getEvents start contractIds)).1.2 = s.network.latestLedger := by
  cases start <;> rfl

theorem short_respond {around : Surroundings} {s : State} {lastLedger : Nat}
    {start : Option Nat} {contractIds : List String}
    (h : start = startLedger lastLedger ∧ contractIds = config.contractIds) :
    (Progress.received lastLedger (respond limit around s (.getEvents start contractIds)).1.1
      (respond limit around s (.getEvents start contractIds)).1.2).Short config limit
        s.network := by
  intro hstart hshort event hevent hindexed hfrom _
  obtain rfl : start = some lastLedger := h.1.trans (if_neg hstart)
  rw [h.2] at hshort ⊢
  exact Network.mem_page hshort (Network.mem_matching.mpr ⟨hevent, hfrom, hindexed⟩)

/-- The handler of an event has come to an end. -/
theorem knows_settled {progress : Progress} {r : R} {around : Surroundings} {call : Call}
    {event : EventResponse} {success : Bool}
    (hperforms : (reached config limit s past).performs i =
      some (r, around, call, .handled event success))
    (hhead : progress.left.head? = some event)
    (h : Knows config limit s past (.handling progress)) :
    Knows config limit s (i :: past) (.handling (progress.settled event success)) := by
  obtain ⟨hbelow, hlatest, hpage, hshort⟩ :
    Knows config limit s (i :: past) (.handling progress) := h.cons
  refine ⟨hbelow, hlatest, fun other hother => ?_, hshort⟩
  have hhandled : success = true → event ∈ handled config limit s (i :: past) := by
    rintro rfl
    rw [handled_cons, noteHandled, hperforms]
    exact List.mem_cons_self
  obtain ⟨rest, hleft⟩ := List.head?_eq_some_iff.mp hhead
  rcases hpage other hother with hleft' | hfailed | hdone
  · rw [hleft] at hleft'
    rcases List.mem_cons.mp hleft' with rfl | hrest
    · cases success with
      | true => exact .inr (.inr (hhandled rfl))
      | false => exact .inr (.inl List.mem_cons_self)
    · refine .inl ?_
      simpa [Progress.settled, hleft] using hrest
  · refine .inr (.inl ?_)
    cases success with
    | true => exact hfailed
    | false => exact List.mem_cons_of_mem _ hfailed
  · exact .inr (.inr hdone)

/-- What the request that moves knows in its next stage. -/
theorem knows_next {stage : Stage} {r : R} {around : Surroundings} {call : Call} {o : Op}
    (hperforms : (reached config limit s past).performs i = some (r, around, call, o))
    (hallows : stage.Allows config o) (hinv : Inv config limit s past)
    (hkept : NothingLost config limit s past) (h : Knows config limit s past stage) :
    Knows config limit s (i :: past)
      (stage.next o (handle limit around (reached config limit s past).shared o).1) := by
  cases o with
  | close published => trivial
  | handled event success =>
    cases stage with
    | handling progress => exact knows_settled hperforms hallows h
    | _ => exact hallows.elim
  | request q =>
    cases q with
    | setLastLedger ledger => trivial
    | getLastLedger =>
      unfold handle
      cases around.exception with
      | some x => trivial
      | none => exact (below_cursor hinv hkept).cons
    | getEvents start contractIds =>
      cases stage with
      | asking lastLedger =>
        unfold handle
        cases around.exception with
        | some x => trivial
        | none =>
          let answer := (respond limit around (reached config limit s past).shared
            (.getEvents start contractIds)).1
          have hasked : Knows config limit s past
              (.handling (.received lastLedger answer.1 answer.2)) :=
            ⟨h, Nat.le_of_eq latestLedger_respond, fun event hevent => .inl hevent,
              short_respond hallows⟩
          exact hasked.cons
      | _ => exact hallows.elim
    | _ => exact h.cons

theorem performs_of_stores {r : R} {ledger : Nat}
    (h : stores (reached config limit s past) i = some (r, ledger)) :
    ∃ around call, (reached config limit s past).performs i =
      some (r, around, call, .request (.setLastLedger ledger)) := by
  unfold stores at h
  split at h
  · next r' around call ledger' hperforms =>
    split at h
    · cases h
      exact ⟨around, call, hperforms⟩
    · cases h
  · cases h

/-- A poll that stores a ledger is done with its page. -/
theorem progress_of_stores {r : R} {ledger : Nat}
    (h : stores (reached config limit s past) i = some (r, ledger)) :
    ∃ progress, stages config limit s past r = .handling progress ∧ progress.left = [] ∧
      ledger = progress.latestLedger := by
  obtain ⟨around, call, hperforms⟩ := performs_of_stores h
  have hallows : (stages config limit s past r).Allows config (.request (.setLastLedger ledger)) :=
    Protocol.allows_of_performs (follows_start config) hperforms
  cases hstage : stages config limit s past r with
  | handling progress =>
    rw [hstage] at hallows
    exact ⟨progress, rfl, hallows.1, hallows.2.1⟩
  | _ =>
    rw [hstage] at hallows
    exact hallows.elim

theorem stages_cons (past : List (Event Surroundings Call R)) (i : Event Surroundings Call R) :
    stages config limit s (i :: past) = (protocol config).note (system config limit) .beginning
      (reached config limit s past) i (stages config limit s past) := rfl

theorem knows_cons (hinv : Inv config limit s past) (hkept : NothingLost config limit s past)
    (r : R) : Knows config limit s (i :: past) (stages config limit s (i :: past) r) := by
  have hsame := (hinv.stages r).cons (i := i)
  cases hperforms : (reached config limit s past).performs i with
  | some moved =>
    obtain ⟨r', around, call, o⟩ := moved
    have hallows := Protocol.allows_of_performs (follows_start config) hperforms
    rw [stages_cons, Protocol.note_performs hperforms, Function.update_apply]
    split
    · next hr =>
      subst hr
      exact knows_next hperforms hallows hinv hkept (hinv.stages r)
    · exact hsame
  | none =>
    have hstages : stages config limit s (i :: past) = stages config limit s past :=
      Protocol.stages_of_none hperforms
    rw [hstages]
    exact hsame

theorem inv_cons (hinv : Inv config limit s past) (hkept : NothingLost config limit s past) :
    Inv config limit s (i :: past) := by
  refine ⟨fun cursor hcursor => ?_, knows_cons hinv hkept⟩
  rw [lastLedger_cons] at hcursor
  rw [firstCursor_cons]
  cases hstores : stores (reached config limit s past) i with
  | none =>
    rw [hstores] at hcursor
    obtain ⟨hlatest, first, hfirst⟩ := hinv.cursor cursor hcursor
    exact ⟨hlatest.trans latestLedger_mono, first, by rw [hfirst, Option.some_or]⟩
  | some stored =>
    obtain ⟨r, ledger⟩ := stored
    obtain ⟨progress, hstage, -, hledger⟩ := progress_of_stores hstores
    rw [hstores] at hcursor
    obtain rfl : ledger = cursor := Option.some.inj hcursor
    have hknows := hinv.stages r
    rw [hstage] at hknows
    refine ⟨?_, ?_⟩
    · rw [hledger]
      exact hknows.2.1.trans latestLedger_mono
    · cases firstCursor config limit s past with
      | none => exact ⟨ledger, rfl⟩
      | some first => exact ⟨first, rfl⟩

/-! ## When nothing is lost -/

/-- An event that stores nothing loses nothing. -/
theorem kept_of_stores_none (hinv : Inv config limit s past)
    (hkept : NothingLost config limit s past)
    (hstores : stores (reached config limit s past) i = none) :
    NothingLost config limit s (i :: past) := by
  intro cursor first event hcursor hfirst hevent hindexed hfrom hto
  rw [lastLedger_cons, hstores] at hcursor
  rw [firstCursor_cons, hstores, Option.map_none, Option.or_none] at hfirst
  obtain ⟨hlatest, -⟩ := hinv.cursor cursor hcursor
  have hold := mem_events_cons hevent (hto.le.trans hlatest)
  exact handled_mono (hkept cursor first event hcursor hfirst hold hindexed hfrom hto)

/-- A poll has handled what it has not missed. -/
theorem handled_of_progress {r : R} {progress : Progress} {event : EventResponse}
    (hinv : Inv config limit s past)
    (hstage : stages config limit s past r = .handling progress) (hleft : progress.left = [])
    (h : ¬ progress.Misses event) : event ∈ handled config limit s past := by
  have hknows := hinv.stages r
  rw [hstage] at hknows
  unfold Progress.Misses at h
  rw [not_or, not_not] at h
  obtain ⟨hpage, hfailed⟩ := h
  rcases hknows.2.2.1 event hpage with hrest | hfailed' | hhandled
  · rw [hleft] at hrest
    cases hrest
  · exact absurd hfailed' hfailed
  · exact hhandled

/-- Storing a ledger loses nothing exactly when what the poll has missed is made up for. -/
theorem kept_iff_of_stores {r : R} {ledger : Nat} (hinv : Inv config limit s past)
    (hstores : stores (reached config limit s past) i = some (r, ledger)) :
    NothingLost config limit s (i :: past) ↔ MadeUp config limit s past i := by
  obtain ⟨progress, hstage, hleft, hledger⟩ := progress_of_stores hstores
  obtain ⟨around, call, hperforms⟩ := performs_of_stores hstores
  have hcursor : (reached config limit s (i :: past)).shared.lastLedger = some ledger := by
    rw [lastLedger_cons, hstores]
    rfl
  have hhandled : handled config limit s (i :: past) = handled config limit s past := by
    rw [handled_cons, noteHandled, hperforms]
  have hnetwork : (reached config limit s (i :: past)).shared.network =
      (reached config limit s past).shared.network :=
    (congrArg State.network
      (System.shared_of_performs (exec_reached config limit s past i) hperforms)).trans
        network_handle
  constructor
  · intro hkept r' ledger' progress' first event hstores' hstage' hfirst hevent hindexed hfrom hto _
    cases hstores.symm.trans hstores'
    rw [← hhandled]
    rw [← hnetwork] at hevent
    exact hkept ledger first event hcursor (firstCursor_mono hfirst) hevent hindexed
      ((le_max_left first _).trans hfrom) hto
  · intro hmade cursor first event hcursor' hfirst hevent hindexed hfrom hto
    obtain rfl := Option.some.inj (hcursor.symm.trans hcursor')
    rw [hnetwork] at hevent
    rw [hhandled]
    rw [firstCursor_cons, hstores] at hfirst
    cases hold : firstCursor config limit s past with
    | none =>
      -- the first cursor: there is nothing from it on and below it
      rw [hold] at hfirst
      obtain rfl : ledger = first := Option.some.inj hfirst
      exact absurd hto (Nat.not_lt.mpr hfrom)
    | some first' =>
      rw [hold] at hfirst
      obtain rfl : first' = first := Option.some.inj hfirst
      rcases lt_or_ge event.ledger progress.lastLedger with hbefore | hfromStart
      · have hknows := hinv.stages r
        rw [hstage] at hknows
        obtain ⟨first, hfirst', hbelow⟩ := hknows.1.2 (Nat.ne_zero_of_lt hbefore)
        obtain rfl := Option.some.inj (hold.symm.trans hfirst')
        exact hbelow event hevent hindexed hfrom hbefore
      · by_cases hmissed : progress.Misses event
        · exact hmade r ledger progress first' event hstores hstage hold hevent hindexed
            (max_le hfrom hfromStart) hto hmissed
        · exact handled_of_progress hinv hstage hleft hmissed

theorem kept_cons (hinv : Inv config limit s past) (hkept : NothingLost config limit s past) :
    NothingLost config limit s (i :: past) ↔ MadeUp config limit s past i := by
  cases hstores : stores (reached config limit s past) i with
  | none =>
    refine iff_of_true (kept_of_stores_none hinv hkept hstores) ?_
    intro r ledger progress first event hstores'
    rw [hstores] at hstores'
    cases hstores'
  | some stored => exact kept_iff_of_stores hinv hstores

theorem inv_fresh (network : Network) (users : UserTable) :
    Inv (R := R) config limit (fresh network users) [] :=
  ⟨nofun, fun _ => trivial⟩

theorem kept_fresh (network : Network) (users : UserTable) :
    NothingLost (R := R) config limit (fresh network users) [] := nofun

theorem inv_of_guarded {network : Network} {users : UserTable} :
    ∀ past : List (Event Surroundings Call R),
      Guarded (MadeUp config limit (fresh network users)) past →
      Inv config limit (fresh network users) past ∧
        NothingLost config limit (fresh network users) past := by
  intro past
  induction past with
  | nil => exact fun _ => ⟨inv_fresh network users, kept_fresh network users⟩
  | cons i past ih =>
    rintro ⟨hi, hpast⟩
    obtain ⟨hinv, hkept⟩ := ih hpast
    exact ⟨inv_cons hinv hkept, (kept_cons hinv hkept).mpr hi⟩

/-- Throughout a schedule of polls and ledgers, no event of the indexed contracts from the
first cursor on is passed before its handler has completed, exactly when every poll that stores
a ledger has missed nothing below it, or other polls have handled what it has missed. -/
theorem no_event_lost_iff (config : Config) (limit : Nat) (network : Network) (users : UserTable)
    (schedule : List (Event Surroundings Call R)) :
    (∀ earlier, earlier <:+ schedule →
      NothingLost config limit (fresh network users) earlier) ↔
    Guarded (MadeUp config limit (fresh network users)) schedule :=
  throughout_iff_guarded_of (kept_fresh network users) schedule fun past _ _ hguarded hkept =>
    kept_cons (inv_of_guarded past hguarded).1 hkept

/-! ## Polls that miss nothing -/

/-- Every poll that stores a ledger, but for the first, has a start ledger, a page that is not
full, and no handler that fails. -/
def Complete (config : Config) (limit : Nat) (s : State)
    (earlier : List (Event Surroundings Call R)) (i : Event Surroundings Call R) : Prop :=
  ∀ r ledger progress first, stores (reached config limit s earlier) i = some (r, ledger) →
    stages config limit s earlier r = .handling progress →
    firstCursor config limit s earlier = some first →
    progress.lastLedger ≠ 0 ∧ progress.page.length < limit ∧ progress.failed = []

theorem Complete.madeUp (hinv : Inv config limit s past) (h : Complete config limit s past i) :
    MadeUp config limit s past i := by
  intro r ledger progress first event hstores hstage hfirst hevent hindexed hfrom hto hmissed
  obtain ⟨hstart, hshort, hfailed⟩ := h r ledger progress first hstores hstage hfirst
  obtain ⟨progress', hstage', -, hledger⟩ := progress_of_stores hstores
  cases hstage.symm.trans hstage'
  have hknows := hinv.stages r
  rw [hstage] at hknows
  have hpage : event ∈ progress.page :=
    hknows.2.2.2 hstart hshort event hevent hindexed ((le_max_right first _).trans hfrom)
      (hledger ▸ hto.le)
  rcases hmissed with hcut | hthrown
  · exact absurd hpage hcut
  · rw [hfailed] at hthrown
    cases hthrown

/-- Nothing is lost while all polls are complete. -/
theorem nothing_lost_of_complete {network : Network} {users : UserTable}
    {schedule earlier : List (Event Surroundings Call R)}
    (h : Guarded (Complete config limit (fresh network users)) schedule)
    (hearlier : earlier <:+ schedule) : NothingLost config limit (fresh network users) earlier := by
  have hmade : Guarded (MadeUp config limit (fresh network users)) schedule := by
    clear hearlier
    induction schedule with
    | nil => trivial
    | cons i past ih =>
      have hpast := ih h.2
      exact ⟨h.1.madeUp (inv_of_guarded past hpast).1, hpast⟩
  exact (inv_of_guarded earlier (hmade.of_suffix hearlier)).2

/-! ## An event that is lost -/

def exampleConfig : Config where
  analyticsContractId := "ANALYTICS"
  tokenContractId := "TOKEN"

/-- A transfer, as the indexer expects it. -/
def transfer (id ledger : Nat) (recipient : String) : EventResponse where
  id := id
  ledger := ledger
  contractId := "TOKEN"
  topic := ["token", "transfer"]
  value := [("to", recipient), ("amount", "500")]

/-- A poll stores the first cursor. Two transfers in one ledger and an empty ledger follow, and
the next poll gets a page of one event. Nothing fails. Newest event first. -/
def shortPage : List (Event Surroundings Call Nat) :=
  let around : Surroundings := { exception := none, unstarted := [] }
  [ .resume 3 around, .resume 3 around, .resume 3 around, .resume 3 around, .resume 3 around,
    .call 3 around .poll,
    .resume 2 around, .call 2 around (.close []),
    .resume 1 around, .call 1 around (.close [transfer 0 0 "ALICE", transfer 0 0 "BOB"]),
    .resume 0 around, .resume 0 around, .resume 0 around, .call 0 around .poll ]

/-- The cursor is past the second transfer, which no handler was ever given. -/
theorem event_lost :
    let s := fresh genesis .empty
    (reached exampleConfig 1 s shortPage).shared.lastLedger = some 3 ∧
      transfer 1 2 "BOB" ∈ (reached exampleConfig 1 s shortPage).shared.network.events ∧
      handled exampleConfig 1 s shortPage = [transfer 0 2 "ALICE"] ∧
      ¬ ∀ earlier, earlier <:+ shortPage → NothingLost exampleConfig 1 s earlier := by
  intro s
  have hcursor : (reached exampleConfig 1 s shortPage).shared.lastLedger = some 3 := by
    decide +kernel
  have hfirst : firstCursor exampleConfig 1 s shortPage = some 1 := by decide +kernel
  have hevent : transfer 1 2 "BOB" ∈
      (reached exampleConfig 1 s shortPage).shared.network.events := by decide +kernel
  have hhandled : handled exampleConfig 1 s shortPage = [transfer 0 2 "ALICE"] := by
    decide +kernel
  refine ⟨hcursor, hevent, hhandled, fun h => ?_⟩
  have hlost := h shortPage (List.suffix_refl _) 3 1 _ hcursor hfirst hevent (by decide)
    (by decide) (by decide)
  rw [hhandled] at hlost
  exact absurd hlost (by decide)

end Scoopdope.Indexer

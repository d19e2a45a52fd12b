import Scoopdope.Async.CheckThenAct
import Scoopdope.Learning.Requests

/-!
# Learning: interleaved calls

Calls of the services, with their requests in any order. Each event has surroundings of its own,
so any request may fail. `succeeded` is the call of `StellarService` that an event performs, and
`written` is made of these.
-/

namespace Scoopdope.Learning

open Async Database Server Soroban

variable {A C G R : Type}

/-! ## Requests in a protocol -/

section Follows

variable {P : Protocol learningInterface G} {bad : G → HttpException → Prop} {g : G}

theorem follows_request {q : Request} {ok : G → q.value → Prop} (hallows : P.Allows g q)
    (hok : ∀ value, ok (P.next g q (.ok value)) value)
    (hbad : ∀ x, bad (P.next g q (.error x)) x) : (request q).Follows P ok bad g := by
  refine ⟨hallows, fun answer => ?_⟩
  cases answer with
  | ok value => exact hok value
  | error x => exact hbad x

theorem follows_insert {t : Entity} {data : t.Columns} {ok : G → schema.Row t → Prop}
    (hallows : P.Allows g (.query (.insert t data)))
    (hok : ∀ row, ok (P.next g (.query (.insert t data)) (.ok (some row))) row)
    (hbad : ∀ x, bad (P.next g (.query (.insert t data)) (.error x)) x)
    (htaken : bad (P.next g (.query (.insert t data)) (.ok none)) Users.duplicateKey) :
    (insert t data).Follows P ok bad g := by
  refine ⟨hallows, fun answer => ?_⟩
  cases answer with
  | error x => exact hbad x
  | ok row =>
    cases row with
    | some row => exact hok row
    | none => exact htaken

theorem follows_save {t : Entity} {row : schema.Row t} {ok : G → schema.Row t → Prop}
    (hallows : P.Allows g (.query (.save t row)))
    (hok : ∀ row', ok (P.next g (.query (.save t row)) (.ok (some row'))) row')
    (hbad : ∀ x, bad (P.next g (.query (.save t row)) (.error x)) x)
    (htaken : bad (P.next g (.query (.save t row)) (.ok none)) Users.duplicateKey) :
    (save t row).Follows P ok bad g := by
  refine ⟨hallows, fun answer => ?_⟩
  cases answer with
  | error x => exact hbad x
  | ok row' =>
    cases row' with
    | some row' => exact hok row'
    | none => exact htaken

end Follows

/-! ## Runs -/

def system (start : C → Method A) :
    System learningInterface Surroundings HttpException A State C where
  start := start
  handle := handle

abbrev CallPool (A C R : Type) : Type :=
  Pool learningInterface Surroundings HttpException A State C R

abbrev CallEvent (C R : Type) : Type := Event Surroundings C R

/-- The call of `StellarService` that an event performs, if it succeeds, with the request and the
transaction hash. -/
def succeeded (pool : CallPool A C R) (i : CallEvent C R) : Option (R × ChainCall × String) :=
  match pool.performs i with
  | some (r, around, _, .stellar call) =>
    if around.fails (.stellar call) = none then some (r, call, around.hash call) else none
  | _ => none

theorem succeeded_some {pool : CallPool A C R} {i : CallEvent C R} {r : R} {call : ChainCall}
    {hash : String} :
    succeeded pool i = some (r, call, hash) ↔
      ∃ around c, pool.performs i = some (r, around, c, .stellar call) ∧
        around.fails (.stellar call) = none ∧ hash = around.hash call := by
  unfold succeeded
  constructor
  · intro h
    split at h
    · next r' around c call' hperforms =>
      split at h
      · next hfails =>
        cases h
        exact ⟨around, c, hperforms, hfails, rfl⟩
      · cases h
    · cases h
  · rintro ⟨around, c, hperforms, hfails, rfl⟩
    rw [hperforms]
    exact if_pos hfails

variable [DecidableEq R] {start : C → Method A} {s : State} {past : List (CallEvent C R)}
  {i : CallEvent C R}

variable (start s past) in
/-- What is reached by a schedule, newest event first. -/
def reached : CallPool A C R := after (system start).exec (Pool.idle s) past

variable (start s past) in
/-- What a schedule writes to the chain, newest first. -/
def written : List (R × ChainCall × String) :=
  effects (fun past i => succeeded (reached start s past) i) past

theorem shared_of_performs {r : R} {around : Surroundings} {c : C} {q : Request}
    (h : (reached start s past).performs i = some (r, around, c, q)) :
    (reached start s (i :: past)).shared = (handle around (reached start s past).shared q).2 :=
  System.shared_of_performs (System.after_exec (system start) past i) h

theorem shared_of_idle (h : (reached start s past).performs i = none) :
    (reached start s (i :: past)).shared = (reached start s past).shared :=
  System.shared_of_idle (System.after_exec (system start) past i) h

end Scoopdope.Learning

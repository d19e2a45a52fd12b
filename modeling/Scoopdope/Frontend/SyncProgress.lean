import Scoopdope.Async.Turns

/-!
# The offline queue of progress updates

`useSyncProgress` (`hooks/useSyncProgress.ts`), in the browser. What is waited for are the posts;
`localStorage` is read and written in between. A post that fails is caught where it is made.

Several syncs may be under way at a time: one starts with every page that uses the hook and
whenever the browser goes online.
-/

namespace Scoopdope.Frontend

open Async

/-- What `recordProgress` is called with. -/
structure Progress where
  courseId : String
  lessonId : String
  progressPct : Nat
  /-- Tells apart calls with the same arguments. The code does not look at it. -/
  call : Nat
deriving DecidableEq

structure PendingProgress extends Progress where
  timestamp : Nat
deriving DecidableEq

inductive BrowserOp
  | getItem
  | setItem (updates : List PendingProgress)
  | post (update : Progress)
deriving DecidableEq

abbrev browser : Interface where
  Op := BrowserOp
  Answer
    | .getItem => Option (List PendingProgress)
    | .setItem _ => Unit
    | .post _ => Bool

/-- `localStorage` is not waited for. -/
def isSync : BrowserOp → Bool
  | .post _ => false
  | _ => true

structure Env where
  /-- `navigator.onLine` -/
  onLine : Bool
  /-- `Date.now()` -/
  now : Nat
  /-- The post that is answered has succeeded. -/
  succeeds : Bool

structure State where
  /-- The item `pending_progress_updates` of `localStorage`. -/
  stored : Option (List PendingProgress)
  /-- The posts that have succeeded. -/
  posted : List Progress

def State.empty : State := ⟨none, []⟩

def handle (env : Env) (s : State) : (o : BrowserOp) → browser.Answer o × State
  | .getItem => (s.stored, s)
  | .setItem updates => ((), { s with stored := some updates })
  | .post update =>
    (env.succeeds, if env.succeeds then { s with posted := update :: s.posted } else s)

abbrev Method (A : Type) : Type := Process browser Env Empty A

def getPending : Method (List PendingProgress) := do
  let stored ← Process.perform (I := browser) .getItem
  pure (stored.getD [])

def savePending (updates : List PendingProgress) : Method Unit :=
  Process.perform (I := browser) (.setItem updates)

/-- The loop of `sync`, from one update on, and what comes after it. -/
def postAll : List PendingProgress → List PendingProgress → Method Unit
  | [], remaining => savePending remaining
  | update :: rest, remaining => do
    let succeeded ← Process.perform (I := browser) (.post update.toProgress)
    postAll rest (if succeeded then remaining else remaining ++ [update])

def sync : Method Unit := do
  let env ← Process.env
  if env.onLine = false then pure ()
  else do
    let pending ← getPending
    if pending.isEmpty then pure () else postAll pending []

/-- The end of `recordProgress`. -/
def saveForSync (update : Progress) : Method Unit := do
  let pending ← getPending
  let env ← Process.env
  savePending (pending ++ [{ update with timestamp := env.now }])

/-- `recordProgress` while the browser is online. -/
def recordOnline (update : Progress) : Method Unit := do
  let succeeded ← Process.perform (I := browser) (.post update)
  if succeeded then pure () else saveForSync update

def recordProgress (update : Progress) : Method Unit := do
  let env ← Process.env
  if env.onLine then recordOnline update else saveForSync update

inductive Call
  | sync
  | recordProgress (update : Progress)
deriving DecidableEq

def Call.start : Call → Method Unit
  | .sync => Frontend.sync
  | .recordProgress update => Frontend.recordProgress update

def system : System browser Env Empty Unit State Call := ⟨Call.start, handle⟩

/-- The list in `localStorage`. -/
def State.pending (s : State) : List PendingProgress := s.stored.getD []

end Scoopdope.Frontend

import Mathlib.Data.List.Sort
import Scoopdope.Async.Turns
import Scoopdope.Database.Repository

/-!
# The email queue

`enqueue`, `processQueue` and `sendJob` of `EmailService` (`email/email.service.ts`). What is waited
for are the database and the mail server; the flag `processing` is read and written in between.

`processQueue` is called by the timer, by a notification and at the end of `enqueue`: at any time.
The database answers; a mail may be refused, with a message.
-/

namespace Scoopdope.Email

open Async Database

inductive EmailStatus
  | pending | sent | failed
deriving DecidableEq

structure EmailQueue where
  id : String
  /-- The column `to`. -/
  recipient : String
  subject : String
  html : String
  status : EmailStatus
  attempts : Nat
  lastError : Option String
  /-- A date, in milliseconds. -/
  nextRetryAt : Option Nat
  createdAt : Nat
deriving DecidableEq

abbrev Queue : Type := Repository EmailQueue.id

def maxAttempts : Nat := 3

/-- In seconds. -/
def retryDelays : List Nat := [60, 300, 900]

/-- What `sendMail` is called with. -/
structure Mail where
  /-- `from` -/
  sender : Option String
  /-- `to` -/
  recipient : String
  subject : String
  html : String
deriving DecidableEq

structure Config where
  /-- `mail.enabled` -/
  enabled : Bool
  /-- `mail.from` -/
  sender : Option String

inductive EmailOp
  | readProcessing
  | writeProcessing (processing : Bool)
  | insert (recipient subject html : String)
  | find (now : Nat)
  | save (job : EmailQueue)
  /-- `sendMail`, for the job with this key. -/
  | sendMail (id : String) (mail : Mail)
deriving DecidableEq

abbrev emailInterface : Interface where
  Op := EmailOp
  Answer
    | .readProcessing => Bool
    | .writeProcessing _ => Unit
    | .insert _ _ _ => Bool
    | .find _ => List EmailQueue
    | .save _ => Unit
    | .sendMail _ _ => Except String Unit

/-- The flag is in memory. -/
def isSync : EmailOp → Bool
  | .readProcessing => true
  | .writeProcessing _ => true
  | _ => false

structure Env where
  now : Nat
  /-- The primary key that the database generates. -/
  uuid : String
  /-- What the mail server answers. -/
  mail : Except String Unit

/-- A call of `sendMail` that was answered. -/
structure Attempt where
  id : String
  succeeded : Bool
deriving DecidableEq

structure State where
  queue : Queue
  processing : Bool
  /-- The answers of the mail server, newest first. -/
  attempts : List Attempt

/-- `nextRetryAt` is null, or past. -/
def isDue (now : Nat) (job : EmailQueue) : Bool :=
  decide (job.status = .pending) && job.nextRetryAt.all fun time => decide (time ≤ now)

/-- The jobs of one round, those that have waited longest first. -/
def dueJobs (queue : Queue) (now : Nat) : List EmailQueue :=
  ((queue.find (isDue now)).mergeSort fun a b => decide (a.createdAt ≤ b.createdAt)).take 10

def newJob (env : Env) (recipient subject html : String) : EmailQueue :=
  { id := env.uuid, recipient, subject, html, status := .pending, attempts := 0, lastError := none
    nextRetryAt := none, createdAt := env.now }

def handle (env : Env) (s : State) : (o : EmailOp) → emailInterface.Answer o × State
  | .readProcessing => (s.processing, s)
  | .writeProcessing processing => ((), { s with processing })
  | .insert recipient subject html =>
    if (s.queue.get env.uuid).isSome then (false, s)
    else (true, { s with queue := s.queue.save (newJob env recipient subject html) })
  | .find now => (dueJobs s.queue now, s)
  | .save job => ((), { s with queue := s.queue.save job })
  | .sendMail id _ => (env.mail, { s with attempts := ⟨id, env.mail.isOk⟩ :: s.attempts })

/-- The exception is that of an insertion. -/
inductive QueryFailed
  | duplicateKey
deriving DecidableEq

abbrev Method (A : Type) : Type := Process emailInterface Env QueryFailed A

def enqueue (recipient subject html : String) : Method Unit := do
  let inserted ← Process.perform (I := emailInterface) (.insert recipient subject html)
  if inserted then pure () else .fail .duplicateKey

/-- The job once the mail server has answered at `now`. -/
def settled (now : Nat) (job : EmailQueue) : Except String Unit → EmailQueue
  | .ok () => { job with status := .sent }
  | .error message =>
    if maxAttempts ≤ job.attempts then { job with lastError := some message, status := .failed }
    else
      let delaySec := (retryDelays[job.attempts - 1]?).getD 900
      { job with lastError := some message, nextRetryAt := some (now + delaySec * 1000) }

/-- `job.attempts += 1` -/
def attempted (job : EmailQueue) : EmailQueue := { job with attempts := job.attempts + 1 }

def mailOf (config : Config) (job : EmailQueue) : Mail :=
  { sender := config.sender, recipient := job.recipient, subject := job.subject, html := job.html }

/-- Where mail is disabled the job is only logged. -/
def send (config : Config) (job : EmailQueue) : Method (Except String Unit) :=
  if config.enabled = false then pure (.ok ())
  else Process.perform (I := emailInterface) (.sendMail job.id (mailOf config job))

def saveSettled (job : EmailQueue) (answer : Except String Unit) : Method Unit := do
  let env ← Process.env
  Process.perform (I := emailInterface) (.save (settled env.now job answer))

def sendJob (config : Config) (job : EmailQueue) : Method Unit := do
  let answer ← send config (attempted job)
  saveSettled (attempted job) answer

/-- The loop of `processQueue`, from one job on, and the `finally` after it. Nothing in the loop
throws. -/
def sendAll (config : Config) : List EmailQueue → Method Unit
  | [] => Process.perform (I := emailInterface) (.writeProcessing false)
  | job :: jobs => do
    sendJob config job
    sendAll config jobs

def processQueue (config : Config) : Method Unit := do
  let processing ← Process.perform (I := emailInterface) .readProcessing
  if processing then pure ()
  else do
    Process.perform (I := emailInterface) (.writeProcessing true)
    let env ← Process.env
    let jobs ← Process.perform (I := emailInterface) (.find env.now)
    sendAll config jobs

inductive Call
  | enqueue (recipient subject html : String)
  | processQueue
deriving DecidableEq

def Call.start (config : Config) : Call → Method Unit
  | .enqueue recipient subject html => Email.enqueue recipient subject html
  | .processQueue => Email.processQueue config

def system (config : Config) : System emailInterface Env QueryFailed Unit State Call :=
  ⟨Call.start config, handle⟩

end Scoopdope.Email

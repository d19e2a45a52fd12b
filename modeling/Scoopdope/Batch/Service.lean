import Scoopdope.Database.Repository
import Scoopdope.Server.Values

/-!
# Batches: the service

`BatchService` (`batch/batch.service.ts`) and its entity `BatchJob`. The services that it calls are
parameters, over any state: each call returns an entity, of which the `id` is read, or throws.
`processUserBatch` and `processCourseBatch` are one function of what is done with an item.
-/

namespace Scoopdope.Batch

open Database Server

structure BatchPayloadItem where
  action : String
  userId : Option String
  courseId : Option String
  role : Option String
  others : List (String × Value)

def field (name : String) (text : Option String) : List (String × Value) :=
  text.toList.map fun text => (name, .str text)

def BatchPayloadItem.fields (item : BatchPayloadItem) : List (String × Value) :=
  field "action" item.action ++ field "userId" item.userId ++ field "courseId" item.courseId ++
    field "role" item.role ++ item.others

/-- What is thrown: an `Error` or some other value. -/
inductive Thrown
  | error (message : String)
  | value

/-- `err instanceof Error ? err.message : 'Unknown error'` -/
def Thrown.message : Thrown → String
  | error message => message
  | value => "Unknown error"

/-- A call of a service, with the `id` of what it returns. -/
abbrev Call (S : Type) : Type := S → Except Thrown (Option String) × S

structure CoursesService (S : Type) where
  update (courseId : String) (data : List (String × Value)) : Call S
  delete (courseId : String) : Call S
  create (data : List (String × Value)) : Call S

inductive BatchJobStatus
  | pending
  | processing
  | completed
  | failed
deriving DecidableEq

inductive BatchJobType
  | users
  | courses
deriving DecidableEq

structure BatchJob where
  id : String
  type : BatchJobType
  status : BatchJobStatus
  payload : List BatchPayloadItem
  results : Option (List Value)
  errors : Option (List Value)
  totalItems : Nat
  processedItems : Nat
  failedItems : Nat
  createdById : String
  startedAt : Option Int

abbrev Jobs : Type := Repository BatchJob.id

/-- `jobRepo.create`, with the key and the defaults that the row gets. -/
def newJob (id : String) (type : BatchJobType) (payload : List BatchPayloadItem)
    (createdById : String) : BatchJob :=
  { id, type, status := .pending, payload, results := none, errors := none,
    totalItems := payload.length, processedItems := 0, failedItems := 0, createdById,
    startedAt := none }

def createUserBatch (id : String) (payload : List BatchPayloadItem) (createdById : String)
    (jobs : Jobs) : BatchJob × Jobs :=
  let job := newJob id .users payload createdById
  (job, jobs.save job)

def createCourseBatch (id : String) (payload : List BatchPayloadItem) (createdById : String)
    (jobs : Jobs) : BatchJob × Jobs :=
  let job := newJob id .courses payload createdById
  (job, jobs.save job)

/-- The entry of an item: in the results, or in the errors. -/
abbrev Entry : Type := Except Value Value

/-- The variables of the closure `processChunk`, and the state of the services. -/
structure Progress (S : Type) where
  index : Nat
  results : List Value
  errors : List Value
  services : S

/-- What an item contributes. -/
def Progress.push {S : Type} (p : Progress S) (outcome : Entry × S) : Progress S :=
  match outcome with
  | (.ok result, s) =>
    { p with index := p.index + 1, results := p.results ++ [result], services := s }
  | (.error error, s) =>
    { p with index := p.index + 1, errors := p.errors ++ [error], services := s }

section Loop

variable {S : Type} (apply : BatchPayloadItem → S → Entry × S)

/-- The start of the job. -/
def started (now : Int) (job : BatchJob) : BatchJob :=
  { job with status := .processing, startedAt := some now }

/-- The counts of what has been done. -/
def counted (p : Progress S) (job : BatchJob) : BatchJob :=
  { job with processedItems := p.results.length, failedItems := p.errors.length }

/-- The end of the job. -/
def finished (totalItems : Nat) (p : Progress S) (job : BatchJob) : BatchJob :=
  { job with
    status := if p.errors.length = totalItems then .failed else .completed
    results := some p.results
    errors := some p.errors
    processedItems := p.results.length
    failedItems := p.errors.length
    startedAt := none }

end Loop

end Scoopdope.Batch

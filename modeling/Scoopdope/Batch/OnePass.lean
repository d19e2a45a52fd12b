import Scoopdope.Batch.Service

/-!
# Batches: one pass

`onePass` is the plain loop over the payload.

`batches_exact`: the loop over the chunks applies the items as the plain loop does, and finishes the
job with the entries of that loop.
-/

namespace Scoopdope.Batch

open Database Server

section Pass

variable {S : Type} (apply : BatchPayloadItem → S → Entry × S)

/-- Every item once, in order: what each of them contributes, and the services afterwards. -/
def onePass : List BatchPayloadItem → S → List Entry × S
  | [], s => ([], s)
  | item :: items, s =>
    let (entry, s) := apply item s
    let (entries, s) := onePass items s
    (entry :: entries, s)

end Pass

def results (entries : List Entry) : List Value := entries.filterMap Except.toOption

def errors (entries : List Entry) : List Value :=
  entries.filterMap fun
    | .ok _ => none
    | .error error => some error

/-- The job after the plain loop, and the services. -/
structure Finished {S : Type} (apply : BatchPayloadItem → S → Entry × S) (job : BatchJob)
    (before after : S × Jobs) : Prop where
  /-- Every item has contributed one entry. -/
  total : (onePass apply job.payload before.1).1.length = job.payload.length
  services : after.1 = (onePass apply job.payload before.1).2
  finished : ∃ job', after.2.get job.id = some job' ∧
    job'.results = some (results (onePass apply job.payload before.1).1) ∧
    job'.errors = some (errors (onePass apply job.payload before.1).1) ∧
    (results (onePass apply job.payload before.1).1).length +
      (errors (onePass apply job.payload before.1).1).length = job'.totalItems ∧
    (job.payload ≠ [] → (job'.status = .failed ↔
      ∀ entry ∈ (onePass apply job.payload before.1).1, entry.isOk = false))
  others : ∀ jobId, jobId ≠ job.id → after.2.get jobId = before.2.get jobId

/-! ## The entries -/

variable {S : Type} {apply : BatchPayloadItem → S → Entry × S} {entries : List Entry}

variable (apply) in
/-- The variables of the closure after some more items. -/
def passed (p : Progress S) (items : List BatchPayloadItem) : Progress S :=
  items.foldl (fun p item => p.push (apply item p.services)) p

def exampleCourses : CoursesService (List String) where
  update courseId _ calls := (.ok courseId, calls ++ ["update " ++ courseId])
  delete _ calls := (.ok none, calls)
  create _ calls := (.ok "c7", calls ++ ["create"])

end Scoopdope.Batch

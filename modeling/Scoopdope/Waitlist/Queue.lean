import Scoopdope.Database.Ranked
import Scoopdope.Soroban.History
import Scoopdope.Waitlist.Service

/-!
# The waitlist: the queues

Runs of `join`, `leave`, `adminRemove` and `promoteNext`, one after another. What a call finds in
the other tables may be anything, and any request may fail, except the update by which `leave`
closes the gap that it makes.

`waitlist_fifo`: the entries of each course stand at the positions 1, 2, ... in the order in which
their users joined, and a call adds an entry at the end of its course's queue, takes out the entry
of a user or the first one, or changes nothing.
-/

namespace Scoopdope.Waitlist

open Async Database Server Learning Soroban

abbrev Entry : Type := schema.Row .waitlistEntry

abbrev Entries : Type := schema.Rows .waitlistEntry

inductive Call
  | join (userId courseId : String)
  | leave (userId courseId : String)
  | adminRemove (courseId userId : String)
  | promoteNext (courseId : String)

/-- What is run, without what it returns. -/
def Call.method : Call → Method Unit
  | .join userId courseId => Waitlist.join userId courseId >>= fun _ => pure ()
  | .leave userId courseId => Waitlist.leave userId courseId
  | .adminRemove courseId userId => Waitlist.adminRemove courseId userId
  | .promoteNext courseId => Waitlist.promoteNext courseId

def Call.courseId : Call → String
  | .join _ courseId => courseId
  | .leave _ courseId => courseId
  | .adminRemove courseId _ => courseId
  | .promoteNext courseId => courseId

/-- A call, with what it meets. -/
structure Step where
  around : Surroundings
  /-- The other tables. -/
  rest : State
  call : Call

/-- The update that closes a gap does not fail. -/
def Step.Compacts (i : Step) : Prop :=
  ∀ courseId pos,
    i.around.fails (.query (.update .waitlistEntry (.after courseId pos) moveUp)) = none

def Step.run (i : Step) (rows : Entries) : Except HttpException Unit × State :=
  i.call.method.run handle i.around (i.rest.put .waitlistEntry rows)

def exec (rows : Entries) (i : Step) : Outcome Entries :=
  .ok ((i.run rows).2.tables .waitlistEntry)

/-- The entries after a run that starts without any. -/
abbrev reached (past : List Step) : Entries := after exec Repository.empty past

def position (entry : Entry) : Int := entry.data.position

/-- The entries of a course, by position. -/
def waiting (rows : Entries) (courseId : String) : List Entry :=
  (rows.find (schema.holds .waitlistEntry (.course courseId))).insertionSort fun a b =>
    position a ≤ position b

/-- The users who wait for a course. -/
def queue (rows : Entries) (courseId : String) : List String :=
  (waiting rows courseId).map fun entry => entry.data.userId

/-- The entries of each course have the positions from 1 on, and no user has two of them. -/
structure InOrder (rows : Entries) : Prop where
  ranked : ∀ courseId, RankedFrom position 1 (waiting rows courseId)
  nodup : ∀ courseId, (queue rows courseId).Nodup

/-- What a call may do to the queues: `rows'` are the entries that it leaves, and `ok` says
whether it returns. -/
inductive Serves (rows rows' : Entries) : Call → Bool → Prop
  | refused {call : Call} (h : rows' = rows) : Serves rows rows' call false
  | joined {userId courseId : String} {ok : Bool} (hnew : userId ∉ queue rows courseId)
    (h : queue rows' = Function.update (queue rows) courseId (queue rows courseId ++ [userId])) :
    Serves rows rows' (.join userId courseId) ok
  | left {userId courseId : String} (hwaiting : userId ∈ queue rows courseId)
    (h : queue rows' =
      Function.update (queue rows) courseId ((queue rows courseId).erase userId)) :
    Serves rows rows' (.leave userId courseId) true
  | removed {userId courseId : String} (hwaiting : userId ∈ queue rows courseId)
    (h : queue rows' =
      Function.update (queue rows) courseId ((queue rows courseId).erase userId)) :
    Serves rows rows' (.adminRemove courseId userId) true
  | promoted {userId courseId : String} {others : List String}
    (hfirst : queue rows courseId = userId :: others)
    (h : queue rows' = Function.update (queue rows) courseId others) :
    Serves rows rows' (.promoteNext courseId) true
  | idle {courseId : String} (h : rows' = rows) : Serves rows rows' (.promoteNext courseId) true

/-! ## The queues after a statement -/

variable {rows : Entries} {courseId userId : String} {entry : Entry}

theorem holds_course :
    schema.holds .waitlistEntry (.course courseId) entry = true ↔ entry.data.courseId = courseId :=
  decide_eq_true_iff

theorem mem_waiting : entry ∈ waiting rows courseId ↔
    entry ∈ rows ∧ entry.data.courseId = courseId := by
  unfold waiting
  rw [List.mem_insertionSort, Repository.mem_find, holds_course]

theorem perm_waiting :
    (rows.find (schema.holds .waitlistEntry (.course courseId))).Perm (waiting rows courseId) :=
  (List.perm_insertionSort _ _).symm

theorem nodup_ids : ((waiting rows courseId).map fun entry => entry.id).Nodup :=
  (perm_waiting.map _).nodup_iff.mp Repository.nodup_find_keys

/-- Ranked entries are those that wait, in their order. -/
theorem waiting_eq {entries : List Entry} (h : RankedFrom position 1 entries)
    (hperm : (rows.find (schema.holds .waitlistEntry (.course courseId))).Perm entries) :
    waiting rows courseId = entries :=
  h.insertionSort hperm

/-- The queue of a course becomes another, and the others stay as they are. -/
structure Becomes (rows rows' : Entries) (courseId : String) (entries : List Entry) : Prop where
  ranked : RankedFrom position 1 entries
  waiting : waiting rows' = Function.update (waiting rows) courseId entries

section Becomes

variable {rows' : Entries} {entries : List Entry}

theorem Becomes.queue (h : Becomes rows rows' courseId entries) :
    queue rows' = Function.update (queue rows) courseId
      (entries.map fun entry => entry.data.userId) := by
  funext c
  unfold Waitlist.queue
  rw [h.waiting]
  by_cases hc : c = courseId
  · rw [hc, Function.update_self, Function.update_self]
  · rw [Function.update_of_ne hc, Function.update_of_ne hc]

theorem Becomes.inOrder (h : Becomes rows rows' courseId entries) (hrows : InOrder rows)
    (hnodup : (entries.map fun entry => entry.data.userId).Nodup) : InOrder rows' where
  ranked c := by
    rw [h.waiting]
    by_cases hc : c = courseId
    · rw [hc, Function.update_self]
      exact h.ranked
    · rw [Function.update_of_ne hc]
      exact hrows.ranked c
  nodup c := by
    rw [h.queue]
    by_cases hc : c = courseId
    · rw [hc, Function.update_self]
      exact hnodup
    · rw [Function.update_of_ne hc]
      exact hrows.nodup c

/-- The entries of other courses are the same. -/
theorem Becomes.others (h : Becomes rows rows' courseId entries)
    (hother : entry.data.courseId ≠ courseId) : entry ∈ rows' ↔ entry ∈ rows := by
  have hmem (rows : Entries) :
      entry ∈ rows ↔ entry ∈ Waitlist.waiting rows entry.data.courseId := by
    rw [mem_waiting, and_iff_left rfl]
  rw [hmem rows', hmem rows, h.waiting, Function.update_of_ne hother]

end Becomes

/-- An entry that is added stands at the end of the queue of its course. -/
theorem waiting_joined (h : InOrder rows) (hnew : rows.get entry.id = none)
    (hposition : entry.data.position = (maxPos (rows.find
      (schema.holds .waitlistEntry (.course entry.data.courseId)))).getD 0 + 1) :
    Becomes rows (rows.save entry) entry.data.courseId
      (waiting rows entry.data.courseId ++ [entry]) := by
  have hrank : position entry = 1 + (waiting rows entry.data.courseId).length := by
    have hmax := (h.ranked entry.data.courseId).max perm_waiting
    have hlast : position entry = ((((rows.find (schema.holds .waitlistEntry
      (.course entry.data.courseId))).map position).max?).getD (1 - 1)) + 1 := hposition
    omega
  have hranked : RankedFrom position 1 (waiting rows entry.data.courseId ++ [entry]) :=
    rankedFrom_append.mpr ⟨h.ranked _, hrank, trivial⟩
  refine ⟨hranked, funext fun courseId => ?_⟩
  by_cases hcourse : courseId = entry.data.courseId
  · subst hcourse
    rw [Function.update_self]
    refine waiting_eq hranked ?_
    rw [Repository.find_save_new hnew, if_pos (holds_course.mpr rfl)]
    exact (perm_waiting.cons entry).trans (List.perm_append_singleton entry _).symm
  · rw [Function.update_of_ne hcourse]
    refine waiting_eq (h.ranked courseId) ?_
    rw [Repository.find_save_new hnew,
      if_neg fun hholds => hcourse (holds_course.mp hholds).symm]
    exact perm_waiting

/-- The entries after one of them is removed and those with a condition move up. -/
def close (rows : Entries) (entry : Entry) (condition : WaitlistWhere) : Entries :=
  (rows.remove entry.id).update
    (Schema.rewrite (S := schema) (t := .waitlistEntry) condition moveUp)
    (Schema.rewrite_id (S := schema) (t := .waitlistEntry) condition moveUp)

theorem query_close (g : Generated schema) (tables : schema.Tables) (entry : Entry)
    (condition : WaitlistWhere) :
    (Schema.query g (Schema.query g tables (.remove (S := schema) .waitlistEntry entry)).2
      (.update (S := schema) .waitlistEntry condition moveUp)).2 .waitlistEntry =
      close (tables .waitlistEntry) entry condition := by
  simp only [Schema.query, Function.update_self, close]

/-- An entry that moves up if it satisfies the condition. -/
abbrev shifted (condition : WaitlistWhere) : Entry → Entry :=
  Schema.rewrite (S := schema) (t := .waitlistEntry) condition moveUp

section Shifted

variable {condition : WaitlistWhere}

theorem shifted_data (condition : WaitlistWhere) (entry : Entry) :
    (shifted condition entry).data.courseId = entry.data.courseId ∧
      (shifted condition entry).data.userId = entry.data.userId := by
  unfold shifted Schema.rewrite
  split <;> exact ⟨rfl, rfl⟩

theorem shifted_of_holds (h : schema.holds .waitlistEntry condition entry = true) :
    position (shifted condition entry) = position entry - 1 := by
  unfold shifted Schema.rewrite
  rw [if_pos h]
  rfl

theorem shifted_of_not (h : ¬ schema.holds .waitlistEntry condition entry = true) :
    shifted condition entry = entry := by
  unfold shifted Schema.rewrite
  rw [if_neg h]

end Shifted

/-- An entry is taken out of the queue of its course, those behind it move up, and the other
queues stay as they are. -/
theorem waiting_close (h : InOrder rows) (condition : WaitlistWhere) {as bs : List Entry}
    (hwaiting : waiting rows courseId = as ++ entry :: bs)
    (hcourse : ∀ other, schema.holds .waitlistEntry condition other = true →
      other.data.courseId = courseId)
    (hahead : ∀ a ∈ as, position a < position entry →
      ¬ schema.holds .waitlistEntry condition a = true)
    (hbehind : ∀ b ∈ bs, position entry < position b →
      schema.holds .waitlistEntry condition b = true) :
    Becomes rows (close rows entry condition) courseId ((as ++ bs).map (shifted condition)) := by
  have hranked : RankedFrom position 1 ((as ++ bs).map (shifted condition)) := by
    have hbefore := h.ranked courseId
    rw [hwaiting] at hbefore
    refine hbefore.close (fun a ha hlt => ?_) fun b hb hlt => ?_
    · rw [shifted_of_not (hahead a ha hlt)]
    · exact shifted_of_holds (hbehind b hb hlt)
  obtain ⟨hstored, hentry⟩ : entry ∈ rows ∧ entry.data.courseId = courseId :=
    mem_waiting.mp (hwaiting ▸ List.mem_append_right as List.mem_cons_self)
  have hfind (c : String) :
      ((close rows entry condition).find (schema.holds .waitlistEntry (.course c))).Perm
        (((waiting rows c).filter fun row => row.id ≠ entry.id).map (shifted condition)) := by
    unfold close
    rw [Repository.find_update fun row => by
      rw [Bool.eq_iff_iff, holds_course, holds_course, (shifted_data condition row).1]]
    exact (Repository.find_remove.trans (perm_waiting.filter _)).map _
  refine ⟨hranked, funext fun c => ?_⟩
  by_cases hc : c = courseId
  · subst hc
    have hrest : (waiting rows c).filter (fun row => row.id ≠ entry.id) = as ++ bs := by
      have hnodup : (waiting rows c).Pairwise fun a b => a.id ≠ b.id :=
        List.pairwise_map.mp nodup_ids
      rw [hwaiting, List.pairwise_append, List.pairwise_cons] at hnodup
      obtain ⟨-, ⟨hbs, -⟩, has⟩ := hnodup
      rw [hwaiting, List.filter_append, List.filter_cons_of_neg (by simp),
        List.filter_eq_self.mpr fun a ha => decide_eq_true (has a ha entry List.mem_cons_self),
        List.filter_eq_self.mpr fun b hb => decide_eq_true (hbs b hb).symm]
    rw [Function.update_self]
    exact waiting_eq hranked (hrest ▸ hfind c)
  · have hsame : ((waiting rows c).filter fun row => row.id ≠ entry.id).map (shifted condition) =
        waiting rows c := by
      have hother {row : Entry} (hrow : row ∈ waiting rows c) : row.data.courseId ≠ courseId :=
        fun heq => hc ((mem_waiting.mp hrow).2.symm.trans heq)
      have hid {row : Entry} (hrow : row ∈ waiting rows c) : row.id ≠ entry.id := by
        intro hid
        have hget := (mem_waiting.mp hrow).1
        rw [Repository.mem_def, hid] at hget
        rw [Option.some.inj (hget.symm.trans hstored)] at hrow
        exact hother hrow hentry
      rw [List.filter_eq_self.mpr fun row hrow => decide_eq_true (hid hrow)]
      refine (List.map_congr_left fun row hrow => ?_).trans (List.map_id _)
      exact shifted_of_not fun hholds => hother hrow (hcourse row hholds)
    rw [Function.update_of_ne hc]
    exact waiting_eq (h.ranked c) (hsame ▸ hfind c)

/-! ## What the methods make of the entries -/

section Methods

variable {around : Surroundings} {s : State}

theorem isFull_reads : (isFull courseId).Only Request.Reads := by
  refine Process.only_bind (only_request rfl) fun course => ?_
  split
  · trivial
  · exact Process.only_bind (Process.only_bind (only_request rfl) fun _ => trivial) fun _ => trivial

/-- What `join` comes to: it throws and leaves everything as it is, or it has added an entry behind
the others of the course. -/
inductive Joining (s : State) (userId courseId : String) : Except HttpException Entry × State → Prop
  | refused {x : HttpException} : Joining s userId courseId (.error x, s)
  | added {entry : Entry} {result : Except HttpException Entry} {s' : State}
    (hdata : entry.data = ⟨userId, courseId, (maxPos ((s.tables .waitlistEntry).find
      (schema.holds .waitlistEntry (.course courseId)))).getD 0 + 1⟩)
    (hnew : (s.tables .waitlistEntry).get entry.id = none)
    (hfree : (s.tables .waitlistEntry).findOne
      (schema.holds .waitlistEntry (.pair userId courseId)) = none)
    (hrows : s'.tables .waitlistEntry = (s.tables .waitlistEntry).save entry) :
    Joining s userId courseId (result, s')

theorem join_spec (around : Surroundings) (s : State) (userId courseId : String) :
    Joining s userId courseId ((join userId courseId).run handle around s) := by
  refine bind_reads (only_request rfl) (fun _ => .refused) fun course _ => ?_
  cases course with
  | none => exact .refused
  | some course =>
    dsimp only
    split
    · exact .refused
    refine bind_reads (only_request rfl) (fun _ => .refused) fun enrolled _ => ?_
    split
    · exact .refused
    refine bind_reads (only_request rfl) (fun _ => .refused) fun existing hexisting => ?_
    split
    · exact .refused
    next hnone =>
    refine bind_reads isFull_reads (fun _ => .refused) fun full _ => ?_
    split
    · exact .refused
    refine bind_reads (only_request rfl) (fun _ => .refused) fun entries hentries => ?_
    obtain ⟨-, rfl, -⟩ := find_ok.mp hentries
    obtain ⟨-, hfree, -⟩ := findOne_ok.mp hexisting
    rw [Option.not_isSome_iff_eq_none.mp hnone] at hfree
    refine bind_insert (fun _ => .refused) fun entry hentry hnew _ => ?_
    have hadded {s' : State} {result : Except HttpException Entry}
        (h : s'.tables = (s.put .waitlistEntry ((s.tables .waitlistEntry).save entry)).tables) :
        Joining s userId courseId (result, s') := by
      refine .added (by rw [hentry]; rfl) hnew hfree ?_
      rw [h, State.put_tables_self]
    exact bind_request (fun _ _ => hadded rfl) fun _ => hadded rfl

/-- What `leave` comes to. -/
inductive Leaving (s : State) (userId courseId : String) : Except HttpException Unit × State → Prop
  | refused {x : HttpException} : Leaving s userId courseId (.error x, s)
  | left {entry : Entry} {s' : State}
    (hfound : (s.tables .waitlistEntry).findOne
      (schema.holds .waitlistEntry (.pair userId courseId)) = some entry)
    (hrows : s'.tables .waitlistEntry =
      close (s.tables .waitlistEntry) entry (.after courseId entry.data.position)) :
    Leaving s userId courseId (.ok (), s')

theorem leave_spec (s : State) (userId courseId : String)
    (hcompacts : ∀ courseId pos,
      around.fails (.query (.update .waitlistEntry (.after courseId pos) moveUp)) = none) :
    Leaving s userId courseId ((leave userId courseId).run handle around s) := by
  refine bind_reads (only_request rfl) (fun _ => .refused) fun entry hentry => ?_
  obtain ⟨-, hfound, -⟩ := findOne_ok.mp hentry
  cases entry with
  | none => exact .refused
  | some entry =>
    refine bind_request (fun _ _ => .refused) fun _ => ?_
    have hexception : around.exception
        (.query (.update .waitlistEntry (.after courseId entry.data.position) moveUp)) = none :=
      hcompacts courseId entry.data.position
    dsimp only [update]
    rw [run_request, hexception]
    exact .left hfound (query_close around.toGenerated s.tables entry _)

/-- What `promoteNext` comes to. -/
inductive Promoting (s : State) (courseId : String) : Except HttpException Unit × State → Prop
  | idle {result : Except HttpException Unit} {s' : State}
    (hrows : s'.tables .waitlistEntry = s.tables .waitlistEntry) :
    Promoting s courseId (result, s')
  | promoted {next : Entry} {s' : State}
    (hfound : (s.tables .waitlistEntry).findOne
      (schema.holds .waitlistEntry (.atPosition courseId 1)) = some next)
    (hrows : s'.tables .waitlistEntry = close (s.tables .waitlistEntry) next (.course courseId)) :
    Promoting s courseId (.ok (), s')

theorem promotion_spec {g : Generated schema} {next : Entry} {tables : schema.Tables}
    (h : (promotion next courseId).runAlone g s.tables = (.ok (), tables)) :
    tables .waitlistEntry = close (s.tables .waitlistEntry) next (.course courseId) := by
  have hadvance {tables₀ : schema.Tables}
      (hsame : tables₀ .waitlistEntry = s.tables .waitlistEntry)
      (h : (advance next courseId).runAlone g tables₀ = (.ok (), tables)) :
      tables .waitlistEntry = close (s.tables .waitlistEntry) next (.course courseId) := by
    rw [← hsame, ← query_close g tables₀ next (.course courseId)]
    exact congrArg (fun answer => answer.2 .waitlistEntry) h.symm
  by_cases henrolled : Enrollments.Enrolled s next.data.userId courseId
  · rw [run_promotion_enrolled henrolled] at h
    exact hadvance rfl h
  · rw [run_promotion_new henrolled] at h
    split at h
    · exact hadvance (Function.update_of_ne (by decide) _ _) h
    · cases h

theorem promoteNext_spec (around : Surroundings) (s : State) (courseId : String) :
    Promoting s courseId ((promoteNext courseId).run handle around s) := by
  refine bind_reads (only_request rfl) (fun _ => .idle rfl) fun course _ => ?_
  split
  · refine bind_reads (Process.only_bind (only_request rfl) fun _ => trivial) (fun _ => .idle rfl)
      fun currentCount _ => ?_
    split
    · exact .idle rfl
    refine bind_request (fun _ _ => .idle rfl) fun _ => ?_
    dsimp only [respond]
    cases hfound : (s.tables .waitlistEntry).findOne
      (schema.holds .waitlistEntry (.atPosition courseId 1)) with
    | none => exact .idle rfl
    | some next =>
      refine bind_request (fun _ _ => .idle rfl) fun _ => ?_
      dsimp only [respond]
      rcases hrun : (promotion next courseId).runAlone around.toGenerated s.tables with
        ⟨x | _, tables⟩
      · exact .idle rfl
      · exact .promoted hfound (promotion_spec hrun)
  · exact .idle rfl

end Methods

/-! ## Runs -/

/-- What is said of a call: the entries that it finds, those that it leaves and whether it
returns. -/
structure Served (rows rows' : Entries) (call : Call) (ok : Bool) : Prop where
  inOrder : InOrder rows'
  serves : Serves rows rows' call ok
  others : ∀ entry : Entry, entry.data.courseId ≠ call.courseId → (entry ∈ rows' ↔ entry ∈ rows)

section Served

variable {s s' : State} {rows' : Entries}

theorem served_same (h : InOrder rows) {call : Call} {ok : Bool}
    (hserves : Serves rows rows call ok) : Served rows rows call ok :=
  ⟨h, hserves, fun _ _ => Iff.rfl⟩

theorem mem_queue : userId ∈ queue rows courseId ↔
    ∃ entry ∈ rows, entry.data.userId = userId ∧ entry.data.courseId = courseId := by
  unfold queue
  rw [List.mem_map]
  constructor
  · rintro ⟨entry, hentry, huser⟩
    obtain ⟨hrow, hcourse⟩ := mem_waiting.mp hentry
    exact ⟨entry, hrow, huser, hcourse⟩
  · rintro ⟨entry, hrow, huser, hcourse⟩
    exact ⟨entry, mem_waiting.mpr ⟨hrow, hcourse⟩, huser⟩

theorem holds_pair : schema.holds .waitlistEntry (.pair userId courseId) entry = true ↔
    entry.data.userId = userId ∧ entry.data.courseId = courseId := by
  change (decide _ && decide _) = true ↔ _
  rw [Bool.and_eq_true, decide_eq_true_iff, decide_eq_true_iff]

theorem served_join (h : InOrder (s.tables .waitlistEntry))
    {result : Except HttpException Entry} (hspec : Joining s userId courseId (result, s')) :
    Served (s.tables .waitlistEntry) (s'.tables .waitlistEntry) (.join userId courseId)
      result.isOk := by
  cases hspec with
  | refused => exact served_same h (.refused rfl)
  | @added entry _ _ hdata hnew hfree hrows =>
    have huser : entry.data.userId = userId := by rw [hdata]
    have hcourse : entry.data.courseId = courseId := by rw [hdata]
    have hnone : userId ∉ queue (s.tables .waitlistEntry) courseId := by
      rw [mem_queue]
      rintro ⟨other, hother, hpair⟩
      have hfalse := Repository.findOne_eq_none.mp hfree other hother
      rw [holds_pair.mpr hpair] at hfalse
      cases hfalse
    have hbecomes := waiting_joined h hnew (by rw [hdata])
    rw [hcourse, ← hrows] at hbecomes
    have hqueue := hbecomes.queue
    rw [List.map_append, List.map_singleton, huser] at hqueue
    refine ⟨hbecomes.inOrder h ?_, .joined hnone hqueue, fun other => hbecomes.others⟩
    rw [List.map_append, List.map_singleton, huser]
    exact (List.nodup_append_comm.mp (List.nodup_cons.mpr ⟨hnone, h.nodup courseId⟩))

theorem map_shifted (condition : WaitlistWhere) (entries : List Entry) :
    (entries.map (shifted condition)).map (fun entry => entry.data.userId) =
      entries.map fun entry => entry.data.userId := by
  rw [List.map_map]
  exact List.map_congr_left fun entry _ => (shifted_data condition entry).2

/-- What is said of the queues when an entry is taken out. -/
structure Closed (rows rows' : Entries) (courseId userId : String) (ahead behind : List String) :
    Prop where
  before : queue rows courseId = ahead ++ userId :: behind
  after : queue rows' = Function.update (queue rows) courseId (ahead ++ behind)
  inOrder : InOrder rows'
  others : ∀ entry : Entry, entry.data.courseId ≠ courseId → (entry ∈ rows' ↔ entry ∈ rows)

theorem closed (h : InOrder rows) {condition : WaitlistWhere} {as bs : List Entry}
    (hwaiting : waiting rows courseId = as ++ entry :: bs)
    (hbecomes : Becomes rows rows' courseId ((as ++ bs).map (shifted condition))) :
    Closed rows rows' courseId entry.data.userId (as.map fun entry => entry.data.userId)
      (bs.map fun entry => entry.data.userId) := by
  have hbefore : queue rows courseId = as.map (fun entry => entry.data.userId) ++
      entry.data.userId :: bs.map fun entry => entry.data.userId := by
    unfold queue
    rw [hwaiting, List.map_append, List.map_cons]
  have hnodup := h.nodup courseId
  rw [hbefore] at hnodup
  have hqueue := hbecomes.queue
  rw [map_shifted, List.map_append] at hqueue
  refine ⟨hbefore, hqueue, hbecomes.inOrder h ?_, fun other => hbecomes.others⟩
  rw [map_shifted, List.map_append]
  exact hnodup.sublist ((List.sublist_cons_self _ _).append_left _)

theorem holds_after {pos : Int} :
    schema.holds .waitlistEntry (.after courseId pos) entry = true ↔
      entry.data.courseId = courseId ∧ pos < entry.data.position := by
  change (decide _ && decide _) = true ↔ _
  rw [Bool.and_eq_true, decide_eq_true_iff, decide_eq_true_iff]

/-- `leave`, and what is the same under another name. -/
theorem served_leave (h : InOrder (s.tables .waitlistEntry)) {result : Except HttpException Unit}
    (hspec : Leaving s userId courseId (result, s')) {call : Call}
    (hcall : call.courseId = courseId)
    (hleft : ∀ rows rows', userId ∈ queue rows courseId →
      queue rows' = Function.update (queue rows) courseId ((queue rows courseId).erase userId) →
        Serves rows rows' call true) :
    Served (s.tables .waitlistEntry) (s'.tables .waitlistEntry) call result.isOk := by
  cases hspec with
  | refused => exact served_same h (.refused rfl)
  | @left entry _ hfound hrows =>
    obtain ⟨hholds, hentry⟩ := Repository.findOne_some hfound
    obtain ⟨rfl, hcourse⟩ := holds_pair.mp hholds
    have hmem := mem_waiting.mpr ⟨hentry, hcourse⟩
    obtain ⟨as, bs, hwaiting⟩ := List.append_of_mem hmem
    have hbehind {b : Entry} (hb : b ∈ bs) : b.data.courseId = courseId :=
      (mem_waiting.mp (hwaiting ▸ List.mem_append_right as (List.mem_cons_of_mem entry hb))).2
    have hbecomes := waiting_close h (.after courseId entry.data.position) hwaiting
      (fun other hother => (holds_after.mp hother).1)
      (fun a _ hlt hholds => Int.lt_asymm hlt (holds_after.mp hholds).2)
      (fun b hb hlt => holds_after.mpr ⟨hbehind hb, hlt⟩)
    rw [← hrows] at hbecomes
    have hclosed := closed h hwaiting hbecomes
    have hnodup := h.nodup courseId
    rw [hclosed.before, List.nodup_append] at hnodup
    have hahead : entry.data.userId ∉ as.map fun entry => entry.data.userId :=
      fun hmem => hnodup.2.2 _ hmem _ List.mem_cons_self rfl
    refine ⟨hclosed.inOrder, hleft _ _ (mem_queue.mpr ⟨entry, hentry, rfl, hcourse⟩) ?_, ?_⟩
    · rw [hclosed.after, hclosed.before, List.erase_append_right _ hahead, List.erase_cons_head]
    · rw [hcall]
      exact hclosed.others

theorem holds_atPosition {pos : Int} :
    schema.holds .waitlistEntry (.atPosition courseId pos) entry = true ↔
      entry.data.courseId = courseId ∧ entry.data.position = pos := by
  change (decide _ && decide _) = true ↔ _
  rw [Bool.and_eq_true, decide_eq_true_iff, decide_eq_true_iff]

theorem served_promoteNext (h : InOrder (s.tables .waitlistEntry))
    {result : Except HttpException Unit} (hspec : Promoting s courseId (result, s')) :
    Served (s.tables .waitlistEntry) (s'.tables .waitlistEntry) (.promoteNext courseId)
      result.isOk := by
  cases hspec with
  | idle hrows =>
    rw [hrows]
    refine served_same h ?_
    cases result with
    | error x => exact .refused rfl
    | ok => exact .idle rfl
  | @promoted next _ hfound hrows =>
    obtain ⟨hholds, hnext⟩ := Repository.findOne_some hfound
    obtain ⟨hcourse, hposition⟩ := holds_atPosition.mp hholds
    obtain ⟨as, bs, hwaiting⟩ := List.append_of_mem (mem_waiting.mpr ⟨hnext, hcourse⟩)
    -- The entry at position 1 is the first.
    obtain rfl : as = [] := by
      have hranked := h.ranked courseId
      rw [hwaiting] at hranked
      have hrank : next.data.position = 1 + as.length := (rankedFrom_append.mp hranked).2.1
      exact List.length_eq_zero_iff.mp (by omega)
    have hbehind {b : Entry} (hb : b ∈ bs) : b.data.courseId = courseId :=
      (mem_waiting.mp (hwaiting ▸ List.mem_append_right [] (List.mem_cons_of_mem next hb))).2
    have hbecomes := waiting_close h (.course courseId) hwaiting
      (fun other hother => holds_course.mp hother) (fun a ha => absurd ha List.not_mem_nil)
      (fun b hb _ => holds_course.mpr (hbehind hb))
    rw [← hrows] at hbecomes
    have hclosed := closed h hwaiting hbecomes
    exact ⟨hclosed.inOrder, .promoted hclosed.before hclosed.after, hclosed.others⟩

end Served

/-- One call, with anything in the other tables. -/
theorem served_run (h : InOrder rows) (i : Step) (hcompacts : i.Compacts) :
    Served rows ((i.run rows).2.tables .waitlistEntry) i.call (i.run rows).1.isOk := by
  obtain ⟨around, rest, call⟩ := i
  unfold Step.run
  dsimp only
  obtain ⟨s, hs⟩ : ∃ s, s = rest.put .waitlistEntry rows := ⟨_, rfl⟩
  have hrows : s.tables .waitlistEntry = rows := by rw [hs, State.put_tables_self]
  rw [← hs]
  subst hrows
  cases call with
  | join userId courseId =>
    have hrun : (Call.join userId courseId).method.run handle around s =
        (((join userId courseId).run handle around s).1.map fun _ => (),
          ((join userId courseId).run handle around s).2) := Process.run_map _ _
    have hspec := join_spec around s userId courseId
    rw [hrun]
    generalize (join userId courseId).run handle around s = result at hspec
    obtain ⟨x | entry, s'⟩ := result
    · exact served_join h hspec
    · exact served_join h hspec
  | leave userId courseId =>
    exact served_leave h (leave_spec s userId courseId hcompacts) rfl fun _ _ => .left
  | adminRemove courseId userId =>
    exact served_leave h (leave_spec s userId courseId hcompacts) rfl fun _ _ => .removed
  | promoteNext courseId => exact served_promoteNext h (promoteNext_spec around s courseId)

variable {past : List Step} {i : Step}

theorem inOrder_empty : InOrder Repository.empty := by
  have hnil (courseId : String) : waiting Repository.empty courseId = [] := rfl
  refine ⟨fun courseId => ?_, fun courseId => ?_⟩
  · rw [hnil]
    trivial
  · exact List.nodup_nil

theorem served_reached (h : InOrder (reached past)) (hcompacts : i.Compacts) :
    Served (reached past) (reached (i :: past)) i.call (i.run (reached past)).1.isOk :=
  served_run h i hcompacts

theorem inOrder_reached (h : ∀ i ∈ past, i.Compacts) : InOrder (reached past) := by
  induction past with
  | nil => exact inOrder_empty
  | cons i past ih =>
    have hpast := ih fun j hj => h j (List.mem_cons_of_mem i hj)
    exact (served_reached hpast (h i List.mem_cons_self)).inOrder

/-- How many calls had come when a user last joined the queue of a course, with the one that
joined. -/
def joinedAt (userId courseId : String) : List Step → Nat
  | [] => 0
  | i :: past =>
    if userId ∈ queue (reached (i :: past)) courseId ∧ userId ∉ queue (reached past) courseId then
      past.length + 1
    else joinedAt userId courseId past

theorem joinedAt_le : joinedAt userId courseId past ≤ past.length := by
  induction past with
  | nil => exact Nat.le_refl 0
  | cons i past ih =>
    rw [joinedAt, List.length_cons]
    split
    · exact Nat.le_refl _
    · exact Nat.le_succ_of_le ih

/-- Users who waited before have joined when they had. -/
theorem joinedAt_kept (h : userId ∈ queue (reached past) courseId) :
    joinedAt userId courseId (i :: past) = joinedAt userId courseId past := by
  rw [joinedAt, if_neg fun hjoined => hjoined.2 h]

/-- The users of a course wait in the order in which they joined. -/
def JoinOrder (past : List Step) (courseId : String) : Prop :=
  (queue (reached past) courseId).Pairwise fun a b =>
    joinedAt a courseId past < joinedAt b courseId past

theorem joinOrder_sublist (h : JoinOrder past courseId)
    (hsublist : (queue (reached (i :: past)) courseId).Sublist (queue (reached past) courseId)) :
    JoinOrder (i :: past) courseId := by
  refine (h.sublist hsublist).imp_of_mem fun ha hb hlt => ?_
  rw [joinedAt_kept (hsublist.subset ha), joinedAt_kept (hsublist.subset hb)]
  exact hlt

theorem joinOrder_joined (h : JoinOrder past courseId)
    (hnew : userId ∉ queue (reached past) courseId)
    (hqueue : queue (reached (i :: past)) courseId = queue (reached past) courseId ++ [userId]) :
    JoinOrder (i :: past) courseId := by
  unfold JoinOrder
  rw [hqueue, List.pairwise_append]
  refine ⟨h.imp_of_mem fun ha hb hlt => ?_, List.pairwise_singleton _ _, fun a ha b hb => ?_⟩
  · rw [joinedAt_kept ha, joinedAt_kept hb]
    exact hlt
  · obtain rfl := List.mem_singleton.mp hb
    have hjoins : b ∈ queue (reached (i :: past)) courseId := by
      rw [hqueue]
      exact List.mem_append_right _ List.mem_cons_self
    have hjoined : joinedAt b courseId (i :: past) = past.length + 1 := by
      rw [joinedAt, if_pos ⟨hjoins, hnew⟩]
    rw [hjoined, joinedAt_kept ha]
    exact Nat.lt_succ_of_le joinedAt_le

theorem joinOrder_cons (h : ∀ courseId, JoinOrder past courseId) {call : Call} {ok : Bool}
    (hserves : Serves (reached past) (reached (i :: past)) call ok) (courseId : String) :
    JoinOrder (i :: past) courseId := by
  have hother {changed : String} {users : List String}
      (hqueue : queue (reached (i :: past)) =
        Function.update (queue (reached past)) changed users)
      (hchanged : courseId = changed → JoinOrder (i :: past) courseId) :
      JoinOrder (i :: past) courseId := by
    by_cases hcourse : courseId = changed
    · exact hchanged hcourse
    · refine joinOrder_sublist (h courseId) ?_
      rw [hqueue, Function.update_of_ne hcourse]
  have hsame (hrows : reached (i :: past) = reached past) : JoinOrder (i :: past) courseId := by
    refine joinOrder_sublist (h courseId) ?_
    rw [hrows]
  have hless {changed : String} {users : List String}
      (hqueue : queue (reached (i :: past)) =
        Function.update (queue (reached past)) changed users)
      (hsublist : users.Sublist (queue (reached past) changed)) :
      JoinOrder (i :: past) courseId := by
    refine hother hqueue fun hcourse => joinOrder_sublist (h courseId) ?_
    rw [hqueue, hcourse, Function.update_self]
    exact hsublist
  cases hserves with
  | refused hrows => exact hsame hrows
  | joined hnew hqueue =>
    refine hother hqueue fun hcourse => ?_
    subst hcourse
    refine joinOrder_joined (h courseId) hnew ?_
    rw [hqueue, Function.update_self]
  | left _ hqueue => exact hless hqueue List.erase_sublist
  | removed _ hqueue => exact hless hqueue List.erase_sublist
  | promoted hfirst hqueue =>
    refine hless hqueue ?_
    rw [hfirst]
    exact List.sublist_cons_self _ _
  | idle hrows => exact hsame hrows

theorem joinOrder_reached (h : ∀ i ∈ past, i.Compacts) (courseId : String) :
    JoinOrder past courseId := by
  induction past generalizing courseId with
  | nil => exact List.Pairwise.nil
  | cons i past ih =>
    have hpast : ∀ j ∈ past, j.Compacts := fun j hj => h j (List.mem_cons_of_mem i hj)
    exact joinOrder_cons (ih hpast)
      (served_reached (inOrder_reached hpast) (h i List.mem_cons_self)).serves courseId

/-- After every run the entries of each course stand at the positions 1, 2, ..., n, in the order in
which their users joined, and no user has two of them. Every call adds an entry at the end of the
queue of its course, takes out the one of its user or the first one, or changes nothing, and
leaves the entries of the other courses. -/
theorem waitlist_fifo (past : List Step) (hcompacts : ∀ i ∈ past, i.Compacts) :
    (∀ courseId,
      (waiting (reached past) courseId).map position =
          (List.range (waiting (reached past) courseId).length).map (fun n : Nat => 1 + (n : Int)) ∧
        (queue (reached past) courseId).Nodup ∧ JoinOrder past courseId) ∧
      ∀ i earlier, i :: earlier <:+ past →
        Serves (reached earlier) (reached (i :: earlier)) i.call
            (i.run (reached earlier)).1.isOk ∧
          ∀ entry : Entry, entry.data.courseId ≠ i.call.courseId →
            (entry ∈ reached (i :: earlier) ↔ entry ∈ reached earlier) := by
  have hinOrder := inOrder_reached hcompacts
  refine ⟨fun courseId => ?_, fun i earlier hsuffix => ?_⟩
  · exact ⟨rankedFrom_iff.mp (hinOrder.ranked courseId), hinOrder.nodup courseId,
      joinOrder_reached hcompacts courseId⟩
  · have hearlier : ∀ j ∈ earlier, j.Compacts := fun j hj =>
      hcompacts j (hsuffix.subset (List.mem_cons_of_mem i hj))
    have hserved := served_reached (inOrder_reached hearlier)
      (hcompacts i (hsuffix.subset List.mem_cons_self))
    exact ⟨hserved.serves, hserved.others⟩

/-- A call about a course for one student, which has so many students. -/
def exampleStep (students : Nat) (call : Call) : Step where
  around :=
    { now := 0
      key
        | .waitlistEntry, entry => entry.userId
        | _, _ => ""
      hash := fun _ => ""
      fails := fun _ => none }
  rest :=
    (State.empty.put .course
      (Repository.empty.save ⟨"c", 0, 0, "", .published, true, false, false, none, some 1⟩)).put
      .enrollment (if students = 0 then .empty
        else Repository.empty.save ⟨"e", 0, 0, "s", "c", none, none, none⟩)
  call := call

/-- Four users join, the second leaves, and the first is promoted. Newest first. -/
def exampleRun : List Step :=
  [ exampleStep 0 (.promoteNext "c"), exampleStep 1 (.leave "b" "c"),
    exampleStep 1 (.join "d" "c"), exampleStep 1 (.join "e" "c"), exampleStep 1 (.join "b" "c"),
    exampleStep 1 (.join "a" "c") ]

theorem waitlist_fifo_example :
    queue (reached exampleRun) "c" = ["e", "d"] ∧
      (queue (reached exampleRun) "c").Nodup ∧ JoinOrder exampleRun "c" := by
  have hcompacts : ∀ i ∈ exampleRun, i.Compacts := by
    intro i hi courseId pos
    simp only [exampleRun, List.mem_cons, List.not_mem_nil, or_false] at hi
    rcases hi with rfl | rfl | rfl | rfl | rfl | rfl <;> rfl
  have hfifo := (waitlist_fifo exampleRun hcompacts).1 "c"
  exact ⟨by decide +kernel, hfifo.2⟩

end Scoopdope.Waitlist

import Scoopdope.AccessControl.Service
import Scoopdope.Async.Pool

/-!
# Access control: the two decisions

`checkAccess` and `verifyContentAccess` look up the same record and agree about revocation and
expiry, but only `checkAccess` reads the list of addresses.

`decisions_agree_iff`: in every state reached, the two agree on a request exactly when the record
found, if it grants at all, also admits the address; and a run whose grants have no addresses
reaches only states in which they agree on every request.
-/

namespace Scoopdope.AccessControl

open Async Database Server Soroban

inductive Call
  | grantAccess (courseId userId : String) (role : AccessRole)
      (subscriptionExpiryDate : Option Date) (allowedIpAddresses : Option (List String))
  | grantTimeLimitedAccess (courseId userId : String) (role : AccessRole) (expiresInHours : Rat)
  | updateSubscription (courseId userId : String) (expiryDate : Date)
  | revokeAccess (courseId userId : String)

/-- What is run, without what it returns. -/
def Call.method : Call → Method Unit
  | .grantAccess courseId userId role subscriptionExpiryDate allowedIpAddresses => do
    let _ ← AccessControl.grantAccess courseId userId role subscriptionExpiryDate
      allowedIpAddresses
  | .grantTimeLimitedAccess courseId userId role expiresInHours => do
    let _ ← AccessControl.grantTimeLimitedAccess courseId userId role expiresInHours
  | .updateSubscription courseId userId expiryDate =>
    AccessControl.updateSubscription courseId userId expiryDate
  | .revokeAccess courseId userId => AccessControl.revokeAccess courseId userId

def system : System accessInterface Env HttpException Unit State Call where
  start := Call.method
  handle := handle

/-- The state after a run that starts without records. -/
abbrev reached (past : List (Env × Call)) : State := after system.serve State.empty past

def isAllowed : Except HttpException Decision → Bool
  | .ok decision => decision.allowed
  | .error _ => false

/-- `checkAccess` answers that access is allowed. -/
def checks (env : Env) (s : State) (courseId userId : String) (ipAddress : Option String) : Bool :=
  isAllowed ((checkAccess courseId userId ipAddress).run handle env s).1

/-- `verifyContentAccess` returns. -/
def verifies (env : Env) (s : State) (courseId userId contentId : String)
    (ipAddress : Option String) : Bool :=
  ((verifyContentAccess courseId userId contentId ipAddress).run handle env s).1.isOk

/-- The record is neither revoked nor expired. -/
def Granted (now : Int) (access : CourseAccessControl) : Prop :=
  access.isActive = true ∧ isExpired access now = false

/-- The record has no list of addresses, or the address is in it. -/
def Admits (access : CourseAccessControl) (ipAddress : Option String) : Prop :=
  access.allowed = [] ∨ ∃ address ∈ access.allowed, some address = ipAddress

/-- The grant has a list of addresses. -/
def Call.Restricts : Call → Prop
  | .grantAccess _ _ _ _ (some addresses) => addresses ≠ [] ∧ addresses ≠ [""]
  | _ => False

/-! ## What each of them decides -/

variable {env : Env} {s : State} {courseId userId contentId : String} {ipAddress : Option String}

theorem run_query {A : Type} (o : Op) (next : o.answer → Method A) :
    (query o >>= next).run handle env s =
      (next (handle env s o).1).run handle env (handle env s o).2 := rfl

theorem run_findOne {A : Type} (next : Option (Stored CourseAccessControl) → Method A) :
    (query (.findOne courseId userId) >>= next).run handle env s =
      (next (s.access.findOne (isFor courseId userId))).run handle env s := rfl

theorem checks_iff :
    checks env s courseId userId ipAddress = true ↔
      ∃ row, s.access.findOne (isFor courseId userId) = some row ∧ Granted env.now row.data ∧
        Admits row.data ipAddress := by
  unfold checks checkAccess
  rw [run_findOne]
  rcases s.access.findOne (isFor courseId userId) with - | row
  · exact ⟨nofun, nofun⟩
  simp only [Option.some.injEq, exists_eq_left']
  rcases hactive : row.data.isActive with - | -
  · refine iff_of_false nofun fun h => ?_
    rw [h.1.1] at hactive
    cases hactive
  simp only [Bool.not_true, Bool.false_eq_true, if_false, Process.env_bind, Process.run_ask]
  split
  · next hexpired =>
    refine iff_of_false nofun fun h => ?_
    rw [h.1.2] at hexpired
    cases hexpired
  · next hvalid =>
    rw [Bool.not_eq_true] at hvalid
    split
    · next hlist =>
      refine iff_of_false nofun ?_
      rintro ⟨-, hempty | ⟨address, hmem, hip⟩⟩
      · exact hlist.1 hempty
      · exact hlist.2 address hmem hip
    · next hlist =>
      refine iff_of_true rfl ⟨⟨hactive, hvalid⟩, ?_⟩
      by_contra hnot
      refine hlist ⟨fun hempty => hnot (.inl hempty), fun address hmem hip => ?_⟩
      exact hnot (.inr ⟨address, hmem, hip⟩)

theorem verifies_iff :
    verifies env s courseId userId contentId ipAddress = true ↔
      ∃ row, s.access.findOne (isFor courseId userId) = some row ∧ Granted env.now row.data := by
  unfold verifies verifyContentAccess
  rw [run_findOne]
  rcases s.access.findOne (isFor courseId userId) with - | row
  · exact ⟨nofun, nofun⟩
  simp only [Option.some.injEq, exists_eq_left']
  rcases hactive : row.data.isActive with - | -
  · refine iff_of_false nofun fun h => ?_
    rw [h.1] at hactive
    cases hactive
  simp only [Bool.not_true, Bool.false_eq_true, if_false, Process.env_bind, Process.run_ask]
  split
  · next hexpired =>
    refine iff_of_false nofun fun h => ?_
    rw [h.2] at hexpired
    cases hexpired
  · next hvalid =>
    rw [Bool.not_eq_true] at hvalid
    exact iff_of_true rfl ⟨hactive, hvalid⟩

theorem agree_iff :
    (verifies env s courseId userId contentId ipAddress = true ↔
        checks env s courseId userId ipAddress = true) ↔
      ∀ row, s.access.findOne (isFor courseId userId) = some row → Granted env.now row.data →
        Admits row.data ipAddress := by
  rw [verifies_iff, checks_iff]
  constructor
  · intro h row hfound hgranted
    obtain ⟨row', hfound', -, hadmits⟩ := h.mp ⟨row, hfound, hgranted⟩
    cases hfound.symm.trans hfound'
    exact hadmits
  · intro h
    constructor
    · rintro ⟨row, hfound, hgranted⟩
      exact ⟨row, hfound, hgranted, h row hfound hgranted⟩
    · rintro ⟨row, hfound, hgranted, -⟩
      exact ⟨row, hfound, hgranted⟩

/-! ## The stored lists -/

/-- Only the empty list and the list of the empty string are read back as no addresses. -/
theorem stringToSimpleArray_eq_nil {addresses : List String} :
    stringToSimpleArray (simpleArrayToString addresses) = [] ↔
      addresses = [] ∨ addresses = [""] := by
  have hsplit (value : String) : stringToSimpleArray value = [] ↔ value = "" := by
    unfold stringToSimpleArray
    split
    · next hempty => exact iff_of_true rfl hempty
    · next hne => simp [hne, List.splitOn_ne_nil]
  rw [hsplit, simpleArrayToString]
  cases addresses with
  | nil => simp
  | cons address rest =>
    cases rest with
    | nil => simp
    | cons next rest => simp [String.intercalate_cons_cons]

/-- Every stored list has been given by a grant for the course and the user. -/
def Listed (past : List (Env × Call)) (s : State) : Prop :=
  ∀ row ∈ s.access, ∀ stored, row.data.allowedIpAddresses = some stored →
    ∃ i ∈ past, ∃ role expiry addresses, stored = simpleArrayToString addresses ∧
      i.2 = .grantAccess row.data.courseId row.data.userId role expiry (some addresses)

theorem mem_insert {data : CourseAccessControl} {row : Stored CourseAccessControl}
    (h : row ∈ (handle env s (.insert data)).2.access) : row ∈ s.access ∨ row.data = data := by
  simp only [handle] at h
  split at h
  · exact .inl h
  · rcases Repository.mem_save.mp h with rfl | ⟨hold, -⟩
    · exact .inr rfl
    · exact .inl hold

theorem mem_grantAccess {role : AccessRole} {expiry : Option Date}
    {addresses : Option (List String)} {row : Stored CourseAccessControl}
    (h : row ∈ ((grantAccess courseId userId role expiry addresses).run handle env s).2.access) :
    row ∈ s.access ∨ row.data.courseId = courseId ∧ row.data.userId = userId ∧
      row.data.allowedIpAddresses = addresses.map simpleArrayToString := by
  unfold grantAccess at h
  rcases htime : timestamp expiry with x | expiryDate <;> rw [htime] at h
  · exact .inl h
  · let data : CourseAccessControl :=
      ⟨courseId, userId, role, expiryDate, addresses.map simpleArrayToString, true⟩
    change row ∈ ((query (.insert data) >>= _).run handle env s).2.access at h
    rw [run_query] at h
    have hinserted : row ∈ (handle env s (.insert data)).2.access := by
      rcases hanswer : (handle env s (.insert data)).1 with - | access <;> rw [hanswer] at h
      · exact h
      · exact h
    rcases mem_insert hinserted with hold | hdata
    · exact .inl hold
    · simp [hdata, data]

theorem mem_rewrite {f : CourseAccessControl → CourseAccessControl}
    (hf : ∀ access, (f access).courseId = access.courseId ∧ (f access).userId = access.userId ∧
      (f access).allowedIpAddresses = access.allowedIpAddresses)
    {row : Stored CourseAccessControl}
    (h : row ∈ (handle env s (.update courseId userId f)).2.access) :
    ∃ old ∈ s.access, old.data.courseId = row.data.courseId ∧
      old.data.userId = row.data.userId ∧
      old.data.allowedIpAddresses = row.data.allowedIpAddresses := by
  have hrow : row ∈ s.access.update (rewrite courseId userId f) (rewrite_id courseId userId f) := h
  obtain ⟨old, hold, rfl⟩ := Repository.mem_update.mp hrow
  refine ⟨old, hold, ?_⟩
  unfold rewrite
  split
  · obtain ⟨hcourse, huser, hlist⟩ := hf old.data
    exact ⟨hcourse.symm, huser.symm, hlist.symm⟩
  · exact ⟨rfl, rfl, rfl⟩

/-- A list is written by the insertion of a record alone. -/
theorem mem_serve {i : Env × Call} {s' : State} (h : system.serve s i = .ok s')
    {row : Stored CourseAccessControl} (hrow : row ∈ s'.access) :
    (∃ old ∈ s.access, old.data.courseId = row.data.courseId ∧
      old.data.userId = row.data.userId ∧
      old.data.allowedIpAddresses = row.data.allowedIpAddresses) ∨
    ∃ role expiry addresses,
      row.data.allowedIpAddresses = addresses.map simpleArrayToString ∧
      (i.2 = .grantAccess row.data.courseId row.data.userId role expiry addresses ∨
        addresses = none) := by
  cases h
  obtain ⟨env, call⟩ := i
  cases call with
  | grantAccess courseId userId role expiry addresses =>
    have hstate : (system.start (.grantAccess courseId userId role expiry addresses)).run
        system.handle env s = _ := Process.run_map _ fun _ => ()
    rw [hstate] at hrow
    rcases mem_grantAccess hrow with hold | ⟨rfl, rfl, hlist⟩
    · exact .inl ⟨row, hold, rfl, rfl, rfl⟩
    · exact .inr ⟨role, expiry, addresses, hlist, .inl rfl⟩
  | grantTimeLimitedAccess courseId userId role expiresInHours =>
    have hstate : (system.start (.grantTimeLimitedAccess courseId userId role expiresInHours)).run
        system.handle env s = _ := Process.run_map _ fun _ => ()
    rw [hstate] at hrow
    rcases mem_grantAccess hrow with hold | ⟨rfl, rfl, hlist⟩
    · exact .inl ⟨row, hold, rfl, rfl, rfl⟩
    · exact .inr ⟨role, none, none, hlist, .inr rfl⟩
  | updateSubscription courseId userId expiryDate =>
    rcases expiryDate with - | time
    · exact .inl ⟨row, hrow, rfl, rfl, rfl⟩
    · have hupdated : row ∈ (handle env s (.update courseId userId fun access =>
          { access with subscriptionExpiryDate := some time })).2.access := hrow
      refine .inl (mem_rewrite ?_ hupdated)
      exact fun _ => ⟨rfl, rfl, rfl⟩
  | revokeAccess courseId userId =>
    have hupdated : row ∈ (handle env s (.update courseId userId fun access =>
        { access with isActive := false })).2.access := hrow
    refine .inl (mem_rewrite ?_ hupdated)
    exact fun _ => ⟨rfl, rfl, rfl⟩

theorem listed_reached (past : List (Env × Call)) : Listed past (reached past) := by
  refine after_history (P := fun past s => Listed past s) ?_ ?_ ?_ past
  · exact fun row hrow => absurd hrow Repository.not_mem_empty
  · intro past i s s' _ hlisted hserve row hrow stored hstored
    rcases mem_serve hserve hrow with
      ⟨old, hold, hcourse, huser, hlist⟩ | ⟨role, expiry, addresses, hlist, hcall⟩
    · obtain ⟨j, hmem, role, expiry, addresses, heq, hcall⟩ :=
        hlisted old hold stored (hlist.trans hstored)
      rw [hcourse, huser] at hcall
      exact ⟨j, List.mem_cons_of_mem i hmem, role, expiry, addresses, heq, hcall⟩
    · rw [hstored] at hlist
      obtain ⟨given, rfl, heq⟩ := Option.map_eq_some_iff.mp hlist.symm
      rcases hcall with hcall | hnone
      · exact ⟨i, List.mem_cons_self, role, expiry, given, heq.symm, hcall⟩
      · cases hnone
  · intro past i s t _ hlisted _ row hrow stored hstored
    obtain ⟨j, hmem, hrest⟩ := hlisted row hrow stored hstored
    exact ⟨j, List.mem_cons_of_mem i hmem, hrest⟩

theorem admits_of_unrestricted {past : List (Env × Call)} (hpast : ∀ i ∈ past, ¬ i.2.Restricts)
    {row : Stored CourseAccessControl} (hrow : row ∈ (reached past).access) :
    Admits row.data ipAddress := by
  left
  unfold CourseAccessControl.allowed
  cases hstored : row.data.allowedIpAddresses with
  | none => rfl
  | some stored =>
    obtain ⟨i, hmem, role, expiry, addresses, rfl, hcall⟩ := listed_reached past row hrow _ hstored
    have hfree := hpast i hmem
    rw [hcall] at hfree
    refine stringToSimpleArray_eq_nil.mpr ?_
    by_contra hnot
    rw [not_or] at hnot
    exact hfree hnot

/-- In every state reached, the two decisions about a request agree exactly when the record that
is found, if it grants, admits the address. They agree on every request after a run in which no
grant has a list of addresses. -/
theorem decisions_agree_iff (past : List (Env × Call)) :
    (∀ env courseId userId contentId ipAddress,
      (verifies env (reached past) courseId userId contentId ipAddress = true ↔
        checks env (reached past) courseId userId ipAddress = true) ↔
      ∀ row, (reached past).access.findOne (isFor courseId userId) = some row →
        Granted env.now row.data → Admits row.data ipAddress) ∧
    ((∀ i ∈ past, ¬ i.2.Restricts) → ∀ env courseId userId contentId ipAddress,
      (verifies env (reached past) courseId userId contentId ipAddress = true ↔
        checks env (reached past) courseId userId ipAddress = true)) := by
  refine ⟨fun env courseId userId contentId ipAddress => agree_iff, ?_⟩
  intro hpast env courseId userId contentId ipAddress
  refine agree_iff.mpr fun row hfound _ => ?_
  exact admits_of_unrestricted hpast (Repository.findOne_some hfound).2

/-- A student who may read the course from one address only reads its content from another. -/
theorem content_read_from_elsewhere :
    let env : Env := ⟨0, "a", fun now _ => some now⟩
    let s := reached [(env, .grantAccess "c" "u" .student none (some ["10.0.0.1"]))]
    verifies env s "c" "u" "lesson" (some "10.0.0.2") = true ∧
      checks env s "c" "u" (some "10.0.0.2") = false := by
  decide +kernel

end Scoopdope.AccessControl

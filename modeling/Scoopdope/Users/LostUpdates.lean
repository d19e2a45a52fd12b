import Scoopdope.Async.Pool
import Scoopdope.Users.Service

/-!
# Users: lost updates

`update`, `banUser`, `changeRole` and `softDelete` read a row, replace some columns of it
and write all of it back, with other requests in between. A column that the call does not
set is written back as it was read, so what another call has set meanwhile is undone.

`lastWritten` is what the rows should hold: each column as the last call that sets it has
written it. `no_update_lost_iff`: the table holds that throughout a schedule exactly when
every write finds the columns that its call does not set as the request has read them.
`ban_lost` is a ban that a change of the profile takes back.
-/

namespace Scoopdope.Users.LostUpdates

open Async Database Server Soroban

inductive Call
  | update (id : String) (data : UserData)
  | banUser (id : String) (isBanned : Bool)
  | changeRole (id role : String)
  | softDelete (id : String)

namespace Call

def start : Call → Service usersInterface User
  | update id data => Users.update id data
  | banUser id isBanned => Users.banUser id isBanned
  | changeRole id role => Users.changeRole id role
  | softDelete id => Users.softDelete id

def id : Call → String
  | update id _ => id
  | banUser id _ => id
  | changeRole id _ => id
  | softDelete id => id

/-- The columns that the call replaces, with their values. -/
def data : Call → Env → UserData
  | update _ data, _ => data
  | banUser _ isBanned, _ => Patch.empty.set .isBanned isBanned
  | changeRole _ role, _ => Patch.empty.set .role role
  | softDelete _, env => Patch.empty.set .deletedAt (some env.now)

/-- Is the call asked to set this column? -/
def sets : Call → Column → Bool
  | update _ data, column => data.sets column
  | banUser _ _, column => column = .isBanned
  | changeRole _ _, column => column = .role
  | softDelete _, column => column = .deletedAt

theorem start_eq (c : Call) : c.start = modify c.id c.data := by
  cases c <;> rfl

theorem data_sets (c : Call) (env : Env) (column : Column) :
    (c.data env).sets column = c.sets column := by
  cases c with
  | update id data => rfl
  | banUser id isBanned => exact Patch.sets_set_empty
  | changeRole id role => exact Patch.sets_set_empty
  | softDelete id => exact Patch.sets_set_empty

/-- The columns that the call sets, from the row it writes, over what was there. A row that
is new is set as a whole. -/
def write (c : Call) (row : User) : Option User → User
  | none => row
  | some last => fun column => if c.sets column then row column else last column

end Call

/-- The four methods on the table of users. -/
def system : System usersInterface Env HttpException User UserTable Call where
  start := Call.start
  handle := handle

variable {R : Type} [DecidableEq R]

/-- What is reached from `users` by a schedule, newest event first. -/
def reached (users : UserTable) (schedule : List (Event Env Call R)) :
    Pool usersInterface Env HttpException User UserTable Call R :=
  after system.exec (Pool.idle users) schedule

/-! ## What the table should hold -/

section Ghosts

variable (pool : Pool usersInterface Env HttpException User UserTable Call R)

def noteRead (reads : R → Option User) (i : Event Env Call R) (r : R) : Option User :=
  match pool.performs i with
  | some (r', _, _, .findOne (.id id)) => if r = r' then pool.shared.get id else reads r
  | _ => reads r

def noteWritten (rows : String → Option User) (i : Event Env Call R) (id : String) :
    Option User :=
  match pool.performs i with
  | some (_, _, c, .save row) =>
    if conflicts pool.shared row = false ∧ id = row .id then some (c.write row (rows id))
    else rows id
  | _ => rows id

end Ghosts

/-- The row that the `findById` of each request has returned. -/
def lastRead (users : UserTable) : List (Event Env Call R) → R → Option User :=
  traced system.exec (Pool.idle users) (fun reads pool i => noteRead pool reads i) fun _ => none

/-- By id: every column as the last call that sets it has written it, or as it was at the
start. -/
def lastWritten (users : UserTable) : List (Event Env Call R) → String → Option User :=
  traced system.exec (Pool.idle users) (fun rows pool i => noteWritten pool rows i) users.get

/-- When a request writes its row over a stored one, the columns that its call does not set
are still there as the request has read them. -/
def Undisturbed (users : UserTable) (earlier : List (Event Env Call R)) (i : Event Env Call R) :
    Prop :=
  ∀ r env c row read stored,
    (reached users earlier).performs i = some (r, env, c, .save row) →
    conflicts (reached users earlier).shared row = false →
    lastRead users earlier r = some read →
    (reached users earlier).shared.get (row .id) = some stored →
    ∀ column, c.sets column = false → stored column = read column

/-! ## The points of a request -/

/-- Where a request is, with what its `findById` has returned. -/
inductive Point (read : Option User) (c : Call) :
    Process usersInterface Env HttpException User → Prop
  | reading : Point read c (modify c.id c.data)
  | saving (user : User) (env : Env) (h : read = some user) :
      Point read c (save (spread user (c.data env)))
  | returned (user : User) : Point read c (.ret user)
  | failed (x : HttpException) : Point read c (.fail x)

variable {users : UserTable} {schedule earlier : List (Event Env Call R)}

theorem lastRead_cons (users : UserTable) (past : List (Event Env Call R))
    (i : Event Env Call R) :
    lastRead users (i :: past) = noteRead (reached users past) (lastRead users past) i := rfl

theorem lastWritten_cons (users : UserTable) (past : List (Event Env Call R))
    (i : Event Env Call R) :
    lastWritten users (i :: past) =
      noteWritten (reached users past) (lastWritten users past) i := rfl

theorem noteRead_other {pool : Pool usersInterface Env HttpException User UserTable Call R}
    {reads : R → Option User} {i : Event Env Call R} {r : R}
    (h : ∀ env c o, pool.performs i ≠ some (r, env, c, o)) :
    noteRead pool reads i r = reads r := by
  unfold noteRead
  split
  · next r' env c id hperforms =>
    split
    · next hr =>
      subst hr
      exact absurd hperforms (h env c _)
    · rfl
  · rfl

theorem noteRead_self {pool : Pool usersInterface Env HttpException User UserTable Call R}
    {reads : R → Option User} {i : Event Env Call R} {r : R} {env : Env} {c : Call} {id : String}
    (h : pool.performs i = some (r, env, c, .findOne (.id id))) :
    noteRead pool reads i r = pool.shared.get id := by
  rw [noteRead, h]
  exact if_pos rfl

theorem points (users : UserTable) (schedule : List (Event Env Call R)) :
    ∀ r c process, (reached users schedule).request r = some (c, process) →
      Point (lastRead users schedule r) c process := by
  induction schedule with
  | nil => exact nofun
  | cons i past ih =>
    refine System.requests_step ih ?_ ?_ ?_ (System.after_exec _ past i)
    · intro r c process hother hr hpoint
      rw [lastRead_cons, noteRead_other hother]
      exact hpoint
    · intro r env c hi _
      change Point _ c (c.start.settle env)
      rw [Call.start_eq]
      exact .reading
    · intro r env c o k hperforms hr hpoint
      cases hpoint with
      | reading =>
        rw [lastRead_cons, noteRead_self hperforms]
        change Point _ c
          (Process.settle env (orThrow _ ((reached users past).shared.get c.id) >>= _))
        cases (reached users past).shared.get c.id with
        | none => exact .failed _
        | some user => exact .saving user env rfl
      | saving user env' hread =>
        change Point _ c (Process.settle env (if _ then _ else _))
        split
        · exact .returned _
        · exact .failed _

omit [DecidableEq R] in
/-- A write that another row does not stand in the way of. -/
theorem noteWritten_save {pool : Pool usersInterface Env HttpException User UserTable Call R}
    {rows : String → Option User} {i : Event Env Call R} {r : R} {env : Env} {c : Call}
    {row : User} (h : pool.performs i = some (r, env, c, .save row))
    (hfree : conflicts pool.shared row = false) (id : String) :
    noteWritten pool rows i id =
      if id = row .id then some (c.write row (rows id)) else rows id := by
  rw [noteWritten, h]
  simp only [hfree, true_and]

omit [DecidableEq R] in
/-- Every other event writes nothing. -/
theorem noteWritten_other {pool : Pool usersInterface Env HttpException User UserTable Call R}
    {rows : String → Option User} {i : Event Env Call R}
    (h : ∀ r env c row, pool.performs i = some (r, env, c, .save row) →
      conflicts pool.shared row = true) (id : String) :
    noteWritten pool rows i id = rows id := by
  unfold noteWritten
  split
  · next r env c row hperforms => rw [h r env c row hperforms, if_neg (by simp)]
  · rfl

/-- The row that is written is what should be there exactly when the columns that the call
does not set are as in the stored row. -/
theorem write_eq_iff {c : Call} {user : User} {env : Env} {stored : Option User} :
    spread user (c.data env) = c.write (spread user (c.data env)) stored ↔
      ∀ row, stored = some row → ∀ column, c.sets column = false → row column = user column := by
  have hkept {column : Column} (h : c.sets column = false) :
      spread user (c.data env) column = user column :=
    spread_of_not_sets (by rw [c.data_sets, h])
  constructor
  · intro h row hrow column hcolumn
    subst hrow
    have hat := congrFun h column
    rw [hkept hcolumn] at hat
    simp only [Call.write, hcolumn] at hat
    exact hat.symm
  · intro h
    cases stored with
    | none => rfl
    | some row =>
      funext column
      simp only [Call.write]
      split
      · rfl
      · next hcolumn =>
        have hfalse : c.sets column = false := by simpa using hcolumn
        rw [hkept hfalse, h row rfl column hfalse]

/-- The table holds what the last calls have written. -/
def Kept (users : UserTable) (schedule : List (Event Env Call R)) : Prop :=
  ∀ id, (reached users schedule).shared.get id = lastWritten users schedule id

/-- An event that writes nothing. -/
theorem kept_cons_other {i : Event Env Call R}
    (hshared : (reached users (i :: schedule)).shared = (reached users schedule).shared)
    (hperforms : ∀ r env c row, (reached users schedule).performs i = some (r, env, c, .save row) →
      conflicts (reached users schedule).shared row = true) (h : Kept users schedule) :
    Kept users (i :: schedule) ∧ Undisturbed users schedule i := by
  constructor
  · intro id
    rw [lastWritten_cons, noteWritten_other hperforms, hshared]
    exact h id
  · intro r env c row read stored hsave hfree
    rw [hperforms r env c row hsave] at hfree
    cases hfree

/-- A write over what has been read before. -/
theorem kept_cons_save {i : Event Env Call R} {r : R} {env env' : Env} {c : Call} {user : User}
    (hperforms : (reached users schedule).performs i =
      some (r, env, c, .save (spread user (c.data env'))))
    (hread : lastRead users schedule r = some user)
    (hfree : conflicts (reached users schedule).shared (spread user (c.data env')) = false)
    (hshared : (reached users (i :: schedule)).shared =
      (reached users schedule).shared.save (spread user (c.data env')))
    (h : Kept users schedule) : Kept users (i :: schedule) ↔ Undisturbed users schedule i := by
  have hrow : Kept users (i :: schedule) ↔
      spread user (c.data env') = c.write (spread user (c.data env'))
        ((reached users schedule).shared.get (spread user (c.data env') .id)) := by
    constructor
    · intro hkept
      have hid := hkept (spread user (c.data env') .id)
      rw [hshared, Repository.get_save_self, lastWritten_cons, noteWritten_save hperforms hfree,
        if_pos rfl, ← h] at hid
      exact Option.some.inj hid
    · intro heq id
      rw [hshared, Repository.get_save, lastWritten_cons, noteWritten_save hperforms hfree, ← h]
      split
      · next hid => rw [hid, ← heq]
      · rfl
  rw [hrow, write_eq_iff]
  constructor
  · intro hcolumns r' env'' c' row read stored hsave _ hread' hstored column hcolumn
    rw [hperforms] at hsave
    cases hsave
    rw [hread] at hread'
    cases hread'
    exact hcolumns stored hstored column hcolumn
  · intro hundisturbed row hstored column hcolumn
    exact hundisturbed r env c _ user row hperforms hfree hread hstored column hcolumn

theorem kept_cons {i : Event Env Call R} (h : Kept users schedule) :
    Kept users (i :: schedule) ↔ Undisturbed users schedule i := by
  have hother hshared hperforms := kept_cons_other (i := i) hshared hperforms h
  have hnothing (hnone : (reached users schedule).performs i = none)
      (hshared : (reached users (i :: schedule)).shared = (reached users schedule).shared) :
      Kept users (i :: schedule) ↔ Undisturbed users schedule i := by
    have hboth := hother hshared fun r env c row hsave => by simp [hnone] at hsave
    exact iff_of_true hboth.1 hboth.2
  cases System.exec_happens (System.after_exec system schedule i) with
  | called r env c event free performs shared request => exact hnothing performs shared
  | idle performs same => exact hnothing performs (congrArg Pool.shared same)
  | resumed r env c o k performs awaits shared request =>
    cases points users schedule r c _ awaits with
    | reading =>
      have hboth := hother (shared.trans (handle_findOne env _ _)) fun r' env' c' row hsave => by
        cases performs.symm.trans hsave
      exact iff_of_true hboth.1 hboth.2
    | saving user env' hread =>
      cases hfree : conflicts (reached users schedule).shared (spread user (c.data env')) with
      | false =>
        refine kept_cons_save performs hread hfree (shared.trans ?_) h
        exact congrArg Prod.snd (handle_save env hfree)
      | true =>
        have hshared' := shared.trans (congrArg Prod.snd (handle_save_conflict env hfree))
        have hboth := hother hshared' fun r' env'' c' row hsave => by
          cases performs.symm.trans hsave
          exact hfree
        exact iff_of_true hboth.1 hboth.2

/-- Throughout a schedule the table holds, in every column, what the last call that sets it
has written, exactly when no write of the schedule disturbs another call's column. -/
theorem no_update_lost_iff (users : UserTable) (schedule : List (Event Env Call R)) :
    (∀ earlier, earlier <:+ schedule → ∀ id,
      (reached users earlier).shared.get id = lastWritten users earlier id) ↔
    Guarded (Undisturbed users) schedule :=
  throughout_iff_guarded (P := Kept users) (fun _ => rfl) schedule fun _ _ _ h => kept_cons h

/-! ## A ban that is lost -/

/-- A user edits the profile while an administrator bans the user: the edit has read the row
before the ban is written. Newest event first. -/
def editDuringBan : List (Event Env Call Bool) :=
  let env : Env := ⟨0, "", fun _ => ""⟩
  [ .resume false env, .resume true env, .resume true env, .resume false env,
    .call true env (.banUser "u" true),
    .call false env (.update "u" (Patch.empty.set .bio (some "hello"))) ]

/-- Both calls return, no call has set `isBanned` back, and the user is not banned. -/
theorem ban_lost :
    let users : UserTable := Repository.empty.save (User.default "u" 0)
    (∀ r, ((reached users editDuringBan).result r).isSome = true) ∧
      (lastWritten users editDuringBan "u").map (fun user => user .isBanned) = some true ∧
      ((reached users editDuringBan).shared.get "u").map (fun user => user .isBanned) =
        some false ∧
      ¬ ∀ earlier, earlier <:+ editDuringBan → ∀ id,
        (reached users earlier).shared.get id = lastWritten users earlier id := by
  intro users
  have hwritten : (lastWritten users editDuringBan "u").map (fun user => user .isBanned) =
      some true := by decide
  have hstored : ((reached users editDuringBan).shared.get "u").map (fun user => user .isBanned) =
      some false := by decide
  refine ⟨by decide, hwritten, hstored, fun h => ?_⟩
  rw [h editDuringBan (List.suffix_refl _) "u", hwritten] at hstored
  cases hstored

end Scoopdope.Users.LostUpdates

import Scoopdope.Frontend.SyncProgress

/-!
# The offline queue: what is kept

A sync reads the list, waits for its posts and writes back what could not be posted. What
`recordProgress` has put into the list in the meantime is not in what is written back.

`progress_kept_iff`: no update is lost exactly when no sync writes back over one that it has not
read (`Overwrites`); and exactly when, in addition, no update is recorded online (`RecordsOnline`),
each of them is posted or pending from the beginning, not only once `recordProgress` is done.

`step_of_turns` is what an event does to the list and the posts.
-/

namespace Scoopdope.Frontend

open Async Soroban

variable {R : Type} [DecidableEq R]

abbrev Browser (R : Type) : Type := Pool browser Env Empty Unit State Call R

abbrev BrowserEvent (R : Type) : Type := Event Env Call R

def reached (schedule : List (BrowserEvent R)) : Browser R :=
  after (system.execTurn isSync) (Pool.idle State.empty) schedule

/-- Posted, or in the list. -/
def Safe (s : State) (update : Progress) : Prop :=
  update ∈ s.posted ∨ update ∈ s.pending.map PendingProgress.toProgress

/-- What `recordProgress` was called with is safe once it is done. -/
def Kept (p : Browser R) : Prop :=
  ∀ r update, p.request r = some (.recordProgress update, .ret ()) → Safe p.shared update

/-- What `recordProgress` was called with is safe at once. -/
def KeptAtOnce (p : Browser R) : Prop :=
  ∀ r update process, p.request r = some (.recordProgress update, process) → Safe p.shared update

/-- What the list was when a request was made. -/
def listRead (r : R) : List (BrowserEvent R) → List PendingProgress
  | [] => []
  | .call r' _ _ :: past =>
    if r' = r ∧ ((reached past).request r).isNone then (reached past).shared.pending
    else listRead r past
  | .resume _ _ :: past => listRead r past

/-- A sync is answered for its last post, and in the list is an update that it has not read and
that was not posted. -/
def Overwrites (past : List (BrowserEvent R)) (i : BrowserEvent R) : Prop :=
  ∃ r env update remaining, i = .resume r env ∧
    (reached past).request r = some (.sync, postAll [update] remaining) ∧
    ∃ late ∈ (reached past).shared.pending,
      late.toProgress ∉ (listRead r past).map PendingProgress.toProgress ∧
      late.toProgress ∉ (reached past).shared.posted

/-- An update that is not safe already is recorded online. -/
def RecordsOnline (past : List (BrowserEvent R)) (i : BrowserEvent R) : Prop :=
  ∃ r env update, i = .call r env (.recordProgress update) ∧ (reached past).request r = none ∧
    env.onLine = true ∧ ¬ Safe (reached past).shared update

/-! ## What an event does -/

/-- The state once a post is answered. -/
def State.answered (s : State) (env : Env) (update : Progress) : State :=
  (handle env s (.post update)).2

def remainingAfter (env : Env) (update : PendingProgress) (remaining : List PendingProgress) :
    List PendingProgress :=
  if env.succeeds then remaining else remaining ++ [update]

/-- The state with an update more in the list. -/
def State.withPending (s : State) (env : Env) (update : Progress) : State :=
  { s with stored := some (s.pending ++ [{ update with timestamp := env.now }]) }

/-- What is left of a request that was taken in. -/
def Going : Call → Method Unit → Prop
  | .sync, process =>
    process = .ret () ∨ ∃ update rest remaining, process = postAll (update :: rest) remaining
  | .recordProgress update, process => process = .ret () ∨ process = recordOnline update

/-- What an event does. In all cases but the last a request moves, and the others stay. -/
inductive Step (p : Browser R) (i : BrowserEvent R) (s' : State) : R → Call → Method Unit → Prop
  | nothing (r : R) (env : Env) (event : i = .call r env .sync) (free : p.request r = none)
      (shared : s' = p.shared) : Step p i s' r .sync (.ret ())
  | reads (r : R) (env : Env) (update : PendingProgress) (rest : List PendingProgress)
      (event : i = .call r env .sync) (free : p.request r = none)
      (list : p.shared.pending = update :: rest) (shared : s' = p.shared) :
      Step p i s' r .sync (postAll (update :: rest) [])
  | posts (r : R) (env : Env) (update next : PendingProgress)
      (rest remaining : List PendingProgress) (event : i = .resume r env)
      (awaits : p.request r = some (.sync, postAll (update :: next :: rest) remaining))
      (shared : s' = p.shared.answered env update.toProgress) :
      Step p i s' r .sync (postAll (next :: rest) (remainingAfter env update remaining))
  | writes (r : R) (env : Env) (update : PendingProgress) (remaining : List PendingProgress)
      (event : i = .resume r env)
      (awaits : p.request r = some (.sync, postAll [update] remaining))
      (shared : s' = { p.shared.answered env update.toProgress with
        stored := some (remainingAfter env update remaining) }) :
      Step p i s' r .sync (.ret ())
  | online (r : R) (env : Env) (update : Progress)
      (event : i = .call r env (.recordProgress update)) (free : p.request r = none)
      (onLine : env.onLine = true) (shared : s' = p.shared) :
      Step p i s' r (.recordProgress update) (recordOnline update)
  | saved (r : R) (env : Env) (update : Progress)
      (awaits : (i = .call r env (.recordProgress update) ∧ p.request r = none) ∨
        (i = .resume r env ∧ p.request r = some (.recordProgress update, recordOnline update)))
      (shared : s' = p.shared.withPending env update) :
      Step p i s' r (.recordProgress update) (.ret ())
  | recorded (r : R) (env : Env) (update : Progress) (event : i = .resume r env)
      (awaits : p.request r = some (.recordProgress update, recordOnline update))
      (shared : s' = { p.shared with posted := update :: p.shared.posted }) :
      Step p i s' r (.recordProgress update) (.ret ())

variable {p p' : Browser R} {i : BrowserEvent R}

omit [DecidableEq R] in
theorem step_of_call {r : R} {env : Env} {c : Call} {process : Method Unit} {s' : State}
    (hevent : i = .call r env c) (hfree : p.request r = none)
    (hturn : c.start.turn isSync handle env p.shared = (process, s')) :
    Step p i s' r c process := by
  cases c with
  | sync =>
    have hsync : Call.sync.start.turn isSync handle env p.shared =
        (if env.onLine = false then (pure () : Method Unit) else do
          let pending ← getPending
          if pending.isEmpty then pure () else postAll pending []).turn isSync handle env
            p.shared := rfl
    rw [hsync] at hturn
    split at hturn
    · cases hturn
      exact .nothing r env hevent hfree rfl
    have hlist : (do
          let pending ← getPending
          if pending.isEmpty then pure () else postAll pending [] : Method Unit).turn isSync handle
            env p.shared =
        (if p.shared.pending.isEmpty then (pure () : Method Unit)
          else postAll p.shared.pending []).turn isSync handle env p.shared := rfl
    rw [hlist] at hturn
    cases hpending : p.shared.pending with
    | nil =>
      rw [hpending] at hturn
      cases hturn
      exact .nothing r env hevent hfree rfl
    | cons update rest =>
      rw [hpending] at hturn
      cases hturn
      exact .reads r env update rest hevent hfree hpending rfl
  | recordProgress update =>
    have hrecord : (Call.recordProgress update).start.turn isSync handle env p.shared =
        (if env.onLine then recordOnline update else saveForSync update).turn isSync handle env
          p.shared := rfl
    rw [hrecord] at hturn
    split at hturn
    · next honline =>
      cases hturn
      exact .online r env update hevent hfree honline rfl
    · cases hturn
      exact .saved r env update (.inl ⟨hevent, hfree⟩) rfl

omit [DecidableEq R] in
theorem step_of_resume {r : R} {env : Env} {c : Call} {o : BrowserOp}
    {k : browser.Answer o → Method Unit} {process : Method Unit} {s' : State}
    (hevent : i = .resume r env) (hawaits : p.request r = some (c, .await o k))
    (hgoing : Going c (.await o k))
    (hturn : (k (handle env p.shared o).1).turn isSync handle env (handle env p.shared o).2 =
      (process, s')) : Step p i s' r c process := by
  cases c with
  | sync =>
    obtain hdone | ⟨update, rest, remaining, hpost⟩ := hgoing
    · cases hdone
    rw [hpost] at hawaits
    have hnext : Process.await o k =
      .await (I := browser) (.post update.toProgress) fun succeeded =>
        postAll rest (if succeeded then remaining else remaining ++ [update]) := hpost
    cases hnext
    cases rest with
    | nil =>
      cases hturn
      exact .writes r env update remaining hevent hawaits rfl
    | cons next rest =>
      cases hturn
      exact .posts r env update next rest remaining hevent hawaits rfl
  | recordProgress update =>
    obtain hdone | hrecording := hgoing
    · cases hdone
    rw [hrecording] at hawaits
    have hnext : Process.await o k = .await (I := browser) (.post update) fun succeeded =>
      if succeeded then pure () else saveForSync update := hrecording
    cases hnext
    have hanswer : (handle env p.shared (.post update)).1 = env.succeeds := rfl
    rw [hanswer] at hturn
    cases hsucceeds : env.succeeds with
    | true =>
      have hposted : (handle env p.shared (.post update)).2 =
          { p.shared with posted := update :: p.shared.posted } := if_pos hsucceeds
      rw [hsucceeds, hposted] at hturn
      cases hturn
      exact .recorded r env update hevent hawaits rfl
    | false =>
      have hsame : (handle env p.shared (.post update)).2 = p.shared := by
        show (if env.succeeds then _ else p.shared) = p.shared
        rw [hsucceeds]
        rfl
      rw [hsucceeds, hsame] at hturn
      cases hturn
      exact .saved r env update (.inr ⟨hevent, hawaits⟩) rfl

omit [DecidableEq R] in
theorem Step.going {r : R} {c : Call} {process : Method Unit} {s' : State}
    (h : Step p i s' r c process) : Going c process := by
  cases h with
  | nothing => exact .inl rfl
  | reads env update rest => exact .inr ⟨update, rest, [], rfl⟩
  | posts env update next rest remaining => exact .inr ⟨next, rest, _, rfl⟩
  | writes => exact .inl rfl
  | online => exact .inr rfl
  | saved => exact .inl rfl
  | recorded => exact .inl rfl

omit [DecidableEq R] in
/-- The request that moves is new, or waits for an answer. -/
theorem Step.not_done {r : R} {c : Call} {process : Method Unit} {s' : State}
    (h : Step p i s' r c process) (c' : Call) : p.request r ≠ some (c', .ret ()) := by
  intro hdone
  cases h with
  | nothing env event free => cases free.symm.trans hdone
  | reads env update rest event free => cases free.symm.trans hdone
  | posts env update next rest remaining event awaits => cases awaits.symm.trans hdone
  | writes env update remaining event awaits => cases awaits.symm.trans hdone
  | online env update event free => cases free.symm.trans hdone
  | saved env update awaits =>
    obtain ⟨-, free⟩ | ⟨-, awaits⟩ := awaits
    · cases free.symm.trans hdone
    · cases awaits.symm.trans hdone
  | recorded env update event awaits => cases awaits.symm.trans hdone

theorem step_of_turns (hgoing : ∀ r c process, p.request r = some (c, process) → Going c process)
    (h : System.Turns isSync system p i p') :
    p' = p ∨ ∃ r c process, Step p i p'.shared r c process ∧
      p'.request = Function.update p.request r (some (c, process)) := by
  cases h with
  | called r env c process event free turn request =>
    exact .inr ⟨r, c, process, step_of_call event free turn, request⟩
  | resumed r env c o k process event awaits turn request =>
    exact .inr ⟨r, c, process, step_of_resume event awaits (hgoing r c _ awaits) turn, request⟩
  | idle same => exact .inl same

variable {past : List (BrowserEvent R)}

theorem going_reached (past : List (BrowserEvent R)) :
    ∀ r c process, (reached past).request r = some (c, process) → Going c process := by
  induction past with
  | nil => exact nofun
  | cons i past ih =>
    intro r c process hr
    rcases step_of_turns ih (System.turns_of_exec (System.after_execTurn isSync system past i)) with
      hsame | ⟨r', c', process', hstep, hrequest⟩
    · have hsame' : reached (i :: past) = reached past := hsame
      rw [hsame'] at hr
      exact ih r c process hr
    · have hrequest' : (reached (i :: past)).request =
        Function.update (reached past).request r' (some (c', process')) := hrequest
      rw [hrequest', Function.update_apply] at hr
      split at hr
      · cases hr
        exact hstep.going
      · exact ih r c process hr

theorem step_reached (past : List (BrowserEvent R)) (i : BrowserEvent R) :
    reached (i :: past) = reached past ∨
      ∃ r c process, Step (reached past) i (reached (i :: past)).shared r c process ∧
        (reached (i :: past)).request =
          Function.update (reached past).request r (some (c, process)) :=
  step_of_turns (going_reached past)
    (System.turns_of_exec (System.after_execTurn isSync system past i))

/-! ## What a sync has read -/

/-- What is left after the answer to a post. -/
def afterPost (succeeded : Bool) : Method Unit → Method Unit
  | .await (.post _) k => k succeeded
  | process => process

/-- What is left of a sync shows what it has still to post and what it will write back. -/
theorem postAll_inj {rest rest' remaining remaining' : List PendingProgress}
    (h : postAll rest remaining = postAll rest' remaining') :
    rest = rest' ∧ remaining = remaining' := by
  induction rest generalizing rest' remaining remaining' with
  | nil =>
    cases rest' with
    | nil =>
      have hwrites : Process.await (I := browser) (E := Env) (X := Empty) (.setItem remaining)
        Process.ret = .await (.setItem remaining') Process.ret := h
      cases hwrites
      exact ⟨rfl, rfl⟩
    | cons update' rest' => cases h
  | cons update rest ih =>
    cases rest' with
    | nil => cases h
    | cons update' rest' =>
      have hsucceeded : postAll rest remaining = postAll rest' remaining' :=
        congrArg (afterPost true) h
      have hfailed :
          postAll rest (remaining ++ [update]) = postAll rest' (remaining' ++ [update']) :=
        congrArg (afterPost false) h
      obtain ⟨rfl, rfl⟩ := ih hsucceeded
      obtain ⟨-, happend⟩ := ih hfailed
      rw [List.append_cancel_left_eq, List.cons.injEq] at happend
      exact ⟨by rw [happend.1], rfl⟩

theorem listRead_of_call {r : R} {env : Env} {c : Call} (h : i = .call r env c)
    (hfree : (reached past).request r = none) :
    listRead r (i :: past) = (reached past).shared.pending := by
  subst h
  exact if_pos ⟨rfl, by rw [hfree]; rfl⟩

theorem listRead_of_ne_none {r : R} (h : (reached past).request r ≠ none) :
    listRead r (i :: past) = listRead r past := by
  cases i with
  | resume r' env => rfl
  | call r' env c =>
    refine if_neg fun hfree => h ?_
    exact Option.isNone_iff_eq_none.mp hfree.2

/-- Each list that was read was the list in some state of the schedule. -/
theorem mem_listRead_cons {r : R} {pending : PendingProgress}
    (h : pending ∈ listRead r (i :: past)) :
    pending ∈ (reached past).shared.pending ∨ pending ∈ listRead r past := by
  cases i with
  | resume r' env => exact .inr h
  | call r' env c =>
    unfold listRead at h
    split at h
    · exact .inl h
    · exact .inr h

/-- Each update that a sync has read is still to be posted, or will be written back, or is posted;
and these are all it has. -/
def Syncs (s : State) (read rest remaining : List PendingProgress) : Prop :=
  (∀ update ∈ read, update ∈ rest ∨ update ∈ remaining ∨ update.toProgress ∈ s.posted) ∧
  (∀ update, update ∈ rest ∨ update ∈ remaining → update ∈ read)

/-- What holds after every schedule. -/
structure Inv (past : List (BrowserEvent R)) : Prop where
  syncs : ∀ r update rest remaining,
    (reached past).request r = some (.sync, postAll (update :: rest) remaining) →
    Syncs (reached past).shared (listRead r past) (update :: rest) remaining
  /-- The list has come from `recordProgress`. -/
  recorded : ∀ pending : PendingProgress,
    (pending ∈ (reached past).shared.pending ∨ ∃ r, pending ∈ listRead r past) →
    ∃ r, (reached past).request r = some (.recordProgress pending.toProgress, .ret ())

theorem posted_answered (s : State) (env : Env) (update : Progress) :
    (s.answered env update).posted = if env.succeeds then update :: s.posted else s.posted := by
  unfold State.answered handle
  cases env.succeeds <;> rfl

theorem pending_answered (s : State) (env : Env) (update : Progress) :
    (s.answered env update).pending = s.pending := by
  unfold State.answered handle
  cases env.succeeds <;> rfl

theorem Syncs.mono {s s' : State} {read rest remaining : List PendingProgress}
    (h : Syncs s read rest remaining) (hposted : ∀ update ∈ s.posted, update ∈ s'.posted) :
    Syncs s' read rest remaining := by
  refine ⟨fun update hread => ?_, h.2⟩
  rcases h.1 update hread with hrest | hremaining | hdone
  · exact .inl hrest
  · exact .inr (.inl hremaining)
  · exact .inr (.inr (hposted _ hdone))

/-- One post more is answered. -/
theorem Syncs.answered {s : State} {read rest remaining : List PendingProgress}
    {update : PendingProgress} (env : Env) (h : Syncs s read (update :: rest) remaining) :
    Syncs (s.answered env update.toProgress) read rest (remainingAfter env update remaining) := by
  unfold Syncs remainingAfter
  rw [posted_answered]
  cases env.succeeds with
  | true =>
    refine ⟨fun other hread => ?_, fun other hother => ?_⟩
    · rcases h.1 other hread with hrest | hremaining | hposted
      · rcases List.mem_cons.mp hrest with rfl | hrest
        · exact .inr (.inr (List.mem_cons_self ..))
        · exact .inl hrest
      · exact .inr (.inl hremaining)
      · exact .inr (.inr (List.mem_cons_of_mem _ hposted))
    · exact h.2 other (hother.imp_left (List.mem_cons_of_mem update))
  | false =>
    refine ⟨fun other hread => ?_, fun other hother => ?_⟩
    · rcases h.1 other hread with hrest | hremaining | hposted
      · rcases List.mem_cons.mp hrest with rfl | hrest
        · exact .inr (.inl (List.mem_append_right _ (List.mem_singleton_self _)))
        · exact .inl hrest
      · exact .inr (.inl (List.mem_append_left _ hremaining))
      · exact .inr (.inr hposted)
    · refine h.2 other ?_
      rcases hother with hrest | hremaining
      · exact .inl (List.mem_cons_of_mem update hrest)
      · rcases List.mem_append.mp hremaining with hremaining | hupdate
        · exact .inr hremaining
        · exact .inl (List.mem_cons.mpr (.inl (List.mem_singleton.mp hupdate)))

omit [DecidableEq R] in
theorem Step.posted {r : R} {c : Call} {process : Method Unit} {s' : State}
    (h : Step p i s' r c process) : ∀ update ∈ p.shared.posted, update ∈ s'.posted := by
  intro update hposted
  have hanswered (env : Env) (other : Progress) :
      update ∈ (p.shared.answered env other).posted := by
    rw [posted_answered]
    split
    · exact List.mem_cons_of_mem _ hposted
    · exact hposted
  cases h with
  | nothing env event free shared => rwa [shared]
  | reads env update rest event free list shared => rwa [shared]
  | posts env other next rest remaining event awaits shared =>
    rw [shared]
    exact hanswered env other.toProgress
  | writes env other remaining event awaits shared =>
    rw [shared]
    exact hanswered env other.toProgress
  | online env update event free onLine shared => rwa [shared]
  | saved env update awaits shared => rwa [shared]
  | recorded env update event awaits shared =>
    rw [shared]
    exact List.mem_cons_of_mem _ hposted

/-- What is in the list has been there before, or was read by the sync that moves, or has come
from the `recordProgress` that moves. -/
theorem Step.mem_pending {r : R} {c : Call} {process : Method Unit} {s' : State}
    (h : Step (reached past) i s' r c process) (hinv : Inv past) :
    ∀ pending ∈ s'.pending, pending ∈ (reached past).shared.pending ∨ pending ∈ listRead r past ∨
      c = .recordProgress pending.toProgress ∧ process = .ret () := by
  intro pending hpending
  cases h with
  | nothing env event free shared => exact .inl (by rwa [shared] at hpending)
  | reads env update rest event free list shared => exact .inl (by rwa [shared] at hpending)
  | posts env other next rest remaining event awaits shared =>
    rw [shared, pending_answered] at hpending
    exact .inl hpending
  | writes env other remaining event awaits shared =>
    rw [shared] at hpending
    exact .inr (.inl (((hinv.syncs r other [] remaining awaits).answered env).2 pending
      (.inr hpending)))
  | online env update event free onLine shared => exact .inl (by rwa [shared] at hpending)
  | saved env update awaits shared =>
    rw [shared] at hpending
    rcases List.mem_append.mp hpending with hold | hnew
    · exact .inl hold
    · rw [List.mem_singleton.mp hnew]
      exact .inr (.inr ⟨rfl, rfl⟩)
  | recorded env update event awaits shared => exact .inl (by rwa [shared] at hpending)

/-- Of the request that moves. -/
theorem Inv.syncs_moved (h : Inv past) {r : R} {process : Method Unit} {s' : State}
    (hstep : Step (reached past) i s' r .sync process) {update : PendingProgress}
    {rest remaining : List PendingProgress}
    (hprocess : process = postAll (update :: rest) remaining) :
    Syncs s' (listRead r (i :: past)) (update :: rest) remaining := by
  cases hstep with
  | nothing env event free shared => cases hprocess
  | reads env first others event free list shared =>
    obtain ⟨hrest, hremaining⟩ := postAll_inj hprocess
    rw [← hrest, ← hremaining, listRead_of_call event free, list]
    exact ⟨fun other hread => .inl hread, fun other hother => hother.resolve_right nofun⟩
  | posts env posted next others before event awaits shared =>
    obtain ⟨hrest, hremaining⟩ := postAll_inj hprocess
    have hsome : (reached past).request r ≠ none := by
      rw [awaits]
      exact nofun
    rw [← hrest, ← hremaining, listRead_of_ne_none hsome, shared]
    exact (h.syncs r posted (next :: others) before awaits).answered env
  | writes env posted before event awaits shared => cases hprocess

theorem Inv.next (h : Inv past) (i : BrowserEvent R) : Inv (i :: past) := by
  rcases step_reached past i with hsame | ⟨r, c, process, hstep, hrequest⟩
  · refine ⟨fun r update rest remaining hr => ?_, fun pending hpending => ?_⟩
    · rw [hsame] at hr ⊢
      have hsome : (reached past).request r ≠ none := by
        rw [hr]
        exact nofun
      rw [listRead_of_ne_none hsome]
      exact h.syncs r update rest remaining hr
    · rw [hsame] at hpending ⊢
      rcases hpending with hlist | ⟨r, hread⟩
      · exact h.recorded pending (.inl hlist)
      · rcases mem_listRead_cons hread with hlist | hread
        · exact h.recorded pending (.inl hlist)
        · exact h.recorded pending (.inr ⟨r, hread⟩)
  constructor
  · intro r' update rest remaining hr'
    rw [hrequest, Function.update_apply] at hr'
    split at hr'
    · next hmoved =>
      subst hmoved
      cases hr'
      exact h.syncs_moved hstep rfl
    · have hsome : (reached past).request r' ≠ none := by
        rw [hr']
        exact nofun
      rw [listRead_of_ne_none hsome]
      exact (h.syncs r' update rest remaining hr').mono hstep.posted
  · intro pending hpending
    -- Who has recorded it is done, and stays so.
    have hold (hpending : pending ∈ (reached past).shared.pending ∨
        ∃ r, pending ∈ listRead r past) : ∃ r, (reached (i :: past)).request r =
          some (.recordProgress pending.toProgress, .ret ()) := by
      obtain ⟨r', hr'⟩ := h.recorded pending hpending
      refine ⟨r', ?_⟩
      have hne : r' ≠ r := by
        rintro rfl
        exact hstep.not_done _ hr'
      rw [hrequest, Function.update_of_ne hne]
      exact hr'
    rcases hpending with hlist | ⟨r', hread⟩
    · rcases hstep.mem_pending h pending hlist with hbefore | hread | ⟨rfl, rfl⟩
      · exact hold (.inl hbefore)
      · exact hold (.inr ⟨r, hread⟩)
      · exact ⟨r, by rw [hrequest, Function.update_self]⟩
    · rcases mem_listRead_cons hread with hbefore | hbefore
      · exact hold (.inl hbefore)
      · exact hold (.inr ⟨r', hbefore⟩)

theorem inv_reached (past : List (BrowserEvent R)) : Inv past := by
  induction past with
  | nil =>
    refine ⟨nofun, fun pending hpending => ?_⟩
    rcases hpending with hlist | ⟨r, hread⟩
    · cases hlist
    · cases hread
  | cons i past ih => exact ih.next i

/-! ## What is safe -/

/-- What is safe stays so, but for what a sync overwrites. -/
theorem Safe.step {r : R} {c : Call} {process : Method Unit} {s' : State}
    (hstep : Step (reached past) i s' r c process) (hkept : ¬ Overwrites past i)
    {update : Progress} (h : Safe (reached past).shared update) : Safe s' update := by
  have hgrows := hstep.posted
  rcases h with hposted | hpending
  · exact .inl (hgrows update hposted)
  · cases hstep with
    | nothing env event free shared => exact .inr (by rwa [shared])
    | reads env update rest event free list shared => exact .inr (by rwa [shared])
    | posts env other next rest remaining event awaits shared =>
      rw [shared]
      exact .inr (by rwa [pending_answered])
    | writes env last remaining event awaits shared =>
      obtain ⟨pending, hlist, rfl⟩ := List.mem_map.mp hpending
      by_cases hposted : pending.toProgress ∈ (reached past).shared.posted
      · exact .inl (hgrows _ hposted)
      have hread : pending.toProgress ∈ (listRead r past).map PendingProgress.toProgress := by
        by_contra hunread
        exact hkept ⟨r, env, last, remaining, event, awaits, pending, hlist, hunread, hposted⟩
      obtain ⟨read, hmem, hsame⟩ := List.mem_map.mp hread
      have hsyncs := ((inv_reached past).syncs r last [] remaining awaits).answered env
      rw [← hsame, shared]
      rcases hsyncs.1 read hmem with hrest | hremaining | hposted
      · cases hrest
      · exact .inr (List.mem_map_of_mem hremaining)
      · exact .inl hposted
    | online env other event free onLine shared => exact .inr (by rwa [shared])
    | saved env other awaits shared =>
      rw [shared]
      refine .inr ?_
      obtain ⟨pending, hlist, rfl⟩ := List.mem_map.mp hpending
      exact List.mem_map_of_mem (List.mem_append_left _ hlist)
    | recorded env other event awaits shared => exact .inr (by rwa [shared])

theorem reached_writes {r : R} {env : Env} {update : PendingProgress}
    {remaining : List PendingProgress} (hevent : i = .resume r env)
    (hawaits : (reached past).request r = some (.sync, postAll [update] remaining)) :
    reached (i :: past) =
      ⟨{ (reached past).shared.answered env update.toProgress with
          stored := some (remainingAfter env update remaining) },
        Function.update (reached past).request r (some (.sync, .ret ()))⟩ := by
  subst hevent
  have hawaits' : (reached past).request r = some (.sync, .await (.post update.toProgress)
    fun succeeded => postAll [] (if succeeded then remaining else remaining ++ [update])) := hawaits
  exact System.nextTurn_resume isSync system hawaits' env

/-- Where a sync overwrites an update, one is lost that was recorded before. -/
theorem lost_of_overwrites (h : Overwrites past i) : ¬ Kept (reached (i :: past)) := by
  obtain ⟨r, env, update, remaining, hevent, hawaits, late, hlate, hunread, hunposted⟩ := h
  have hinv := inv_reached past
  have hsyncs := hinv.syncs r update [] remaining hawaits
  obtain ⟨r', hdone⟩ := hinv.recorded late (.inl hlate)
  have hread {pending : PendingProgress} (hmem : pending ∈ listRead r past) :
      late.toProgress ≠ pending.toProgress := by
    intro hsame
    exact hunread (List.mem_map.mpr ⟨pending, hmem, hsame.symm⟩)
  have hne : r' ≠ r := by
    rintro rfl
    cases hawaits.symm.trans hdone
  intro hkept
  have hsafe := hkept r' late.toProgress
  rw [reached_writes hevent hawaits] at hsafe
  dsimp only at hsafe
  rw [Function.update_of_ne hne] at hsafe
  rcases hsafe hdone with hposted | hpending
  · have hposted' : late.toProgress ∈
      ((reached past).shared.answered env update.toProgress).posted := hposted
    rw [posted_answered] at hposted'
    split at hposted'
    · rcases List.mem_cons.mp hposted' with hsame | hposted'
      · exact hread (hsyncs.2 update (.inl (List.mem_singleton_self _))) hsame
      · exact hunposted hposted'
    · exact hunposted hposted'
  · obtain ⟨pending, hmem, hsame⟩ := List.mem_map.mp hpending
    exact hread ((hsyncs.answered env).2 pending (.inr hmem)) hsame.symm

omit [DecidableEq R] in
/-- What is recorded is safe when `recordProgress` is done. -/
theorem Step.safe {r : R} {update : Progress} {process : Method Unit} {s' : State}
    (h : Step p i s' r (.recordProgress update) process) (hdone : process = .ret ()) :
    Safe s' update := by
  cases h with
  | online env _ event free onLine shared => cases hdone
  | saved env _ awaits shared =>
    rw [shared]
    exact .inr (List.mem_map_of_mem (List.mem_append_right _ (List.mem_singleton_self _)))
  | recorded env _ event awaits shared =>
    rw [shared]
    exact .inl (List.mem_cons_self ..)

theorem Kept.next (hkept : Kept (reached past)) (h : ¬ Overwrites past i) :
    Kept (reached (i :: past)) := by
  intro r update hr
  rcases step_reached past i with hsame | ⟨r', c, process, hstep, hrequest⟩
  · rw [hsame] at hr ⊢
    exact hkept r update hr
  rw [hrequest, Function.update_apply] at hr
  split at hr
  · cases hr
    exact hstep.safe rfl
  · exact (hkept r update hr).step hstep h

theorem KeptAtOnce.next (hkept : KeptAtOnce (reached past)) (h : ¬ Overwrites past i)
    (honline : ¬ RecordsOnline past i) : KeptAtOnce (reached (i :: past)) := by
  intro r update process hr
  rcases step_reached past i with hsame | ⟨r', c, process', hstep, hrequest⟩
  · rw [hsame] at hr ⊢
    exact hkept r update process hr
  rw [hrequest, Function.update_apply] at hr
  split at hr
  · cases hr
    rcases hstep.going with hdone | hrecording
    · exact hstep.safe hdone
    · -- Then it is recorded online, and was safe before.
      cases hstep with
      | online env _ event free onLine shared =>
        by_contra hlost
        rw [shared] at hlost
        exact honline ⟨_, env, update, event, free, onLine, hlost⟩
      | saved env _ awaits shared => cases hrecording
      | recorded env _ event awaits shared => cases hrecording
  · exact (hkept r update process hr).step hstep h

/-- An update that is recorded online is not safe at once. -/
theorem not_keptAtOnce_of_recordsOnline (h : RecordsOnline past i) :
    ¬ KeptAtOnce (reached (i :: past)) := by
  obtain ⟨r, env, update, rfl, hfree, honline, hunsafe⟩ := h
  have hturn : (Call.recordProgress update).start.turn isSync handle env (reached past).shared =
      (recordOnline update, (reached past).shared) := by
    show (if env.onLine then recordOnline update else saveForSync update).turn isSync handle env
      (reached past).shared = _
    rw [honline]
    rfl
  have hreached : reached (.call r env (.recordProgress update) :: past) =
      ⟨(reached past).shared, Function.update (reached past).request r
        (some (.recordProgress update, recordOnline update))⟩ := by
    refine (System.nextTurn_call isSync system hfree env (.recordProgress update)).trans ?_
    exact congrArg (fun t : Method Unit × State => (⟨t.2, Function.update (reached past).request r
      (some (.recordProgress update, t.1))⟩ : Browser R)) hturn
  intro hkept
  rw [hreached] at hkept
  exact hunsafe (hkept r update (recordOnline update) (Function.update_self ..))

omit [DecidableEq R] in
theorem KeptAtOnce.kept {p : Browser R} (h : KeptAtOnce p) : Kept p :=
  fun r update hr => h r update _ hr

/-- No update is lost exactly when no sync overwrites one. Each is posted or in the list at every
moment exactly when, in addition, none is recorded online. -/
theorem progress_kept_iff (schedule : List (BrowserEvent R)) :
    ((∀ earlier, earlier <:+ schedule → Kept (reached earlier)) ↔
      Guarded (fun past i => ¬ Overwrites past i) schedule) ∧
    ((∀ earlier, earlier <:+ schedule → KeptAtOnce (reached earlier)) ↔
      Guarded (fun past i => ¬ Overwrites past i ∧ ¬ RecordsOnline past i) schedule) := by
  constructor
  · refine throughout_iff_guarded nofun schedule fun past i _ hkept => ?_
    exact ⟨fun h hover => lost_of_overwrites hover h, hkept.next⟩
  · refine throughout_iff_guarded nofun schedule fun past i _ hkept => ?_
    refine ⟨fun h => ⟨fun hover => lost_of_overwrites hover h.kept, fun honline => ?_⟩, fun h => ?_⟩
    · exact not_keptAtOnce_of_recordsOnline honline h
    · exact hkept.next h.1 h.2

def exampleUpdate (call : Nat) : Progress := ⟨"course", "lesson", 100, call⟩

/-- An update is recorded offline. While a sync posts it, the post of another one fails. -/
def exampleLost : List (BrowserEvent Nat) :=
  [.resume 2 ⟨true, 4, true⟩, .resume 3 ⟨true, 3, false⟩,
    .call 3 ⟨true, 2, false⟩ (.recordProgress (exampleUpdate 2)), .call 2 ⟨true, 1, false⟩ .sync,
    .call 1 ⟨false, 0, false⟩ (.recordProgress (exampleUpdate 1))]

/-- The second update is neither posted nor in the list. -/
theorem update_overwritten : ¬ Kept (reached exampleLost) ∧ ¬ KeptAtOnce (reached exampleLost) := by
  have hlost : ¬ Kept (reached exampleLost) := by
    intro hkept
    rcases hkept 3 (exampleUpdate 2) rfl with hposted | hpending
    · revert hposted
      decide
    · revert hpending
      decide
  exact ⟨hlost, fun h => hlost h.kept⟩

end Scoopdope.Frontend

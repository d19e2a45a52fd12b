import Scoopdope.RateLimit.Limits

/-!
# Rate limits: who is refused

Each request that is let through makes the counter expire anew when a whole window has passed. A
client that keeps a steady pace is never rid of its first requests, and is locked out at the limit
(`steady_client_refused`).

`refused_at_limit`: where no request finds a counter that was begun a window or more ago, only a
client is refused of which as many requests as the limit says were let through within the window.
-/

namespace Scoopdope.RateLimit

open Async Soroban

variable {H R : Type} [DecidableEq R] (metadata : H → Option PartialConfig)
  (toISOString : Nat → String)

/-! ## When a counter was begun -/

/-- How far a request has come. -/
def stageOf (past : List (Event Nat (Call H) R)) (r : R) : Stage :=
  protocol.stages (system metadata toISOString) .beginning Cache.empty past r

/-- When the counters were begun, and those that the requests have found. -/
structure Begun (R : Type) where
  counter : String → Nat
  found : R → Option Nat

/-- A request that finds no counter begins one when it sets it. -/
def begun : List (Event Nat (Call H) R) → Begun R
  | [] => { counter := fun _ => 0, found := fun _ => none }
  | i :: past =>
    let now (time : Nat) := (reached metadata toISOString past).shared.at time
    match (reached metadata toISOString past).performs i with
    | some (r, time, _, .get key) =>
      { begun past with
        found := Function.update (begun past).found r
          ((handle time (reached metadata toISOString past).shared (.get key)).1.map fun _ =>
            (begun past).counter key) }
    | some (r, time, _, .set key _ _) =>
      { begun past with
        counter := Function.update (begun past).counter key
          (((begun past).found r).getD (now time)) }
    | none => begun past

/-- A request that looks whether it is let through does not find a counter that was begun a window
or more ago. -/
def FoundInTime (windowMs : Nat) (past : List (Event Nat (Call H) R))
    (i : Event Nat (Call H) R) : Prop :=
  ∀ r time call key,
    (reached metadata toISOString past).performs i = some (r, time, call, .get key) →
    stageOf metadata toISOString past r = .beginning →
    (handle time (reached metadata toISOString past).shared (.get key)).1 ≠ none →
    (reached metadata toISOString past).shared.at time <
      (begun metadata toISOString past).counter key + windowMs

deriving instance DecidableEq for Stage

instance (windowMs : Nat) (past : List (Event Nat (Call H) R)) (i : Event Nat (Call H) R) :
    Decidable (FoundInTime metadata toISOString windowMs past i) :=
  match hperforms : (reached metadata toISOString past).performs i with
  | none => .isTrue fun _ _ _ _ h => absurd (hperforms.symm.trans h) nofun
  | some (_, _, _, .set _ _ _) => .isTrue fun _ _ _ _ h => absurd (hperforms.symm.trans h) nofun
  | some (r, time, _, .get key) =>
    decidable_of_iff
      (stageOf metadata toISOString past r = .beginning →
        (handle time (reached metadata toISOString past).shared (.get key)).1 ≠ none →
        (reached metadata toISOString past).shared.at time <
          (begun metadata toISOString past).counter key + windowMs)
      ⟨fun h _ _ _ _ heq => by cases hperforms.symm.trans heq; exact h,
        fun h => h r time _ key hperforms⟩

/-- How many requests of the client were let through from `since` on. -/
def admittedSince (client : String) (since : Nat) (log : List (Admission H)) : Nat :=
  (ofClient client log).countP fun x => since ≤ x.time

/-- How many requests of the client were let through within the window before `now`. -/
def admittedWithin (client : String) (now windowMs : Nat) (log : List (Admission H)) : Nat :=
  (ofClient client log).countP fun x => x.time ≤ now ∧ now < x.time + windowMs

/-! ## What a request counts -/

/-- Counters count requests since they were begun, and requests what they have found. -/
structure Counted (past : List (Event Nat (Call H) R)) : Prop where
  counter : ∀ key entry, (reached metadata toISOString past).shared.entries key = some entry →
    entry.count ≤ admittedSince key ((begun metadata toISOString past).counter key)
      (admissions metadata toISOString past)
  begun_le : ∀ key, (begun metadata toISOString past).counter key ≤
    (reached metadata toISOString past).shared.clock
  found : ∀ r key count, stageOf metadata toISOString past r = .read key count →
    match (begun metadata toISOString past).found r with
    | some since => since ≤ (reached metadata toISOString past).shared.clock ∧
      count ≤ admittedSince key since (admissions metadata toISOString past)
    | none => count = 0

variable {metadata toISOString} {schedule past : List (Event Nat (Call H) R)}
  {i : Event Nat (Call H) R}

theorem admittedSince_cons {x : Admission H} {log : List (Admission H)} {since : Nat}
    (h : since ≤ x.time) :
    admittedSince x.client since (x :: log) = admittedSince x.client since log + 1 := by
  have hhead : ofClient x.client (x :: log) = x :: ofClient x.client log :=
    List.filter_cons_of_pos (decide_eq_true rfl)
  rw [admittedSince, hhead, List.countP_cons, if_pos (decide_eq_true h), admittedSince]

theorem admittedSince_le_cons (x : Admission H) (log : List (Admission H)) (client : String)
    (since : Nat) : admittedSince client since log ≤ admittedSince client since (x :: log) := by
  refine List.Sublist.countP_le ?_
  exact (List.sublist_cons_self x log).filter _

theorem begun_of_get {r : R} {time : Nat} {call : Call H} {key : String}
    (h : (reached metadata toISOString past).performs i = some (r, time, call, .get key)) :
    begun metadata toISOString (i :: past) =
      { begun metadata toISOString past with
        found := Function.update (begun metadata toISOString past).found r
          ((handle time (reached metadata toISOString past).shared (.get key)).1.map fun _ =>
            (begun metadata toISOString past).counter key) } := by
  rw [begun, h]

theorem begun_of_set {r : R} {time : Nat} {call : Call H} {key : String} {count ttl : Nat}
    (h : (reached metadata toISOString past).performs i =
      some (r, time, call, .set key count ttl)) :
    begun metadata toISOString (i :: past) =
      { begun metadata toISOString past with
        counter := Function.update (begun metadata toISOString past).counter key
          (((begun metadata toISOString past).found r).getD
            ((reached metadata toISOString past).shared.at time)) } := by
  rw [begun, h]

theorem begun_of_none (h : (reached metadata toISOString past).performs i = none) :
    begun metadata toISOString (i :: past) = begun metadata toISOString past := by
  rw [begun, h]

theorem stageOf_of_performs {r : R} {time : Nat} {call : Call H} {o : CacheOp}
    (h : (reached metadata toISOString past).performs i = some (r, time, call, o)) (r' : R) :
    stageOf metadata toISOString (i :: past) r' =
      if r' = r then
        protocol.next (stageOf metadata toISOString past r) o
          (handle time (reached metadata toISOString past).shared o).1
      else stageOf metadata toISOString past r' := by
  show protocol.note (system metadata toISOString) .beginning (reached metadata toISOString past) i
    (stageOf metadata toISOString past) r' = _
  rw [Protocol.note_performs h, Function.update_apply]
  rfl

theorem stageOf_of_none (h : (reached metadata toISOString past).performs i = none) :
    stageOf metadata toISOString (i :: past) = stageOf metadata toISOString past :=
  Protocol.stages_of_none h

theorem allows_of_performs {r : R} {time : Nat} {call : Call H} {o : CacheOp}
    (h : (reached metadata toISOString past).performs i = some (r, time, call, o)) :
    protocol.Allows (stageOf metadata toISOString past r) o :=
  Protocol.allows_of_performs (P := protocol) (follows_start metadata toISOString) h

section

variable (hcounted : Counted metadata toISOString past)

include hcounted

/-- What is found of a counter is what it counts. -/
theorem Counted.answer {time : Nat} {key : String} {count : Nat}
    (h : (handle time (reached metadata toISOString past).shared (.get key)).1 = some count) :
    count ≤ admittedSince key ((begun metadata toISOString past).counter key)
      (admissions metadata toISOString past) := by
  obtain ⟨entry, hentry, hread⟩ := Option.bind_eq_some_iff.mp h
  unfold Entry.read at hread
  split at hread
  next =>
    cases hread
    exact hcounted.counter key entry hentry
  next => cases hread

/-- What a request has found still counts when more requests were let through. -/
theorem Counted.found_later {r : R} {key : String} {count clock : Nat} {log : List (Admission H)}
    (hstage : stageOf metadata toISOString past r = .read key count)
    (hclock : (reached metadata toISOString past).shared.clock ≤ clock)
    (hlog : ∀ since, admittedSince key since (admissions metadata toISOString past) ≤
      admittedSince key since log) :
    match (begun metadata toISOString past).found r with
    | some since => since ≤ clock ∧ count ≤ admittedSince key since log
    | none => count = 0 := by
  have hfound := hcounted.found r key count hstage
  cases hsince : (begun metadata toISOString past).found r with
  | none =>
    rw [hsince] at hfound
    exact hfound
  | some since =>
    rw [hsince] at hfound
    exact ⟨hfound.1.trans hclock, hfound.2.trans (hlog since)⟩

theorem Counted.get {r : R} {time : Nat} {call : Call H} {key : String}
    (h : (reached metadata toISOString past).performs i = some (r, time, call, .get key)) :
    Counted metadata toISOString (i :: past) := by
  have hadmissions : admissions metadata toISOString (i :: past) =
      admissions metadata toISOString past := effects_of_none (admits_of_get h)
  have hclock : (reached metadata toISOString past).shared.clock ≤
      (reached metadata toISOString (i :: past)).shared.clock := clock_cons
  refine ⟨?_, ?_, ?_⟩
  · intro key' entry hentry
    rw [shared_of_performs h] at hentry
    rw [begun_of_get h, hadmissions]
    exact hcounted.counter key' entry hentry
  · intro key'
    rw [begun_of_get h]
    exact (hcounted.begun_le key').trans hclock
  · intro r' key' count hstage
    rw [stageOf_of_performs h] at hstage
    rw [begun_of_get h, hadmissions]
    dsimp only
    rw [Function.update_apply]
    split at hstage
    next hr =>
      subst hr
      rw [if_pos rfl]
      -- Only a request that begins is then at a counter.
      cases hbefore : stageOf metadata toISOString past r' with
      | beginning =>
        rw [hbefore] at hstage
        cases hanswer : (handle time (reached metadata toISOString past).shared (.get key)).1 with
        | none =>
          rw [hanswer] at hstage
          cases hstage
          exact rfl
        | some current =>
          rw [hanswer] at hstage
          cases hstage
          exact ⟨(hcounted.begun_le key).trans hclock, hcounted.answer hanswer⟩
      | read key'' count' =>
        rw [hbefore] at hstage
        cases hstage
      | allowed =>
        rw [hbefore] at hstage
        cases hstage
      | refused =>
        rw [hbefore] at hstage
        cases hstage
    next hr =>
      rw [if_neg hr]
      exact hcounted.found_later hstage hclock fun _ => le_refl _

/-- What a request that sets a counter has found. -/
theorem Counted.found_of_set {r : R} {time : Nat} {call : Call H} {key : String}
    {count ttl : Nat}
    (h : (reached metadata toISOString past).performs i =
      some (r, time, call, .set key count ttl)) :
    let since := ((begun metadata toISOString past).found r).getD
      ((reached metadata toISOString past).shared.at time)
    since ≤ (reached metadata toISOString past).shared.at time ∧
      count ≤ admittedSince key since (admissions metadata toISOString past) + 1 := by
  have hallows := allows_of_performs h
  cases hstage : stageOf metadata toISOString past r with
  | beginning =>
    rw [hstage] at hallows
    exact hallows.elim
  | allowed =>
    rw [hstage] at hallows
    exact hallows.elim
  | refused =>
    rw [hstage] at hallows
    exact hallows.elim
  | read key' current =>
    rw [hstage] at hallows
    obtain ⟨rfl, rfl⟩ := hallows
    have hfound := hcounted.found r _ current hstage
    cases hsince : (begun metadata toISOString past).found r with
    | none =>
      rw [hsince] at hfound
      rw [hfound]
      exact ⟨le_refl _, Nat.succ_le_succ (Nat.zero_le _)⟩
    | some since =>
      rw [hsince] at hfound
      exact ⟨hfound.1.trans (le_max_left _ _), Nat.succ_le_succ hfound.2⟩

/-- A request that is let through counts itself. -/
theorem Counted.set {r : R} {time : Nat} {call : Call H} {key : String} {count ttl : Nat}
    (h : (reached metadata toISOString past).performs i =
      some (r, time, call, .set key count ttl)) :
    Counted metadata toISOString (i :: past) := by
  have hclock : (reached metadata toISOString past).shared.clock ≤
      (reached metadata toISOString (i :: past)).shared.clock := clock_cons
  have hshared := shared_of_performs h
  have hadmissions : admissions metadata toISOString (i :: past) = _ :=
    effects_of_some (admits_of_set h)
  have hgrows (client : String) (since : Nat) :
      admittedSince client since (admissions metadata toISOString past) ≤
        admittedSince client since (admissions metadata toISOString (i :: past)) := by
    rw [hadmissions]
    exact admittedSince_le_cons _ _ client since
  obtain ⟨hsince, hcount⟩ := hcounted.found_of_set h
  refine ⟨?_, ?_, ?_⟩
  · intro key' entry hentry
    rw [begun_of_set h]
    dsimp only
    by_cases hkey : key' = key
    · subst hkey
      rw [hshared, entries_set_self] at hentry
      cases hentry
      rw [Function.update_self, hadmissions]
      have hself := @admittedSince_cons H ⟨key', call.handler, call.config metadata, _⟩
        (admissions metadata toISOString past) _ hsince
      exact hcount.trans hself.ge
    · rw [hshared, entries_set_of_ne (Ne.symm hkey)] at hentry
      rw [Function.update_of_ne hkey]
      exact (hcounted.counter key' entry hentry).trans (hgrows _ _)
  · intro key'
    rw [begun_of_set h]
    dsimp only
    by_cases hkey : key' = key
    · subst hkey
      rw [Function.update_self, hshared, clock_handle]
      exact hsince
    · rw [Function.update_of_ne hkey]
      exact (hcounted.begun_le key').trans hclock
  · intro r' key' current hstage
    rw [stageOf_of_performs h] at hstage
    rw [begun_of_set h]
    split at hstage
    next hr =>
      -- The request is done with the counter.
      cases hbefore : stageOf metadata toISOString past r <;> rw [hbefore] at hstage <;>
        cases hstage
    next =>
      exact hcounted.found_later hstage hclock (hgrows key')

end

theorem counted (schedule : List (Event Nat (Call H) R)) :
    Counted metadata toISOString schedule := by
  induction schedule with
  | nil => exact ⟨nofun, fun _ => le_refl _, nofun⟩
  | cons i past ih =>
    cases hperforms : (reached metadata toISOString past).performs i with
    | none =>
      have hadmissions : admissions metadata toISOString (i :: past) =
          admissions metadata toISOString past := effects_of_none (admits_of_idle hperforms)
      refine ⟨?_, ?_, ?_⟩
      · rw [shared_of_idle hperforms, begun_of_none hperforms, hadmissions]
        exact ih.counter
      · rw [shared_of_idle hperforms, begun_of_none hperforms]
        exact ih.begun_le
      · rw [shared_of_idle hperforms, begun_of_none hperforms, hadmissions,
          stageOf_of_none hperforms]
        exact ih.found
    | some moved =>
      obtain ⟨r, time, call, o⟩ := moved
      cases o with
      | get key => exact ih.get hperforms
      | set key count ttl => exact ih.set hperforms

/-! ## What is refused -/

/-- The protocol of an endpoint with this limit. -/
def limiting (limit : Nat) : Protocol cacheInterface Stage where
  Allows
    | .read _ count, .get _ => limit < count + 1
    | stage, o => protocol.Allows stage o
  next := protocol.next

theorem follows_limiting {limit : Nat} {call : Call H}
    (hlimit : (call.config metadata).limit = limit) :
    (canActivate metadata toISOString call).Follows (limiting limit)
      (fun stage _ => stage = .allowed) (fun stage _ => stage = .refused) .beginning := by
  subst hlimit
  unfold canActivate checkRateLimit
  rw [Process.bind_assoc, Process.perform_bind]
  refine ⟨trivial, fun current => ?_⟩
  dsimp only
  split
  · next hover => exact ⟨hover, fun _ _ => rfl⟩
  · exact ⟨⟨rfl, rfl⟩, fun _ => ⟨trivial, fun _ _ => rfl⟩⟩

/-- The request is about to be refused, or has been. -/
def Over (limit : Nat) : Stage → Prop
  | .read _ count => limit < count + 1
  | .refused => True
  | _ => False

section Refused

variable {limit windowMs : Nat} {r : R} {call : Call H} {x : TooManyRequests}

theorem request_of_error
    (h : (reached metadata toISOString schedule).result r = some (call, .error x)) :
    (reached metadata toISOString schedule).request r = some (call, .fail x) := by
  unfold Pool.result at h
  split at h
  next => cases h
  next hr =>
    cases h
    exact hr
  next => cases h

/-- A request that is refused has found the counter at the limit. -/
theorem read_of_refused
    (hconfig : ∀ r time call, Event.call r time call ∈ schedule →
      (call.config metadata).limit = limit)
    (h : (reached metadata toISOString schedule).result r = some (call, .error x)) :
    ∃ i past time, i :: past <:+ schedule ∧
      (reached metadata toISOString past).performs i =
        some (r, time, call, .get call.client) ∧
      stageOf metadata toISOString past r = .beginning ∧
      limit < (handle time (reached metadata toISOString past).shared
        (.get call.client)).1.getD 0 + 1 := by
  have hstart : ∀ r time call, Event.call r time call ∈ schedule →
      (canActivate metadata toISOString call).Follows (limiting limit)
        (fun stage _ => stage = .allowed) (fun stage _ => stage = .refused) .beginning :=
    fun r time call hmem => follows_limiting (hconfig r time call hmem)
  have hrequest := request_of_error h
  have hfollows (past : List (Event Nat (Call H) R)) (hpast : past <:+ schedule) : ∀ r call process,
      (reached metadata toISOString past).request r = some (call, process) →
      process.Follows (limiting limit) (fun stage _ => stage = .allowed)
        (fun stage _ => stage = .refused) (stageOf metadata toISOString past r) :=
    Protocol.follows_of_calls fun r time call hmem => hstart r time call (hpast.subset hmem)
  have hstage : stageOf metadata toISOString schedule r = .refused :=
    hfollows schedule (List.suffix_refl _) r call _ hrequest
  have hlast : Over limit ((limiting limit).stages (system metadata toISOString) .beginning
      Cache.empty schedule r) := by
    show Over limit (stageOf metadata toISOString schedule r)
    rw [hstage]
    trivial
  obtain ⟨i, past, hs, time, call', o, hperforms, hnot, hover⟩ :=
    Protocol.occurs_entry (Q := Over limit) id hlast
  obtain ⟨k, hawaits⟩ := System.awaits_of_performs hperforms
  have hpast : past <:+ schedule := (List.suffix_cons i past).trans hs
  have hcall : call' = call := by
    obtain ⟨process, hkept⟩ := System.call_kept hpast hawaits
    cases hkept.symm.trans hrequest
    rfl
  subst hcall
  have hallows := (hfollows past hpast r call' _ hawaits).1
  have hkey : Operates metadata call' o := operates_of_performs hperforms
  change ¬ Over limit (stageOf metadata toISOString past r) at hnot
  change Over limit (protocol.next (stageOf metadata toISOString past r) o
    (handle time (reached metadata toISOString past).shared o).1) at hover
  refine ⟨i, past, time, hs, ?_⟩
  cases hbefore : stageOf metadata toISOString past r with
  | beginning =>
    rw [hbefore] at hallows hover
    cases o with
    | set key count ttl => exact hallows.elim
    | get key =>
      cases hkey
      exact ⟨hperforms, rfl, hover⟩
  | read key count =>
    rw [hbefore] at hallows hnot hover
    cases o with
    | get key => exact absurd hallows hnot
    | set key' count' ttl => exact hover.elim
  | allowed =>
    rw [hbefore] at hover
    exact hover.elim
  | refused =>
    rw [hbefore] at hnot
    exact absurd trivial hnot

theorem time_le_clock {y : Admission H}
    (h : y ∈ admissions metadata toISOString past) :
    y.time ≤ (reached metadata toISOString past).shared.clock := by
  obtain ⟨earlier, later, hsplit⟩ := List.append_of_mem h
  have hsuffix : y :: later <:+ admissions metadata toISOString past := ⟨earlier, hsplit.symm⟩
  obtain ⟨i, before, hs, hadmits, -⟩ := event_of_effect hsuffix
  obtain ⟨r, time, call, count, ttl, hperforms, -, htime⟩ := performs_of_admits hadmits
  rw [htime]
  calc (reached metadata toISOString before).shared.at time
    _ = (reached metadata toISOString (i :: before)).shared.clock := by
        rw [shared_of_performs hperforms, clock_handle]
    _ ≤ (reached metadata toISOString past).shared.clock := clock_suffix hs

/-- A counter that was begun within the window counts requests that are within it. -/
theorem Counted.admitted_of_over (hcounted : Counted metadata toISOString past) {time : Nat}
    {key : String}
    (hfound : (handle time (reached metadata toISOString past).shared (.get key)).1 ≠ none →
      (reached metadata toISOString past).shared.at time <
        (begun metadata toISOString past).counter key + windowMs)
    (hover : limit < (handle time (reached metadata toISOString past).shared
      (.get key)).1.getD 0 + 1) :
    limit ≤ admittedWithin key ((reached metadata toISOString past).shared.at time) windowMs
      (admissions metadata toISOString past) := by
  cases hanswer : (handle time (reached metadata toISOString past).shared (.get key)).1 with
  | none =>
    rw [hanswer] at hover
    exact (Nat.le_of_lt_succ hover).trans (Nat.zero_le _)
  | some count =>
    rw [hanswer] at hover hfound
    have hintime := hfound nofun
    have hwithin : ∀ y ∈ ofClient key (admissions metadata toISOString past),
        decide ((begun metadata toISOString past).counter key ≤ y.time) = true →
        decide (y.time ≤ (reached metadata toISOString past).shared.at time ∧
          (reached metadata toISOString past).shared.at time < y.time + windowMs) = true := by
      intro y hy hsince
      have hclock := time_le_clock (List.mem_of_mem_filter hy)
      exact decide_eq_true ⟨hclock.trans (le_max_left _ _),
        hintime.trans_le (Nat.add_le_add_right (of_decide_eq_true hsince) _)⟩
    calc limit
      _ ≤ count := Nat.le_of_lt_succ hover
      _ ≤ admittedSince key ((begun metadata toISOString past).counter key)
            (admissions metadata toISOString past) := hcounted.answer hanswer
      _ ≤ _ := List.countP_mono_left hwithin

theorem admittedWithin_suffix {client : String} {now : Nat} (hs : past <:+ schedule) :
    admittedWithin client now windowMs (admissions metadata toISOString past) ≤
      admittedWithin client now windowMs (admissions metadata toISOString schedule) := by
  have hsuffix : admissions metadata toISOString past <:+
      admissions metadata toISOString schedule := effects_suffix hs
  exact List.Sublist.countP_le (hsuffix.sublist.filter _)

end Refused

/-- Where all requests are to endpoints with one limit and one window, and no request finds a
counter that was begun a window or more ago: a request is refused only if as many requests of its
client as the limit says were let through within the window before it looked; and a client of which
fewer are let through in every window is never refused. -/
theorem refused_at_limit (metadata : H → Option PartialConfig) (toISOString : Nat → String)
    (limit windowMs : Nat) (schedule : List (Event Nat (Call H) R))
    (hconfig : ∀ r time call, Event.call r time call ∈ schedule →
      call.config metadata = ⟨limit, windowMs⟩)
    (h : Guarded (FoundInTime metadata toISOString windowMs) schedule) :
    (∀ r call x, (reached metadata toISOString schedule).result r = some (call, .error x) →
      ∃ i past time, i :: past <:+ schedule ∧
        (reached metadata toISOString past).performs i =
          some (r, time, call, .get call.client) ∧
        limit ≤ admittedWithin call.client ((reached metadata toISOString past).shared.at time)
          windowMs (admissions metadata toISOString past)) ∧
    ∀ client, (∀ now, admittedWithin client now windowMs
        (admissions metadata toISOString schedule) < limit) →
      ∀ r call x, (reached metadata toISOString schedule).result r = some (call, .error x) →
        call.client ≠ client := by
  have hrefused : ∀ r call x,
      (reached metadata toISOString schedule).result r = some (call, .error x) →
      ∃ i past time, i :: past <:+ schedule ∧
        (reached metadata toISOString past).performs i =
          some (r, time, call, .get call.client) ∧
        limit ≤ admittedWithin call.client ((reached metadata toISOString past).shared.at time)
          windowMs (admissions metadata toISOString past) := by
    intro r call x hresult
    obtain ⟨i, past, time, hs, hperforms, hstage, hover⟩ := read_of_refused
      (fun r time call hmem => congrArg RateLimitConfig.limit (hconfig r time call hmem)) hresult
    have hintime := (h.suffix hs).1 r time call call.client hperforms hstage
    exact ⟨i, past, time, hs, hperforms, (counted past).admitted_of_over hintime hover⟩
  refine ⟨hrefused, ?_⟩
  rintro client hbelow r call x hresult rfl
  obtain ⟨i, past, time, hs, -, hlimit⟩ := hrefused r call x hresult
  have hpast : past <:+ schedule := (List.suffix_cons i past).trans hs
  exact absurd (hlimit.trans (admittedWithin_suffix hpast)) (not_le.mpr (hbelow _))

/-- Four password resets within an hour. -/
def exampleHour : List (Event Nat (Call String) Nat) :=
  [exampleServed 4 1800000 "forgotPassword", exampleServed 3 1200000 "forgotPassword",
    exampleServed 2 600000 "forgotPassword", exampleServed 1 0 "forgotPassword"].flatten

/-- The last of them is refused. -/
theorem refused_at_limit_hour :
    ∃ i past time, i :: past <:+ exampleHour ∧
      (reached exampleMetadata toString past).performs i = some (4, time,
        exampleCall "forgotPassword", .get (exampleCall "forgotPassword").client) ∧
      3 ≤ admittedWithin (exampleCall "forgotPassword").client
        ((reached exampleMetadata toString past).shared.at time) 3600000
        (admissions exampleMetadata toString past) := by
  have hconfig : ∀ r time call, Event.call r time call ∈ exampleHour →
      call.config exampleMetadata = ⟨3, 3600000⟩ := by
    intro r time call hmem
    simp only [exampleHour, exampleServed, List.flatten_cons, List.flatten_nil, List.cons_append,
      List.nil_append, List.mem_cons, List.not_mem_nil, reduceCtorEq, false_or, or_false] at hmem
    rcases hmem with h | h | h | h <;> cases h <;> decide
  have hguarded : Guarded (FoundInTime exampleMetadata toString 3600000) exampleHour := by
    decide +kernel
  have hresult : (reached exampleMetadata toString exampleHour).result 4 =
      some (exampleCall "forgotPassword", .error
        ⟨⟨"3", "0", "5400000"⟩, "Rate limit exceeded. Please slow down your requests.",
          "5400000"⟩) := by
    decide +kernel
  exact (refused_at_limit exampleMetadata toString 3 3600000 exampleHour hconfig hguarded).1 _ _ _
    hresult

/-- A password reset every fifty minutes. -/
def exampleSteady : List (Event Nat (Call String) Nat) :=
  [exampleServed 4 9000000 "forgotPassword", exampleServed 3 6000000 "forgotPassword",
    exampleServed 2 3000000 "forgotPassword", exampleServed 1 0 "forgotPassword"].flatten

/-- There are never more than two in an hour where the limit is three, and the fourth is refused. -/
theorem steady_client_refused :
    (∀ now, admittedWithin (exampleCall "forgotPassword").client now 3600000
      (admissions exampleMetadata toString exampleSteady) < 3) ∧
    (reached exampleMetadata toString exampleSteady).result 4 =
      some (exampleCall "forgotPassword", .error
        ⟨⟨"3", "0", "12600000"⟩, "Rate limit exceeded. Please slow down your requests.",
          "12600000"⟩) := by
  refine ⟨fun now => ?_, by decide +kernel⟩
  have hadmissions : ofClient (exampleCall "forgotPassword").client
      (admissions exampleMetadata toString exampleSteady) =
      [6000000, 3000000, 0].map fun time =>
        ⟨(exampleCall "forgotPassword").client, "forgotPassword", ⟨3, 3600000⟩, time⟩ := by
    decide +kernel
  rw [admittedWithin, hadmissions, List.countP_map]
  simp only [List.countP_cons, List.countP_nil, Function.comp_apply, decide_eq_true_eq]
  split <;> split <;> split <;> omega

end Scoopdope.RateLimit

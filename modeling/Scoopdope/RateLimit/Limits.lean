import Scoopdope.Async.CheckThenAct
import Scoopdope.RateLimit.Service
import Scoopdope.Server.Windows

/-!
# Rate limits: how many requests are let through

`checkRateLimit` reads the counter of the client and sets it in a second step, and each time it
sets the counter it makes it expire when the window of this endpoint has passed.

`rate_limits_hold`: the limits hold in every schedule in which each request is `CountedInTime`: the
counter that it read had not expired while an earlier request still counted, and nobody set it
since. The first condition fails where endpoints have windows of different lengths
(`limits_overrun`).

The counter is at least the number of requests that still count (`counts_of_countedInTime`).
-/

namespace Scoopdope.RateLimit

open Async Soroban Windows

variable {H R : Type} [DecidableEq R] (metadata : H → Option PartialConfig)
  (toISOString : Nat → String)

/-- The pool after a schedule that begins with an empty cache. -/
def reached (schedule : List (Event Nat (Call H) R)) :
    Pool cacheInterface Nat TooManyRequests Headers Cache (Call H) R :=
  after (system metadata toISOString).exec (Pool.idle Cache.empty) schedule

/-! ## What one request does -/

/-- How far a request has come. -/
inductive Stage
  | beginning
  | read (key : String) (count : Nat)
  | allowed
  | refused

def protocol : Protocol cacheInterface Stage where
  Allows
    | .beginning, .get _ => True
    | .read _ _, .get _ => True
    | .read key count, .set key' count' _ => key' = key ∧ count' = count + 1
    | .allowed, .get _ => True
    | _, _ => False
  next
    | .beginning, .get key, current => .read key (Option.getD current 0)
    | .read _ _, .set _ _ _, _ => .allowed
    | .allowed, _, _ => .allowed
    | _, _, _ => .refused

/-- What passes has been let through by `checkRateLimit`, and what is refused has not. -/
theorem follows_start (call : Call H) :
    (canActivate metadata toISOString call).Follows protocol (fun stage _ => stage = .allowed)
      (fun stage _ => stage = .refused) .beginning := by
  unfold canActivate checkRateLimit
  rw [Process.bind_assoc, Process.perform_bind]
  refine ⟨trivial, fun current => ?_⟩
  dsimp only
  split
  · exact ⟨trivial, fun _ _ => rfl⟩
  · exact ⟨⟨rfl, rfl⟩, fun _ => ⟨trivial, fun _ _ => rfl⟩⟩

/-- The operations of a call are on the counter of its client. It is set to what the limit
allows, for the window of the endpoint. -/
def Operates (call : Call H) : CacheOp → Prop
  | .get key => key = call.client
  | .set key count ttl =>
    key = call.client ∧ count ≤ (call.config metadata).limit ∧ ttl = (call.config metadata).windowMs

theorem only_start (call : Call H) :
    (canActivate metadata toISOString call).Only (Operates metadata call) := by
  unfold canActivate checkRateLimit
  rw [Process.bind_assoc, Process.perform_bind]
  refine ⟨rfl, fun current => ?_⟩
  dsimp only
  split
  · exact ⟨rfl, fun _ _ => trivial⟩
  · next hlimit => exact ⟨⟨rfl, not_lt.mp hlimit, rfl⟩, fun _ => ⟨rfl, fun _ _ => trivial⟩⟩

/-! ## What is let through -/

/-- A request that `checkRateLimit` lets through, when it sets the counter. -/
structure Admission (H : Type) where
  client : String
  handler : H
  config : RateLimitConfig
  time : Nat
deriving DecidableEq

variable (schedule past : List (Event Nat (Call H) R)) (i : Event Nat (Call H) R)

/-- The request that is let through at an event. -/
def admits : Option (Admission H) :=
  match (reached metadata toISOString past).performs i with
  | some (_, now, call, .set _ _ _) =>
    some
      { client := call.client
        handler := call.handler
        config := call.config metadata
        time := (reached metadata toISOString past).shared.at now }
  | _ => none

def admissions : List (Admission H) := effects (admits metadata toISOString) schedule

def Admission.window (x : Admission H) : Nat := x.config.windowMs

/-- What is let through of one client, to whatever endpoint. -/
def ofClient (client : String) (log : List (Admission H)) : List (Admission H) :=
  log.filter fun x => x.client = client

/-- What still counts of one client. -/
def counting (client : String) (now : Nat) (log : List (Admission H)) : List (Admission H) :=
  live Admission.time Admission.window now (ofClient client log)

/-- In every interval shorter than the window of an endpoint, at most as many requests of a client
are let through to it as its limit says. -/
def Limited [DecidableEq H] (log : List (Admission H)) : Prop :=
  ∀ (client : String) (handler : H) (config : RateLimitConfig) (first last : Nat),
    last < first + config.windowMs →
      log.countP (fun x => decide (x.client = client ∧ x.handler = handler ∧ x.config = config) &&
        decide (first ≤ x.time ∧ x.time ≤ last)) ≤ config.limit

/-- When a request that sets the counter has read it, the counter had not expired while a request
of the client still counted; and no request of the client was let through since. -/
def CountedInTime : Prop :=
  ∀ r now call key count ttl,
    (reached metadata toISOString past).performs i = some (r, now, call, .set key count ttl) →
    ∀ j before now' call', j :: before <:+ past →
      (reached metadata toISOString before).performs j = some (r, now', call', .get key) →
      ((handle now' (reached metadata toISOString before).shared (.get key)).1 = none →
        counting key ((reached metadata toISOString before).shared.at now')
          (admissions metadata toISOString before) = []) ∧
      ofClient key (admissions metadata toISOString past) =
        ofClient key (admissions metadata toISOString before)

variable {metadata toISOString schedule past i}

/-- A request that sets the counter has read it before, and has found one less. -/
theorem read_of_sets {r : R} {now : Nat} {call : Call H} {key : String} {count ttl : Nat}
    (h : (reached metadata toISOString past).performs i =
      some (r, now, call, .set key count ttl)) :
    ∃ j before now' call', j :: before <:+ past ∧
      (reached metadata toISOString before).performs j = some (r, now', call', .get key) ∧
      count = Option.getD
        (handle now' (reached metadata toISOString before).shared (.get key)).1 0 + 1 := by
  have hallows : protocol.Allows
      (protocol.stages (system metadata toISOString) .beginning Cache.empty past r)
      (.set key count ttl) :=
    Protocol.allows_of_performs (P := protocol) (follows_start metadata toISOString) h
  cases hstage : protocol.stages (system metadata toISOString) .beginning Cache.empty past r with
  | beginning => rw [hstage] at hallows; exact hallows.elim
  | allowed => rw [hstage] at hallows; exact hallows.elim
  | refused => rw [hstage] at hallows; exact hallows.elim
  | read key' current =>
    rw [hstage] at hallows
    obtain ⟨rfl, rfl⟩ := hallows
    let Reads : (o : CacheOp) → cacheInterface.Answer o → Prop
      | .get key', answer => key' = key ∧ Option.getD answer 0 = current
      | .set _ _ _, _ => False
    have hbeginning : Stage.beginning ≠ .read key current := by rintro ⟨⟩
    have hread : Occurs (Protocol.Answered (system metadata toISOString) Cache.empty Reads r)
        past := by
      refine Protocol.occurs_of_stages (P := protocol) (Q := fun stage => stage = .read key current)
        (follows_start metadata toISOString) hbeginning (fun stage o answer hallows hnext => ?_)
        hstage
      cases stage <;> cases o <;> cases hnext
      exact .inr ⟨rfl, rfl⟩
    obtain ⟨j, before, hs, now', call', o, hperforms, hreads⟩ := hread
    cases o with
    | set key count ttl => exact hreads.elim
    | get key' =>
      obtain ⟨rfl, rfl⟩ := hreads
      exact ⟨j, before, now', call', hs, hperforms, rfl⟩

theorem operates_of_performs {r : R} {now : Nat} {call : Call H} {o : CacheOp}
    (h : (reached metadata toISOString past).performs i = some (r, now, call, o)) :
    Operates metadata call o :=
  System.only_of_performs (Operates metadata) (only_start metadata toISOString) h

/-! ## The cache along a schedule -/

theorem shared_of_performs {r : R} {now : Nat} {call : Call H} {o : CacheOp}
    (h : (reached metadata toISOString past).performs i = some (r, now, call, o)) :
    (reached metadata toISOString (i :: past)).shared =
      (handle now (reached metadata toISOString past).shared o).2 :=
  System.shared_of_performs (System.after_exec (system metadata toISOString) past i) h

theorem shared_of_idle (h : (reached metadata toISOString past).performs i = none) :
    (reached metadata toISOString (i :: past)).shared =
      (reached metadata toISOString past).shared :=
  System.shared_of_idle (System.after_exec (system metadata toISOString) past i) h

theorem clock_handle (now : Nat) (cache : Cache) (o : CacheOp) :
    (handle now cache o).2.clock = cache.at now := by
  cases o <;> rfl

theorem entries_set_self (now : Nat) (cache : Cache) (key : String) (count ttl : Nat) :
    (handle now cache (.set key count ttl)).2.entries key = some ⟨count, cache.at now + ttl⟩ :=
  Function.update_self key _ _

theorem entries_set_of_ne {now : Nat} {cache : Cache} {key key' : String} {count ttl : Nat}
    (h : key ≠ key') :
    (handle now cache (.set key count ttl)).2.entries key' = cache.entries key' :=
  Function.update_of_ne h.symm _ _

theorem clock_cons : (reached metadata toISOString past).shared.clock ≤
    (reached metadata toISOString (i :: past)).shared.clock := by
  cases hperforms : (reached metadata toISOString past).performs i with
  | none => rw [shared_of_idle hperforms]
  | some moved =>
    obtain ⟨r, now, call, o⟩ := moved
    rw [shared_of_performs hperforms, clock_handle]
    exact le_max_left _ _

/-- Time does not go back. -/
theorem clock_suffix (h : past <:+ schedule) : (reached metadata toISOString past).shared.clock ≤
    (reached metadata toISOString schedule).shared.clock := by
  induction schedule with
  | nil => rw [List.suffix_nil.mp h]
  | cons i earlier ih =>
    rcases List.suffix_cons_iff.mp h with rfl | h
    · exact le_refl _
    · exact (ih h).trans clock_cons

/-! ## The counter and what still counts -/

theorem admits_of_set {r : R} {now : Nat} {call : Call H} {key : String} {count ttl : Nat}
    (h : (reached metadata toISOString past).performs i =
      some (r, now, call, .set key count ttl)) :
    admits metadata toISOString past i =
      some ⟨key, call.handler, call.config metadata,
        (reached metadata toISOString past).shared.at now⟩ := by
  obtain ⟨rfl, -, -⟩ := operates_of_performs h
  rw [admits, h]

theorem admits_of_get {r : R} {now : Nat} {call : Call H} {key : String}
    (h : (reached metadata toISOString past).performs i = some (r, now, call, .get key)) :
    admits metadata toISOString past i = none := by
  rw [admits, h]

theorem admits_of_idle (h : (reached metadata toISOString past).performs i = none) :
    admits metadata toISOString past i = none := by
  rw [admits, h]

theorem countedInTime_of_none (h : admits metadata toISOString past i = none) :
    CountedInTime metadata toISOString past i := by
  intro r now call key count ttl hperforms
  rw [admits_of_set hperforms] at h
  cases h

theorem performs_of_admits {x : Admission H} (h : admits metadata toISOString past i = some x) :
    ∃ r now call count ttl, (reached metadata toISOString past).performs i =
        some (r, now, call, .set x.client count ttl) ∧ count ≤ x.config.limit ∧
      x.time = (reached metadata toISOString past).shared.at now := by
  unfold admits at h
  split at h
  · next r now call key count ttl hperforms =>
    cases h
    obtain ⟨rfl, hcount, -⟩ := operates_of_performs hperforms
    exact ⟨r, now, call, count, ttl, hperforms, hcount, rfl⟩
  · cases h

theorem ofClient_cons_of_ne {x : Admission H} {log : List (Admission H)} {client : String}
    (h : x.client ≠ client) : ofClient client (x :: log) = ofClient client log :=
  List.filter_cons_of_neg fun hclient => h (of_decide_eq_true hclient)

theorem length_counting_cons_le {x : Admission H} {log : List (Admission H)} {client : String}
    {now : Nat} :
    (counting client now (x :: log)).length ≤ (counting client now log).length + 1 := by
  by_cases hclient : x.client = client
  · have hhead : ofClient client (x :: log) = x :: ofClient client log :=
      List.filter_cons_of_pos (decide_eq_true hclient)
    unfold counting
    rw [hhead]
    exact length_live_cons_le
  · unfold counting
    rw [ofClient_cons_of_ne hclient]
    exact Nat.le_succ _

variable (metadata toISOString past) in
/-- The counter of each client is at least what still counts of the client. -/
def Counts : Prop :=
  ∀ client, (counting client (reached metadata toISOString past).shared.clock
      (admissions metadata toISOString past)).length ≤
    ((reached metadata toISOString past).shared.entries client).elim 0 Entry.count

/-- Who sets the counter in time sets it above what still counts. -/
theorem counting_lt_of_set
    (hpast : ∀ earlier, earlier <:+ past → Counts metadata toISOString earlier)
    (hintime : CountedInTime metadata toISOString past i) {r : R} {now : Nat} {call : Call H}
    {key : String} {count ttl : Nat}
    (h : (reached metadata toISOString past).performs i =
      some (r, now, call, .set key count ttl)) :
    (counting key ((reached metadata toISOString past).shared.at now)
      (admissions metadata toISOString past)).length < count := by
  obtain ⟨j, before, now', call', hs, hread, rfl⟩ := read_of_sets h
  obtain ⟨hexpired, hsame⟩ := hintime r now call key _ ttl h j before now' call' hs hread
  have htime : (reached metadata toISOString before).shared.at now' ≤
      (reached metadata toISOString past).shared.at now :=
    calc (reached metadata toISOString before).shared.at now'
      _ = (reached metadata toISOString (j :: before)).shared.clock := by
          rw [shared_of_performs hread, clock_handle]
      _ ≤ (reached metadata toISOString past).shared.clock := clock_suffix hs
      _ ≤ (reached metadata toISOString past).shared.at now := le_max_left _ _
  have hthen : (counting key ((reached metadata toISOString past).shared.at now)
        (admissions metadata toISOString past)).length ≤
      (counting key ((reached metadata toISOString before).shared.at now')
        (admissions metadata toISOString before)).length := by
    unfold counting
    rw [hsame]
    exact length_live_anti htime
  refine Nat.lt_succ_of_le (hthen.trans ?_)
  cases hanswer : (handle now' (reached metadata toISOString before).shared (.get key)).1 with
  | none =>
    rw [hexpired hanswer]
    exact Nat.zero_le _
  | some current =>
    -- What is read is what is stored, and that is enough already at the clock's last time.
    obtain ⟨entry, hentry, hread'⟩ := Option.bind_eq_some_iff.mp hanswer
    unfold Entry.read at hread'
    split at hread'
    · cases hread'
      have hcounts := hpast before ((List.suffix_cons j before).trans hs) key
      rw [hentry] at hcounts
      refine le_trans ?_ hcounts
      exact length_live_anti (le_max_left _ _)
    · cases hread'

theorem Counts.next (hpast : ∀ earlier, earlier <:+ past → Counts metadata toISOString earlier)
    (hintime : CountedInTime metadata toISOString past i) :
    Counts metadata toISOString (i :: past) := by
  intro client
  have hcounts := hpast past (List.suffix_refl _) client
  have hclock : (reached metadata toISOString past).shared.clock ≤
      (reached metadata toISOString (i :: past)).shared.clock := clock_cons
  cases hperforms : (reached metadata toISOString past).performs i with
  | none =>
    rw [admissions, effects_of_none (admits_of_idle hperforms), shared_of_idle hperforms]
    exact hcounts
  | some moved =>
    obtain ⟨r, now, call, o⟩ := moved
    have hshared := shared_of_performs hperforms
    cases o with
    | get key =>
      rw [admissions, effects_of_none (admits_of_get hperforms)]
      refine (length_live_anti hclock).trans ?_
      rw [hshared]
      exact hcounts
    | set key count ttl =>
      rw [admissions, effects_of_some (admits_of_set hperforms)]
      by_cases hclient : key = client
      · subst hclient
        have hlt := counting_lt_of_set hpast hintime hperforms
        rw [hshared, clock_handle, entries_set_self]
        exact length_counting_cons_le.trans hlt
      · refine le_trans ?_ (hcounts.trans ?_)
        · unfold counting
          rw [ofClient_cons_of_ne hclient]
          exact length_live_anti hclock
        · rw [hshared, entries_set_of_ne hclient]

theorem counts_of_countedInTime (h : Guarded (CountedInTime metadata toISOString) schedule) :
    ∀ earlier, earlier <:+ schedule → Counts metadata toISOString earlier := by
  induction schedule with
  | nil =>
    intro earlier hs client
    rw [List.suffix_nil.mp hs]
    exact le_refl 0
  | cons i past ih =>
    intro earlier hs
    rcases List.suffix_cons_iff.mp hs with rfl | hs
    · exact Counts.next (ih h.2) h.1
    · exact ih h.2 earlier hs

/-- The limits hold at the end of every schedule in which each request is counted in time. -/
theorem rate_limits_hold [DecidableEq H] (metadata : H → Option PartialConfig)
    (toISOString : Nat → String) (schedule : List (Event Nat (Call H) R))
    (h : Guarded (CountedInTime metadata toISOString) schedule) :
    Limited (admissions metadata toISOString schedule) := by
  intro client handler config first last hshort
  refine countP_between_le Admission.window (fun x _ hx => ?_)
    (fun x earlier hs hx => ?_) hshort
  · exact congrArg RateLimitConfig.windowMs (of_decide_eq_true hx).2.2
  · obtain ⟨rfl, rfl, rfl⟩ := of_decide_eq_true hx
    obtain ⟨i, past, hpast, hadmits, rfl⟩ := event_of_effect hs
    obtain ⟨r, now, call, count, ttl, hperforms, hcount, htime⟩ := performs_of_admits hadmits
    have hguarded := h.suffix hpast
    have hlt := counting_lt_of_set (counts_of_countedInTime hguarded.2) hguarded.1 hperforms
    calc
      (live Admission.time Admission.window x.time
        (x :: admissions metadata toISOString past)).countP
          (fun y => decide (y.client = x.client ∧ y.handler = x.handler ∧ y.config = x.config))
      _ ≤ (counting x.client x.time (x :: admissions metadata toISOString past)).length :=
          countP_live_le fun y hy => decide_eq_true (of_decide_eq_true hy).1
      _ ≤ (counting x.client x.time (admissions metadata toISOString past)).length + 1 :=
          length_counting_cons_le
      _ ≤ count := by
          rw [htime]
          exact hlt
      _ ≤ x.config.limit := hcount

/-- Password resets have a limit for each hour. -/
def exampleMetadata : String → Option PartialConfig
  | "forgotPassword" => some ⟨some 3, some 3600000⟩
  | _ => none

/-- A request of a guest. -/
def exampleCall (handler : String) : Call String :=
  ⟨⟨none, some "203.0.113.7", none, none⟩, handler⟩

/-- A request that nobody else interrupts. -/
def exampleServed (r now : Nat) (handler : String) : List (Event Nat (Call String) Nat) :=
  [.resume r now, .resume r now, .resume r now, .call r now (exampleCall handler)]

/-- Two password resets, one after the other. -/
def exampleResets : List (Event Nat (Call String) Nat) :=
  exampleServed 2 1 "forgotPassword" ++ exampleServed 1 0 "forgotPassword"

theorem rate_limits_hold_resets :
    (admissions exampleMetadata toString exampleResets).length = 2 ∧
    Limited (admissions exampleMetadata toString exampleResets) := by
  refine ⟨by decide +kernel, rate_limits_hold exampleMetadata toString exampleResets ?_⟩
  have hnone {i : Event Nat (Call String) Nat} {past : List (Event Nat (Call String) Nat)}
      (h : (admits exampleMetadata toString past i).isNone = true) :
      CountedInTime exampleMetadata toString past i :=
    countedInTime_of_none (Option.isNone_iff_eq_none.mp h)
  refine ⟨hnone (by decide +kernel), ?_, hnone (by decide +kernel), hnone (by decide +kernel),
    hnone (by decide +kernel), ?_, hnone (by decide +kernel), hnone (by decide +kernel), trivial⟩
  -- The only read of a request before it sets the counter is the event right before.
  · intro r now call key count ttl h j before now' call' hs hread
    cases h
    change j :: before <:+ [.resume 2 1, .call 2 1 (exampleCall "forgotPassword"), .resume 1 0,
      .resume 1 0, .resume 1 0, .call 1 0 (exampleCall "forgotPassword")] at hs
    simp only [List.suffix_cons_iff, List.suffix_nil] at hs
    rcases hs with heq | heq | heq | heq | heq | heq | heq <;> cases heq <;> cases hread
    exact ⟨nofun, by decide +kernel⟩
  · intro r now call key count ttl h j before now' call' hs hread
    cases h
    simp only [List.suffix_cons_iff, List.suffix_nil] at hs
    rcases hs with heq | heq | heq <;> cases heq <;> cases hread
    exact ⟨fun _ => rfl, rfl⟩

/-- Three password resets, one request to another endpoint, and three more after its minute. -/
def exampleForgotten : List (Event Nat (Call String) Nat) :=
  [exampleServed 7 60006 "forgotPassword", exampleServed 6 60005 "forgotPassword",
    exampleServed 5 60004 "forgotPassword", exampleServed 4 3 "findAll",
    exampleServed 3 2 "forgotPassword", exampleServed 2 1 "forgotPassword",
    exampleServed 1 0 "forgotPassword"].flatten

/-- Four password resets that all read the counter before it is set. -/
def exampleOverlapping : List (Event Nat (Call String) Nat) :=
  [4, 3, 2, 1].map (fun r => .resume r 0) ++ [4, 3, 2, 1].map (fun r => .resume r 0) ++
    [4, 3, 2, 1].map (fun r => .call r 0 (exampleCall "forgotPassword"))

/-- Six password resets in two minutes, or four at once, where the limit is three in an hour. -/
theorem limits_overrun :
    ¬ Limited (admissions exampleMetadata toString exampleForgotten) ∧
    ¬ Limited (admissions exampleMetadata toString exampleOverlapping) := by
  constructor
  · intro h
    have hlimit := h "rate-limit:203.0.113.7" "forgotPassword" ⟨3, 3600000⟩ 0 60006 (by decide)
    revert hlimit
    decide +kernel
  · intro h
    have hlimit := h "rate-limit:203.0.113.7" "forgotPassword" ⟨3, 3600000⟩ 0 0 (by decide)
    revert hlimit
    decide +kernel

end Scoopdope.RateLimit

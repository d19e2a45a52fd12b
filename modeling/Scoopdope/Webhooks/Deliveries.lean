import Scoopdope.Soroban.History
import Scoopdope.Webhooks.Holdings

/-!
# Webhooks: deliveries sent once

`drainQueue` has copies of the deliveries in its queue and in its batch, and each `retryPending` of
those that it has found: `holdings`. What an event does is a number of `Step`s on them
(`steps_next`), if `retryPending` finds no delivery that somebody has a copy of. The query does not
see to that: a delivery that is queued or posted is pending in the table, without a time for a
retry.

`deliveries_unduplicated`: if it never does, and every delivery that was posted is saved, no
delivery is posted twice at once, or after a success, or more than `maxAttempts` times.
-/

namespace Scoopdope.Webhooks

open Async.Custody Database Soroban

variable {R : Type}

/-! ## Copies -/

def waiting (deliveries : List WebhookDelivery) : List Copy := deliveries.map (Copy.mk .waiting)

def Job.copies : Job → List Copy
  | .posting _ delivery => [⟨.posting, delivery⟩]
  | .saving delivery => [⟨.saving, delivery⟩]
  | .done => []

def Retrying.copies : Retrying → List Copy
  | .finding _ => []
  | .findingWebhook delivery pending => waiting (delivery :: pending)
  | .delivering job pending => job.copies ++ waiting pending
  | .done => []

@[simp] theorem Retrying.copies_loop (pending : List WebhookDelivery) :
    (Retrying.loop pending).copies = waiting pending := by
  cases pending <;> rfl

/-- The copies in memory: of `drainQueue`, and of each `retryPending`. -/
def State.holdings (s : State R) : Holdings (Option R) where
  copies
    | none => s.batch.flatMap Job.copies ++ waiting (s.deliveryQueue.map Prod.snd)
    | some r => ((s.retrying r).map Retrying.copies).getD []
  deliveries := s.deliveries
  log := s.log

/-! ## Posts in flight -/

def Job.inFlight : Job → List String
  | .posting _ delivery => [delivery.id]
  | _ => []

def Retrying.inFlight : Retrying → List String
  | .delivering job _ => job.inFlight
  | _ => []

/-- The deliveries whose posts are not answered. -/
def State.inFlight (s : State R) : Option R → List String
  | none => s.batch.flatMap Job.inFlight
  | some r => ((s.retrying r).map Retrying.inFlight).getD []

structure Unduplicated (s : State R) : Prop where
  /-- No two posts of a delivery are in flight. -/
  single : Distinct s.inFlight
  /-- No delivery was posted after a post of it had succeeded. -/
  proper : Proper s.log
  bounded : ∀ id, posts id s.log ≤ maxAttempts

/-- `retryPending` finds only deliveries that nobody has a copy of, and a delivery that was posted
is saved. -/
structure Exclusive (s : State R) (i : Event R) : Prop where
  free : ∀ r around now, i = .retried r around → s.retrying r = some (.finding now) →
    around.fails = false →
      ∀ delivery ∈ findPending around now s.deliveries, Free s.holdings.held delivery.id
  retried : ∀ r around delivery pending, i = .retried r around →
    s.retrying r = some (.delivering (.saving delivery) pending) → around.fails = false
  delivered : ∀ k around delivery, i = .delivered k around →
    s.batch[k]? = some (.saving delivery) → around.fails = false

section InFlight

variable {s : State R}

theorem job_inFlight (job : Job) :
    job.inFlight.Sublist (job.copies.map fun copy => copy.delivery.id) := by
  cases job with
  | posting wh delivery => exact List.Sublist.refl _
  | saving delivery => exact List.nil_sublist _
  | done => exact List.nil_sublist _

/-- What is in flight is in hand. -/
theorem inFlight_held (o : Option R) : (s.inFlight o).Sublist (s.holdings.held o) := by
  cases o with
  | none =>
    change (s.batch.flatMap Job.inFlight).Sublist
      ((s.batch.flatMap Job.copies ++ waiting (s.deliveryQueue.map Prod.snd)).map
        fun copy => copy.delivery.id)
    rw [List.map_append, List.map_flatMap]
    refine List.Sublist.trans ?_ (List.sublist_append_left _ _)
    generalize s.batch = batch
    induction batch with
    | nil => exact List.Sublist.refl _
    | cons job batch ih =>
      rw [List.flatMap_cons, List.flatMap_cons]
      exact (job_inFlight job).append ih
  | some r =>
    change (((s.retrying r).map Retrying.inFlight).getD []).Sublist
      ((((s.retrying r).map Retrying.copies).getD []).map fun copy => copy.delivery.id)
    cases s.retrying r with
    | none => exact List.nil_sublist _
    | some retrying =>
      cases retrying with
      | delivering job pending =>
        change job.inFlight.Sublist ((job.copies ++ waiting pending).map _)
        rw [List.map_append]
        exact (job_inFlight job).trans (List.sublist_append_left _ _)
      | finding now => exact List.nil_sublist _
      | findingWebhook delivery pending => exact List.nil_sublist _
      | done => exact List.nil_sublist _

theorem unduplicated_of_inv (h : s.holdings.Inv) : Unduplicated s where
  single := h.distinct.mono inFlight_held
  proper := h.proper
  bounded := h.bounded

end InFlight

/-! ## Steps of many copies -/

namespace Holdings

variable {O : Type} [DecidableEq O] {h : Holdings O} {o : O}

theorem put_same {copies : List Copy} (hcopies : h.copies o = copies) : h.put o copies = h := by
  rw [← hcopies, put, Function.update_eq_self]

theorem put_put (copies copies' : List Copy) :
    (h.put o copies).put o copies' = h.put o copies' := by
  unfold put
  rw [Function.update_idem]

theorem steps_drop (deliveries : List WebhookDelivery) (hcopies : h.copies o = waiting deliveries) :
    Steps h (h.put o []) := by
  induction deliveries generalizing h with
  | nil =>
    have hnone : h.copies o = [] := hcopies
    rw [put_same hnone]
  | cons delivery deliveries ih =>
    have hstep : Step h (h.put o (waiting deliveries)) := .drop o delivery [] _ hcopies
    refine Relation.ReflTransGen.head hstep ?_
    rw [← put_put (waiting deliveries) []]
    exact ih (Function.update_self _ _ _)

/-- All that waits in a row is posted. -/
theorem steps_post (deliveries : List WebhookDelivery) (l₁ l₂ : List Copy)
    (hcopies : h.copies o = l₁ ++ (waiting deliveries ++ l₂)) :
    Steps h { h.put o (l₁ ++ (deliveries.map (fun d => ⟨.posting, attempted d⟩) ++ l₂)) with
      log := (deliveries.map fun d => Mark.posted d.id).reverse ++ h.log } := by
  induction deliveries generalizing h l₁ with
  | nil =>
    have hnone : h.copies o = l₁ ++ l₂ := hcopies
    rw [List.map_nil, List.map_nil, List.reverse_nil, List.nil_append, List.nil_append,
      put_same hnone]
  | cons delivery deliveries ih =>
    refine Relation.ReflTransGen.head (.post o delivery l₁ _ hcopies) ?_
    have hrest := ih (h := { h.put o (l₁ ++ ⟨.posting, attempted delivery⟩ ::
      (waiting deliveries ++ l₂)) with log := .posted delivery.id :: h.log })
      (l₁ ++ [⟨.posting, attempted delivery⟩]) (by
        rw [List.append_assoc, List.singleton_append]
        exact Function.update_self _ _ _)
    simp only [put, Function.update_idem, List.append_assoc, List.singleton_append] at hrest
    rw [List.map_cons, List.map_cons, List.reverse_cons, List.append_assoc, List.singleton_append]
    exact hrest

end Holdings

/-! ## Events -/

section Events

variable {s : State R}

/-- `drainQueue` has nothing in hand when it is not under way. -/
def Resting (s : State R) : Prop := s.draining = false → s.batch = [] ∧ s.deliveryQueue = []

theorem resting_drainQueue (h : s.draining = true) : Resting (drainQueue s) := by
  unfold Resting drainQueue
  split
  · next hnone => exact fun _ => ⟨rfl, hnone⟩
  · intro hdraining
    rw [h] at hdraining
    cases hdraining

/-- What `find` returns are pending rows, each once. -/
theorem findPending_rows (s : State R) (around : Surroundings) (now : Int) :
    ((findPending around now s.deliveries).map fun row => row.id).Nodup ∧
      ∀ row ∈ findPending around now s.deliveries, row ∈ s.deliveries ∧ row.status = .pending := by
  have hperm := around.order_perm (s.deliveries.find (isPending now))
  constructor
  · have hnodup :
        ((around.order (s.deliveries.find (isPending now))).map fun row => row.id).Nodup :=
      (hperm.map _).nodup_iff.mpr Repository.nodup_find_keys
    exact hnodup.sublist ((List.take_sublist 20 _).map _)
  · intro row hrow
    obtain ⟨hmem, hpending⟩ := Repository.mem_find.mp (hperm.mem_iff.mp (List.mem_of_mem_take hrow))
    unfold isPending at hpending
    rw [Bool.and_eq_true, decide_eq_true_iff] at hpending
    exact ⟨hmem, hpending.1⟩

theorem copies_done (h : s.batch.all Job.isDone = true) : s.batch.flatMap Job.copies = [] := by
  refine List.flatMap_eq_nil_iff.mpr fun job hjob => ?_
  have hdone := List.all_eq_true.mp h job hjob
  cases job with
  | done => rfl
  | posting wh delivery => cases hdone
  | saving delivery => cases hdone

variable [DecidableEq R]

/-- What `drainQueue` and its jobs change. -/
theorem holdings_memory {s' : State R} (h : s'.retrying = s.retrying) :
    s'.holdings = {
      copies := Function.update s.holdings.copies none
        (s'.batch.flatMap Job.copies ++ waiting (s'.deliveryQueue.map Prod.snd))
      deliveries := s'.deliveries
      log := s'.log } := by
  refine Holdings.ext (funext fun o => ?_) rfl rfl
  cases o with
  | none =>
    change _ = Function.update s.holdings.copies none _ none
    rw [Function.update_self]
    rfl
  | some r =>
    refine Eq.trans ?_ (Function.update_of_ne (Option.some_ne_none r) (s'.holdings.copies none)
      s.holdings.copies).symm
    change ((s'.retrying r).map Retrying.copies).getD [] = _
    rw [h]
    rfl

/-- What a `retryPending` changes. -/
theorem holdings_setRetrying {r : R} {retrying : Retrying} {deliveries : DeliveryTable}
    {log : List Mark} :
    ({ s with deliveries, log }.setRetrying r retrying).holdings = {
      copies := Function.update s.holdings.copies (some r) retrying.copies
      deliveries, log } := by
  refine Holdings.ext (funext fun o => ?_) rfl rfl
  cases o with
  | none =>
    exact (Function.update_of_ne (Option.some_ne_none r).symm retrying.copies
      s.holdings.copies).symm
  | some r' =>
    change ((Function.update s.retrying r (some retrying) r').map Retrying.copies).getD [] =
      Function.update s.holdings.copies (some r) retrying.copies (some r')
    rw [Function.update_apply, Function.update_apply]
    by_cases hr : r' = r
    · rw [if_pos hr, if_pos (congrArg some hr)]
      rfl
    · rw [if_neg hr, if_neg fun h => hr (Option.some.inj h)]
      rfl

/-- The jobs of a batch have copies of what was taken from the queue. -/
theorem batch_copies (batch : List (Webhook × WebhookDelivery)) :
    (batch.map fun (wh, delivery) => Job.posting wh (attempted delivery)).flatMap Job.copies =
      (batch.map Prod.snd).map fun delivery => ⟨.posting, attempted delivery⟩ := by
  induction batch with
  | nil => rfl
  | cons entry batch ih =>
    rw [List.map_cons, List.flatMap_cons, ih]
    rfl

theorem steps_drainQueue (hdone : s.batch.flatMap Job.copies = []) :
    Holdings.Steps s.holdings (drainQueue s).holdings := by
  have hcopies : s.holdings.copies none = waiting (s.deliveryQueue.map Prod.snd) := by
    change s.batch.flatMap Job.copies ++ _ = _
    rw [hdone, List.nil_append]
  unfold drainQueue
  split
  · next hnone =>
    have hafter : ({ s with draining := false, batch := [] } : State R).holdings =
        s.holdings.put none (waiting (s.deliveryQueue.map Prod.snd)) :=
      holdings_memory (s := s) rfl
    rw [hafter, Holdings.put_same hcopies]
  · have hsplit : s.holdings.copies none =
        [] ++ (waiting ((s.deliveryQueue.take maxConcurrent).map Prod.snd) ++
          waiting ((s.deliveryQueue.drop maxConcurrent).map Prod.snd)) := by
      unfold waiting at hcopies ⊢
      rw [hcopies, List.nil_append, ← List.map_append, ← List.map_append, List.take_append_drop]
    have hsteps := Holdings.steps_post _ _ _ hsplit
    rw [← batch_copies, List.nil_append, List.map_map] at hsteps
    refine Eq.mpr (congrArg (Holdings.Steps s.holdings) (holdings_memory (s := s) rfl)) ?_
    exact hsteps

theorem steps_enqueue (hrest : Resting s) {wh : Webhook} {row : WebhookDelivery}
    (hfresh : s.deliveries.get row.id = none) (hpending : row.status = .pending)
    (hattempts : row.attempts = 0) :
    Holdings.Steps s.holdings
        (enqueue { s with deliveries := s.deliveries.save row } wh row).holdings ∧
      Resting (enqueue { s with deliveries := s.deliveries.save row } wh row) := by
  let queued : State R := { s with
    deliveries := s.deliveries.save row
    deliveryQueue := s.deliveryQueue ++ [(wh, row)] }
  have hqueued : Holdings.Steps s.holdings queued.holdings := by
    have hcopies : queued.batch.flatMap Job.copies ++ waiting (queued.deliveryQueue.map Prod.snd) =
        s.holdings.copies none ++ [⟨.waiting, row⟩] := by
      change _ ++ (List.map _ (List.map _ (_ ++ _))) = _
      rw [List.map_append, List.map_append, ← List.append_assoc]
      rfl
    have hafter : queued.holdings = _ := holdings_memory (s := s) rfl
    rw [hafter, hcopies]
    exact .single (.create none row hfresh hpending hattempts)
  unfold enqueue
  dsimp only
  split
  · next hdraining =>
    refine ⟨hqueued, fun hnot => ?_⟩
    rw [hdraining] at hnot
    cases hnot
  · next hdraining =>
    obtain ⟨hbatch, -⟩ := hrest (Bool.eq_false_iff.mpr hdraining)
    refine ⟨hqueued.trans ?_, resting_drainQueue rfl⟩
    refine steps_drainQueue (s := { queued with draining := true }) ?_
    change s.batch.flatMap Job.copies = []
    rw [hbatch]
    rfl

/-- What an event does to a `retryPending`. -/
theorem steps_retried {r : R} {around : Surroundings} {retrying : Retrying}
    (hretrying : s.retrying r = some retrying) (h : Exclusive s (.retried r around)) :
    Holdings.Steps s.holdings (s.retried r around retrying).holdings := by
  have hcopies : s.holdings.copies (some r) = retrying.copies := by
    change ((s.retrying r).map Retrying.copies).getD [] = _
    rw [hretrying]
    rfl
  -- The table and the log stay as they are.
  have hset (retrying : Retrying) :
      (s.setRetrying r retrying).holdings = s.holdings.put (some r) retrying.copies :=
    holdings_setRetrying
  cases retrying with
  | finding now =>
    rw [State.retried]
    split
    · rw [hset]
      exact Holdings.steps_drop [] hcopies
    · next hsucceeds =>
      have hfree := h.free r around now rfl hretrying (Bool.eq_false_iff.mpr hsucceeds)
      obtain ⟨hnodup, hrows⟩ := findPending_rows s around now
      have htake := Holdings.Step.take (some r) _ hnodup fun row hrow =>
        ⟨(hrows row hrow).1, (hrows row hrow).2, hfree row hrow⟩
      rw [hcopies] at htake
      rw [hset, Retrying.copies_loop]
      exact .single htake
  | findingWebhook delivery pending =>
    rw [State.retried]
    split
    · rw [hset]
      exact Holdings.steps_drop (delivery :: pending) hcopies
    · split
      · rw [hset, Retrying.copies_loop]
        exact .single (.drop (some r) delivery [] _ hcopies)
      · next wh hfound =>
        unfold State.post
        rw [holdings_setRetrying]
        exact .single (.post (some r) delivery [] _ hcopies)
  | delivering job pending =>
    cases job with
    | posting wh delivery =>
      rw [State.retried, holdings_setRetrying]
      exact .single (.respond (some r) delivery [] _ around.now around.response hcopies)
    | saving delivery =>
      have hsaved := h.retried r around delivery pending rfl hretrying
      rw [State.retried, hsaved, if_neg Bool.false_ne_true, holdings_setRetrying,
        Retrying.copies_loop]
      exact .single (.store (some r) delivery [] _ hcopies)
    | done => exact .refl
  | done => exact .refl

/-- What an event does to a job of the batch. -/
theorem steps_delivered {k : Nat} {around : Surroundings} {job : Job}
    (hjob : s.batch[k]? = some job) (h : Exclusive s (.delivered k around)) :
    Holdings.Steps s.holdings (s.delivered k around job).holdings := by
  obtain ⟨hk, hget⟩ := List.getElem?_eq_some_iff.mp hjob
  have hsplit (job' : Job) : ∃ l₁ l₂,
      s.holdings.copies none = l₁ ++ (job.copies ++ l₂) ∧
        (s.batch.set k job').flatMap Job.copies ++ waiting (s.deliveryQueue.map Prod.snd) =
          l₁ ++ (job'.copies ++ l₂) := by
    obtain ⟨jobs₁, jobs₂, hbatch, -, hset⟩ : ∃ jobs₁ jobs₂, s.batch = jobs₁ ++ s.batch[k] :: jobs₂ ∧
        jobs₁.length = k ∧ s.batch.set k job' = jobs₁ ++ job' :: jobs₂ := List.exists_of_set hk
    refine ⟨jobs₁.flatMap Job.copies,
      jobs₂.flatMap Job.copies ++ waiting (s.deliveryQueue.map Prod.snd), ?_, ?_⟩
    · rw [hget] at hbatch
      change s.batch.flatMap Job.copies ++ _ = _
      rw [hbatch, List.flatMap_append, List.flatMap_cons, List.append_assoc,
        List.append_assoc]
    · rw [hset, List.flatMap_append, List.flatMap_cons, List.append_assoc, List.append_assoc]
  cases job with
  | posting wh delivery =>
    obtain ⟨l₁, l₂, hcopies, hcopies'⟩ :=
      hsplit (.saving (settled around.now delivery around.response))
    have hafter : (s.delivered k around (.posting wh delivery)).holdings = _ :=
      holdings_memory (s := s) rfl
    rw [hafter]
    rw [State.delivered, hcopies']
    exact .single (.respond none delivery l₁ l₂ around.now around.response hcopies)
  | saving delivery =>
    have hsaved := h.delivered k around delivery rfl hjob
    obtain ⟨l₁, l₂, hcopies, hcopies'⟩ := hsplit .done
    have hafter : ({ s with batch := s.batch.set k .done
                            deliveries := s.deliveries.save delivery } : State R).holdings = _ :=
      holdings_memory (s := s) rfl
    rw [State.delivered, hsaved, if_neg Bool.false_ne_true, hafter, hcopies']
    exact .single (.store none delivery l₁ l₂ hcopies)
  | done => exact .refl

theorem resting_retried (hrest : Resting s) {r : R} {around : Surroundings}
    (retrying : Retrying) : Resting (s.retried r around retrying) := by
  -- Nothing of `drainQueue` changes.
  cases retrying with
  | finding now =>
    rw [State.retried]
    split <;> exact hrest
  | findingWebhook delivery pending =>
    rw [State.retried]
    split
    · exact hrest
    · split <;> exact hrest
  | delivering job pending =>
    cases job with
    | posting wh delivery => exact hrest
    | saving delivery =>
      rw [State.retried]
      split <;> exact hrest
    | done => exact hrest
  | done => exact hrest

omit [DecidableEq R] in
/-- While a job is under way, so is `drainQueue`. -/
theorem resting_delivered (hrest : Resting s) {k : Nat} {around : Surroundings} {job : Job}
    (hjob : s.batch[k]? = some job) : Resting (s.delivered k around job) := by
  have hdraining : s.draining = true := by
    by_contra hnot
    rw [(hrest (Bool.eq_false_iff.mpr hnot)).1] at hjob
    cases hjob
  have hsame : (s.delivered k around job).draining = s.draining := by
    cases job with
    | posting wh delivery => rfl
    | saving delivery =>
      rw [State.delivered]
      split <;> rfl
    | done => rfl
  intro hnot
  rw [hsame, hdraining] at hnot
  cases hnot

/-- Each event is a number of steps with copies. -/
theorem steps_next (hrest : Resting s) {i : Event R} (h : Exclusive s i) :
    Holdings.Steps s.holdings (s.next i).holdings ∧ Resting (s.next i) := by
  cases i with
  | publish r event payload =>
    rw [State.next]
    split
    · exact ⟨.refl, hrest⟩
    · exact ⟨.refl, hrest⟩
  | retryPending r now =>
    rw [State.next]
    split
    · next hnone =>
      refine ⟨?_, hrest⟩
      have hcopies : s.holdings.copies (some r) = waiting [] := by
        change ((s.retrying r).map Retrying.copies).getD [] = _
        rw [hnone]
        rfl
      have hafter : (s.setRetrying r (.finding now)).holdings = s.holdings.put (some r) [] :=
        holdings_setRetrying
      rw [hafter]
      exact Holdings.steps_drop [] hcopies
    · exact ⟨.refl, hrest⟩
  | published r around =>
    rw [State.next]
    split
    · exact ⟨.refl, hrest⟩
    · next publishing hpublishing =>
      cases publishing with
      | finding event payload =>
        rw [State.published]
        split <;> exact ⟨.refl, hrest⟩
      | saving wh webhooks event payload =>
        rw [State.published]
        split
        · exact ⟨.refl, hrest⟩
        · next hsaved =>
          rw [Bool.or_eq_true, not_or, Bool.not_eq_true, Bool.not_eq_true,
            Option.isSome_eq_false_iff, Option.isNone_iff_eq_none] at hsaved
          exact steps_enqueue hrest hsaved.2 rfl rfl
      | done => exact ⟨.refl, hrest⟩
  | retried r around =>
    rw [State.next]
    split
    · exact ⟨.refl, hrest⟩
    · next retrying hretrying =>
      exact ⟨steps_retried hretrying h, resting_retried hrest retrying⟩
  | delivered k around =>
    rw [State.next]
    split
    · exact ⟨.refl, hrest⟩
    · next job hjob =>
      exact ⟨steps_delivered hjob h, resting_delivered hrest hjob⟩
  | drained =>
    rw [State.next]
    split
    · next hsettled =>
      rw [Bool.and_eq_true] at hsettled
      exact ⟨steps_drainQueue (copies_done hsettled.2), resting_drainQueue hsettled.1⟩
    · exact ⟨.refl, hrest⟩

end Events

/-! ## Runs -/

section Runs

variable [DecidableEq R]

def exec (s : State R) (i : Event R) : Outcome (State R) := .ok (s.next i)

/-- The state after a run, newest event first. -/
def reached (past : List (Event R)) : State R := after exec .initial past

omit [DecidableEq R] in
theorem inv_initial : (State.initial : State R).holdings.Inv where
  distinct := by
    have hheld : (State.initial : State R).holdings.held = fun _ => [] := by
      funext o
      cases o <;> rfl
    rw [hheld]
    exact distinct_empty
  copies o copy hcopy := by
    cases o <;> exact absurd hcopy List.not_mem_nil
  rows row hrow := absurd hrow Repository.not_mem_empty
  unknown id _ := ⟨rfl, List.not_mem_nil⟩
  proper := trivial
  bounded _ := Nat.zero_le _

theorem inv_reached {past : List (Event R)}
    (h : Guarded (fun earlier i => Exclusive (reached earlier) i) past) :
    (reached past).holdings.Inv ∧ Resting (reached past) := by
  induction past with
  | nil => exact ⟨inv_initial, fun _ => ⟨rfl, rfl⟩⟩
  | cons i past ih =>
    obtain ⟨hinv, hrest⟩ := ih h.2
    obtain ⟨hsteps, hrest'⟩ := steps_next hrest h.1
    exact ⟨hsteps.inv hinv, hrest'⟩

/-- In every run in which `retryPending` finds only deliveries that nobody is about to send, and
what was posted is saved, no delivery is duplicated. -/
theorem deliveries_unduplicated (past : List (Event R))
    (h : Guarded (fun earlier i => Exclusive (reached earlier) i) past) :
    ∀ earlier, earlier <:+ past → Unduplicated (reached earlier) :=
  fun _ hs => unduplicated_of_inv (inv_reached (h.of_suffix hs)).1

/-! ## A delivery that is retried, and one that is posted twice -/

/-- One webhook listens. -/
def exampleAround (now status : Int) : Surroundings where
  now := now
  key := "d1"
  webhooks := [{ id := "w1", url := "https://example.com", events := "token.rewarded",
                 isActive := true }]
  fails := false
  response := .resolved status ""
  order := id
  order_perm _ := .refl _

/-- A delivery is posted by `drainQueue`. Newest event first. -/
def examplePosted : List (Event Bool) :=
  [.published true (exampleAround 0 200), .published true (exampleAround 0 200),
    .publish true "token.rewarded" "{}"]

/-- The post fails and the delivery is saved. -/
def exampleFailed : List (Event Bool) :=
  [.retryPending true 60000, .drained, .delivered 0 (exampleAround 0 500),
    .delivered 0 (exampleAround 0 500)] ++ examplePosted

/-- `retryPending` finds the delivery. -/
def exampleRetried : List (Event Bool) :=
  .retried true (exampleAround 60000 200) :: exampleFailed

theorem exampleFailed_free :
    Exclusive (reached exampleFailed) (.retried true (exampleAround 60000 200)) where
  free r around now h hfinding _ delivery hfound := by
    cases h
    have hnow : (reached exampleFailed).retrying true = some (.finding 60000) := by decide +kernel
    rw [hnow] at hfinding
    cases hfinding
    have hids : ((findPending (exampleAround 60000 200) 60000
        (reached exampleFailed).deliveries).map fun row => row.id) = ["d1"] := by decide +kernel
    have hid := List.mem_map_of_mem (f := fun row : WebhookDelivery => row.id) hfound
    rw [hids, List.mem_singleton] at hid
    rw [hid]
    intro o
    rcases o with - | - | - <;> decide +kernel
  retried r around delivery pending h _ := by
    cases h
    rfl
  delivered _ _ _ h := nomatch h

theorem exampleDelivered_saved {s : State Bool} {k : Nat} {now status : Int} :
    Exclusive s (.delivered k (exampleAround now status)) where
  free _ _ _ h := nomatch h
  retried _ _ _ _ h := nomatch h
  delivered _ _ _ h _ := by
    cases h
    rfl

theorem exampleRetried_exclusive :
    Guarded (fun earlier i => Exclusive (reached earlier) i) exampleRetried := by
  have hother {s : State Bool} {i : Event Bool} (hretried : ∀ r around, i ≠ .retried r around)
      (hdelivered : ∀ k around, i ≠ .delivered k around) : Exclusive s i :=
    ⟨fun r around _ h => absurd h (hretried r around),
      fun r around _ _ h => absurd h (hretried r around),
      fun k around _ h => absurd h (hdelivered k around)⟩
  exact ⟨exampleFailed_free, hother nofun nofun, hother nofun nofun, exampleDelivered_saved,
    exampleDelivered_saved, hother nofun nofun, hother nofun nofun, hother nofun nofun, trivial⟩

theorem deliveries_unduplicated_example : Unduplicated (reached exampleRetried) :=
  deliveries_unduplicated exampleRetried exampleRetried_exclusive exampleRetried
    (List.suffix_refl _)

/-- Before the post is answered, `retryPending` posts the delivery too. Its timer may be due at any
time. -/
def exampleOverlapping : List (Event Bool) :=
  [.retried true (exampleAround 100 200), .retried true (exampleAround 100 200),
    .retryPending true 100] ++ examplePosted

/-- Then both posts succeed. -/
def exampleTwice : List (Event Bool) :=
  .retried true (exampleAround 100 200) :: .delivered 0 (exampleAround 100 200) ::
    exampleOverlapping

/-- Two posts of a delivery are in flight. -/
theorem delivery_posted_twice :
    ((reached exampleOverlapping).inFlight none = ["d1"] ∧
        (reached exampleOverlapping).inFlight (some true) = ["d1"] ∧
        ¬ Unduplicated (reached exampleOverlapping)) ∧
      (reached exampleTwice).log =
        [.succeeded "d1", .succeeded "d1", .posted "d1", .posted "d1"] := by
  have hnone : (reached exampleOverlapping).inFlight none = ["d1"] := by decide +kernel
  have hsome : (reached exampleOverlapping).inFlight (some true) = ["d1"] := by decide +kernel
  refine ⟨⟨hnone, hsome, fun h => ?_⟩, by decide +kernel⟩
  refine h.single.disjoint none (some true) nofun (a := "d1") ?_ ?_
  · rw [hnone]
    exact List.mem_cons_self
  · rw [hsome]
    exact List.mem_cons_self

end Runs

end Scoopdope.Webhooks

import Mathlib.Data.List.Infix
import Scoopdope.Database.Repository

/-!
# Webhooks: the service

`publish`, `drainQueue`, `deliver` and `retryPending` of `WebhooksService`
(`webhooks/webhooks.service.ts`). A state is the table of deliveries, the queue in memory, and
where each call that goes on has come to; an event answers what one of them awaits, and its code
runs on to the next `await`. Calls are named by an `R`, and a call of `deliver` by the batch or the
`retryPending` that awaits it.

Headers of posts and logs are left out. The webhooks are those that are registered at the time.
-/

namespace Scoopdope.Webhooks

open Database

/-! ## Entities -/

inductive DeliveryStatus
  | success
  | failed
  | pending
deriving DecidableEq

structure Webhook where
  id : String
  url : String
  /-- Comma-separated. -/
  events : String
  isActive : Bool
deriving DecidableEq

structure WebhookDelivery where
  id : String
  webhookId : String
  event : String
  payload : String
  status : DeliveryStatus
  responseStatus : Option Int
  responseBody : Option String
  attempts : Nat
  nextRetryAt : Option Int
  createdAt : Int
deriving DecidableEq

abbrev DeliveryTable : Type := Repository fun delivery : WebhookDelivery => delivery.id

/-! ## deliver -/

def maxAttempts : Nat := 5

/-- Seconds. -/
def retryDelays : List Nat := [30, 60, 300, 1800, 7200]

/-- What `httpPost` comes to: the status and the body of the response, or a message. -/
inductive Response
  | resolved (status : Int) (responseBody : String)
  | rejected (message : String)

def Response.succeeds : Response → Bool
  | resolved status _ => 200 ≤ status && status < 300
  | rejected _ => false

/-- `deliver` before it posts. -/
def attempted (delivery : WebhookDelivery) : WebhookDelivery :=
  { delivery with attempts := delivery.attempts + 1 }

/-- A delivery that has failed. -/
def failing (now : Int) (delivery : WebhookDelivery) : WebhookDelivery :=
  if delivery.attempts < maxAttempts then
    let delay := retryDelays.getD (delivery.attempts - 1) 7200
    { delivery with nextRetryAt := some (now + delay * 1000), status := .pending }
  else { delivery with status := .failed }

/-- `deliver` after the post, up to `save`. -/
def settled (now : Int) (delivery : WebhookDelivery) : Response → WebhookDelivery
  | .resolved status responseBody =>
    let delivery := { delivery with
      responseStatus := some status
      responseBody := some (String.ofList (responseBody.toList.take 500)) }
    if 200 ≤ status && status < 300 then { delivery with status := .success }
    else failing now delivery
  | .rejected message => failing now { delivery with responseBody := some message }

/-! ## States -/

/-- What a call of `deliver` awaits. -/
inductive Job
  | posting (wh : Webhook) (delivery : WebhookDelivery)
  | saving (delivery : WebhookDelivery)
  | done
deriving DecidableEq

/-- What a call of `publish` awaits, with the webhooks that are left. -/
inductive Publishing
  | finding (event payload : String)
  | saving (wh : Webhook) (webhooks : List Webhook) (event payload : String)
  | done

/-- What a call of `retryPending` awaits, with the deliveries that are left. -/
inductive Retrying
  | finding (now : Int)
  | findingWebhook (delivery : WebhookDelivery) (pending : List WebhookDelivery)
  | delivering (job : Job) (pending : List WebhookDelivery)
  | done
deriving DecidableEq

/-- A post is made, or it has succeeded, by the delivery. -/
inductive Mark
  | posted (id : String)
  | succeeded (id : String)
deriving DecidableEq

structure State (R : Type) where
  deliveries : DeliveryTable
  deliveryQueue : List (Webhook × WebhookDelivery)
  draining : Bool
  /-- The calls of `deliver` that `drainQueue` awaits. -/
  batch : List Job
  publishing : R → Option Publishing
  retrying : R → Option Retrying
  /-- Newest first. -/
  log : List Mark

/-- What an answer comes with. -/
structure Surroundings where
  now : Int
  /-- The primary key of a new delivery. -/
  key : String
  webhooks : List Webhook
  /-- What is awaited fails, if it is a statement. -/
  fails : Bool
  response : Response
  /-- The order in which rows are returned. -/
  order : List WebhookDelivery → List WebhookDelivery
  order_perm : ∀ rows, (order rows).Perm rows

variable {R : Type}

/-! ## drainQueue -/

def maxConcurrent : Nat := 5

/-- The loop, up to its next `await`. -/
def drainQueue (s : State R) : State R :=
  match s.deliveryQueue with
  | [] => { s with draining := false, batch := [] }
  | _ =>
    let batch := s.deliveryQueue.take maxConcurrent
    { s with
      deliveryQueue := s.deliveryQueue.drop maxConcurrent
      batch := batch.map fun (wh, delivery) => .posting wh (attempted delivery)
      log := (batch.map fun (_, delivery) => Mark.posted delivery.id).reverse ++ s.log }

def enqueue (s : State R) (wh : Webhook) (delivery : WebhookDelivery) : State R :=
  let s := { s with deliveryQueue := s.deliveryQueue ++ [(wh, delivery)] }
  if s.draining then s else drainQueue { s with draining := true }

/-- The mark of a response. -/
def marked (response : Response) (id : String) (log : List Mark) : List Mark :=
  if response.succeeds then .succeeded id :: log else log

/-! ## publish -/

/-- `LIKE`. No pattern has an escape in it. -/
def like : List Char → List Char → Bool
  | [], text => text.isEmpty
  | p :: pattern, text =>
    if p = '%' then text.tails.any (like pattern)
    else
      match text with
      | [] => false
      | c :: text => (p = '_' || p = c) && like pattern text

/-- The webhooks that are active and listen to the event. -/
def listening (event : String) (webhooks : List Webhook) : List Webhook :=
  webhooks.filter fun w => w.isActive && like ("%" ++ event ++ "%").toList w.events.toList

/-- The row of a new delivery. -/
def newDelivery (around : Surroundings) (wh : Webhook) (event payload : String) :
    WebhookDelivery where
  id := around.key
  webhookId := wh.id
  event := event
  payload := payload
  status := .pending
  responseStatus := none
  responseBody := none
  attempts := 0
  nextRetryAt := none
  createdAt := around.now

/-- The loop over the webhooks. -/
def Publishing.loop (event payload : String) : List Webhook → Publishing
  | [] => .done
  | wh :: webhooks => .saving wh webhooks event payload

/-! ## retryPending -/

def isPending (now : Int) (delivery : WebhookDelivery) : Bool :=
  delivery.status = .pending && delivery.nextRetryAt.all fun nextRetryAt => nextRetryAt ≤ now

/-- The deliveries that `find` returns. -/
def findPending (around : Surroundings) (now : Int) (deliveries : DeliveryTable) :
    List WebhookDelivery :=
  (around.order (deliveries.find (isPending now))).take 20

/-- The loop over the deliveries. -/
def Retrying.loop : List WebhookDelivery → Retrying
  | [] => .done
  | delivery :: pending => .findingWebhook delivery pending

/-! ## Events -/

inductive Event (R : Type)
  | publish (r : R) (event payload : String)
  | retryPending (r : R) (now : Int)
  /-- What `publish` awaits is answered. -/
  | published (r : R) (around : Surroundings)
  /-- What `retryPending` awaits is answered. -/
  | retried (r : R) (around : Surroundings)
  /-- What a call of `deliver` in the batch awaits is answered. -/
  | delivered (k : Nat) (around : Surroundings)
  /-- The batch is settled, and `drainQueue` goes on. -/
  | drained

def Job.isDone : Job → Bool
  | done => true
  | _ => false

variable [DecidableEq R]

namespace State

def setPublishing (s : State R) (r : R) (publishing : Publishing) : State R :=
  { s with publishing := Function.update s.publishing r (some publishing) }

def setRetrying (s : State R) (r : R) (retrying : Retrying) : State R :=
  { s with retrying := Function.update s.retrying r (some retrying) }

/-- `deliver` begins, in a `retryPending`. -/
def post (s : State R) (r : R) (wh : Webhook) (delivery : WebhookDelivery)
    (pending : List WebhookDelivery) : State R :=
  { s with log := .posted delivery.id :: s.log }.setRetrying r
    (.delivering (.posting wh (attempted delivery)) pending)

def published (s : State R) (r : R) (around : Surroundings) : Publishing → State R
  | .finding event payload =>
    if around.fails then s.setPublishing r .done
    else s.setPublishing r (.loop event payload (listening event around.webhooks))
  | .saving wh webhooks event payload =>
    let saved := newDelivery around wh event payload
    if around.fails || (s.deliveries.get saved.id).isSome then s.setPublishing r .done
    else (enqueue { s with deliveries := s.deliveries.save saved } wh saved).setPublishing r
      (.loop event payload webhooks)
  | .done => s

def retried (s : State R) (r : R) (around : Surroundings) : Retrying → State R
  | .finding now =>
    if around.fails then s.setRetrying r .done
    else s.setRetrying r (.loop (findPending around now s.deliveries))
  | .findingWebhook delivery pending =>
    if around.fails then s.setRetrying r .done
    else
      match around.webhooks.find? fun wh => wh.id = delivery.webhookId with
      | none => s.setRetrying r (.loop pending)
      | some wh => s.post r wh delivery pending
  | .delivering (.posting _ delivery) pending =>
    { s with log := marked around.response delivery.id s.log }.setRetrying r
      (.delivering (.saving (settled around.now delivery around.response)) pending)
  -- A `save` that fails ends the loop.
  | .delivering (.saving delivery) pending =>
    if around.fails then s.setRetrying r .done
    else { s with deliveries := s.deliveries.save delivery }.setRetrying r (.loop pending)
  | .delivering .done _ => s
  | .done => s

def delivered (s : State R) (k : Nat) (around : Surroundings) : Job → State R
  | .posting _ delivery =>
    { s with
      batch := s.batch.set k (.saving (settled around.now delivery around.response))
      log := marked around.response delivery.id s.log }
  | .saving delivery =>
    if around.fails then { s with batch := s.batch.set k .done }
    else
      { s with batch := s.batch.set k .done, deliveries := s.deliveries.save delivery }
  | .done => s

def next (s : State R) : Event R → State R
  | .publish r event payload =>
    match s.publishing r with
    | none => s.setPublishing r (.finding event payload)
    | some _ => s
  | .retryPending r now =>
    match s.retrying r with
    | none => s.setRetrying r (.finding now)
    | some _ => s
  | .published r around =>
    match s.publishing r with
    | none => s
    | some publishing => s.published r around publishing
  | .retried r around =>
    match s.retrying r with
    | none => s
    | some retrying => s.retried r around retrying
  | .delivered k around =>
    match s.batch[k]? with
    | none => s
    | some job => s.delivered k around job
  | .drained => if s.draining && s.batch.all Job.isDone then drainQueue s else s

/-- No delivery has been made yet. -/
def initial : State R where
  deliveries := .empty
  deliveryQueue := []
  draining := false
  batch := []
  publishing := fun _ => none
  retrying := fun _ => none
  log := []

end State

end Scoopdope.Webhooks

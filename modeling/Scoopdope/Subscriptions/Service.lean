import Scoopdope.Users.Service

/-!
# Subscriptions: the service

`SubscriptionsService` (`subscriptions/subscriptions.service.ts`). What the `stripe` package and
the configuration answer is part of the environment of a call; a request to Stripe may fail.
-/

namespace Scoopdope.Subscriptions

open Async Database Server Users

/-- The `metadata` of a checkout session. -/
structure Metadata where
  userId : Option String
  tier : Option String
deriving DecidableEq

/-- `Stripe.Checkout.Session`. -/
structure Session where
  metadata : Option Metadata
  customer : String
  subscription : String
deriving DecidableEq

/-- `Stripe.Subscription`, with `current_period_end` in seconds. -/
structure Subscription where
  id : String
  status : String
  currentPeriodEnd : Int
deriving DecidableEq

/-- `Stripe.Event`. -/
inductive StripeEvent
  | checkoutSessionCompleted (session : Session)
  | customerSubscriptionUpdated (subscription : Subscription)
  | customerSubscriptionDeleted (subscription : Subscription)
  | other (type : String)
deriving DecidableEq

/-- What `createCheckoutSession` asks for. -/
structure SessionParams where
  price : String
  successUrl : String
  cancelUrl : String
  clientReferenceId : String
  customerEmail : String
  metadata : Metadata
deriving DecidableEq

inductive Op
  | findById (id : String)
  | findBySubscription (stripeSubscriptionId : String)
  | update (id : String) (data : UserData)
  | retrieve (stripeSubscriptionId : String)
  | createSession (params : SessionParams)

abbrev Op.answer : Op → Type
  | .findById _ => Option User
  | .findBySubscription _ => Option User
  | .update _ _ => Unit
  | .retrieve _ => Except HttpException Subscription
  | .createSession _ => Except HttpException (Option String)

abbrev subscriptionsInterface : Interface where
  Op := Op
  Answer := Op.answer

structure Env where
  /-- `configService.get`. -/
  config : String → Option String
  /-- `stripe.webhooks.constructEvent`, of the payload, the signature and the secret. -/
  constructEvent : String → String → Option String → Except String StripeEvent
  /-- `stripe.subscriptions.retrieve`. -/
  retrieve : String → Except HttpException Subscription
  /-- `stripe.checkout.sessions.create`: the URL of the session. -/
  createSession : SessionParams → Except HttpException (Option String)

/-- `userRepo.update(id, data)`. -/
def updateUser (users : UserTable) (id : String) (data : UserData) : UserTable :=
  match users.get id with
  | none => users
  | some user => users.save (spread user data)

def handle (env : Env) (users : UserTable) : (o : Op) → o.answer × UserTable
  | .findById id => (users.get id, users)
  | .findBySubscription stripeSubscriptionId =>
    (users.findOne fun user => user .stripeSubscriptionId = some stripeSubscriptionId, users)
  | .update id data => ((), updateUser users id data)
  | .retrieve stripeSubscriptionId => (env.retrieve stripeSubscriptionId, users)
  | .createSession params => (env.createSession params, users)

/-- A method of the service. -/
abbrev Method (A : Type) : Type := Process subscriptionsInterface Env HttpException A

def query (o : Op) : Method o.answer := Process.perform (I := subscriptionsInterface) o

/-- The values of the enumeration. -/
def tierName : SubscriptionTier → String
  | .free => "free"
  | .pro => "pro"
  | .enterprise => "enterprise"

/-- A value of the column `subscriptionTier`. Any other string makes the statement fail. -/
def tierOf (name : String) : Except HttpException SubscriptionTier :=
  if name = "free" then .ok .free
  else if name = "pro" then .ok .pro
  else if name = "enterprise" then .ok .enterprise
  else .error (.internal "invalid input value for enum")

def createCheckoutSession (userId : String) (tier : SubscriptionTier) : Method (Option String) := do
  let user ← query (.findById userId)
  match user with
  | none => .fail (.notFound "User not found")
  | some user => do
    let env ← Process.env
    let priceId ← Process.ofExcept (match tier with
      | .pro => .ok (env.config "stripe.proPriceId")
      | .enterprise => .ok (env.config "stripe.enterprisePriceId")
      | .free => .error (.badRequest "Invalid subscription tier"))
    match truthy priceId with
    | none => .fail (.badRequest "Stripe Price ID not configured for this tier")
    | some price => do
      let frontendUrl := (env.config "frontend.url").getD "undefined"
      let url ← query (.createSession
        { price
          successUrl := frontendUrl ++ "/dashboard?subscription=success"
          cancelUrl := frontendUrl ++ "/pricing"
          clientReferenceId := userId
          customerEmail := user .email
          metadata := { userId := some userId, tier := some (tierName tier) } })
      Process.ofExcept url

/-- `new Date(subscription.current_period_end * 1000)`. -/
def periodEnd (subscription : Subscription) : Int := subscription.currentPeriodEnd * 1000

/-- What a checkout writes. -/
def purchase (session : Session) (tier : SubscriptionTier) (subscription : Subscription) :
    UserData :=
  (((Patch.empty.set .subscriptionTier tier).set .stripeCustomerId (some session.customer)).set
    .stripeSubscriptionId (some session.subscription)).set
    .subscriptionExpiresAt (some (periodEnd subscription))

/-- What a later event writes. -/
def change (subscription : Subscription) : UserData :=
  if subscription.status = "active" then
    Patch.empty.set .subscriptionExpiresAt (some (periodEnd subscription))
  else (Patch.empty.set .subscriptionTier .free).set .subscriptionExpiresAt none

def handleCheckoutCompleted (session : Session) : Method Unit := do
  let userId := truthy (session.metadata.bind Metadata.userId)
  let tier := truthy (session.metadata.bind Metadata.tier)
  match userId, tier with
  | some userId, some tier => do
    let subscription ← Process.ofExcept (← query (.retrieve session.subscription))
    let tier ← Process.ofExcept (tierOf tier)
    query (.update userId (purchase session tier subscription))
  | _, _ => pure ()

def handleSubscriptionUpdated (subscription : Subscription) : Method Unit := do
  let user ← query (.findBySubscription subscription.id)
  match user with
  | none => pure ()
  | some user => query (.update (user .id) (change subscription))

def handleWebhook (signature payload : String) : Method Unit := do
  let env ← Process.env
  match env.constructEvent payload signature (env.config "stripe.webhookSecret") with
  | .error message => .fail (.badRequest ("Webhook Error: " ++ message))
  | .ok (.checkoutSessionCompleted session) => handleCheckoutCompleted session
  | .ok (.customerSubscriptionUpdated subscription) => handleSubscriptionUpdated subscription
  | .ok (.customerSubscriptionDeleted subscription) => handleSubscriptionUpdated subscription
  | .ok (.other _) => pure ()

structure SubscriptionStatus where
  tier : SubscriptionTier
  expiresAt : Option Int
  isPro : Bool
deriving DecidableEq

def getSubscriptionStatus (userId : String) : Method SubscriptionStatus := do
  let user ← query (.findById userId)
  match user with
  | none => .fail (.notFound "User not found")
  | some user =>
    pure
      { tier := user .subscriptionTier
        expiresAt := user .subscriptionExpiresAt
        isPro := user .subscriptionTier = .pro || user .subscriptionTier = .enterprise }

/-! ## What a call makes of the users -/

section Run

variable {env : Env} {users : UserTable}

theorem run_query {A : Type} (o : Op) (next : o.answer → Method A) :
    (query o >>= next).run handle env users =
      (next (handle env users o).1).run handle env (handle env users o).2 := rfl

theorem run_findBySubscription {A : Type} (id : String) (next : Option User → Method A) :
    (query (.findBySubscription id) >>= next).run handle env users =
      (next (users.findOne fun user => user .stripeSubscriptionId = some id)).run handle env
        users := rfl

/-- A checkout whose session names the user and a tier, and whose subscription is retrieved. -/
theorem run_checkout {session : Session} {userId name : String} {tier : SubscriptionTier}
    {subscription : Subscription}
    (huser : truthy (session.metadata.bind Metadata.userId) = some userId)
    (hname : truthy (session.metadata.bind Metadata.tier) = some name)
    (htier : tierOf name = .ok tier)
    (hretrieve : env.retrieve session.subscription = .ok subscription) :
    (handleCheckoutCompleted session).run handle env users =
      (.ok (), updateUser users userId (purchase session tier subscription)) := by
  unfold handleCheckoutCompleted
  rw [huser, hname]
  dsimp only
  rw [run_query]
  change (Process.ofExcept (env.retrieve session.subscription) >>= _).run _ env users = _
  rw [hretrieve]
  change (Process.ofExcept (tierOf name) >>= _).run _ env users = _
  rw [htier]
  rfl

theorem run_updated (subscription : Subscription) :
    (handleSubscriptionUpdated subscription).run handle env users =
      (.ok (), match users.findOne fun user =>
          user .stripeSubscriptionId = some subscription.id with
        | none => users
        | some user => updateUser users (user .id) (change subscription)) := by
  unfold handleSubscriptionUpdated
  rw [run_findBySubscription]
  rcases users.findOne _ with - | user
  · rfl
  · rfl

/-- A verified event is handed to the handler of its type. -/
theorem run_handleWebhook {signature payload : String} {event : StripeEvent}
    (h : env.constructEvent payload signature (env.config "stripe.webhookSecret") = .ok event) :
    (handleWebhook signature payload).run handle env users =
      (match event with
        | .checkoutSessionCompleted session => handleCheckoutCompleted session
        | .customerSubscriptionUpdated subscription => handleSubscriptionUpdated subscription
        | .customerSubscriptionDeleted subscription => handleSubscriptionUpdated subscription
        | .other _ => pure ()).run handle env users := by
  unfold handleWebhook
  rw [Process.env_bind, Process.run_ask, h]
  cases event <;> rfl

end Run

end Scoopdope.Subscriptions

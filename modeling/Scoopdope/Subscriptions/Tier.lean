import Scoopdope.Soroban.History
import Scoopdope.Subscriptions.Service

/-!
# Subscriptions: the tier of a subscriber

A user buys a tier at a checkout, and then come events about the subscription, with any
statuses. An event whose status is not `active` takes the tier away; one whose status is `active`
writes the end of the period only.

`reached_row`: the user has the tier as long as every event has been `active`, and the end of the
period of the last event, if that was `active`.
`tier_tracks_iff`: the tier is what the latest status says throughout a run exactly when the tier
bought is the free one, or the subscription is `active` at the checkout and no event makes it
`active` again.
-/

namespace Scoopdope.Subscriptions

open Database Server Soroban Users

/-- A webhook request, with what it meets. -/
structure Delivery where
  env : Env
  signature : String
  payload : String

def Delivery.event (d : Delivery) : Except String StripeEvent :=
  d.env.constructEvent d.payload d.signature (d.env.config "stripe.webhookSecret")

/-- The subscription that an event is about. -/
def subscriptionOf : StripeEvent → Option Subscription
  | .customerSubscriptionUpdated subscription => some subscription
  | .customerSubscriptionDeleted subscription => some subscription
  | _ => none

def exec (users : UserTable) (d : Delivery) : Outcome UserTable :=
  .ok ((handleWebhook d.signature d.payload).run handle d.env users).2

/-- A verified event by which a user buys a tier. The subscription is that user's only. -/
structure Checkout (users : UserTable) where
  delivery : Delivery
  session : Session
  verified : delivery.event = .ok (.checkoutSessionCompleted session)
  user : User
  stored : users.get (user .id) = some user
  buyer : truthy (session.metadata.bind Metadata.userId) = some (user .id)
  tier : SubscriptionTier
  bought : truthy (session.metadata.bind Metadata.tier) = some (tierName tier)
  subscription : Subscription
  retrieved : delivery.env.retrieve session.subscription = .ok subscription
  sole : ∀ other ∈ users,
    other .stripeSubscriptionId = some session.subscription → other .id = user .id

/-- A verified event about the subscription of a checkout. -/
structure Change {users : UserTable} (checkout : Checkout users) where
  delivery : Delivery
  event : StripeEvent
  verified : delivery.event = .ok event
  subscription : Subscription
  about : subscriptionOf event = some subscription
  same : subscription.id = checkout.session.subscription

variable {users : UserTable} (checkout : Checkout users)

/-- The users after a checkout and the events that follow it, newest first. -/
def reached (past : List (Change checkout)) : UserTable :=
  after exec users (past.map Change.delivery ++ [checkout.delivery])

/-- The status in the last event, or the one retrieved at the checkout. -/
def latestStatus : List (Change checkout) → String
  | [] => checkout.subscription.status
  | c :: _ => c.subscription.status

/-- The user's tier is the one bought if the subscription is `active`, and free otherwise. -/
def Tracks (past : List (Change checkout)) : Prop :=
  ((reached checkout past).get (checkout.user .id)).map (fun user => user .subscriptionTier) =
    some (if latestStatus checkout past = "active" then checkout.tier else .free)

/-! ## The user's row -/

def keptTier : List (Change checkout) → SubscriptionTier
  | [] => checkout.tier
  | c :: past => if c.subscription.status = "active" then keptTier past else .free

def expiresAt : List (Change checkout) → Option Int
  | [] => some (periodEnd checkout.subscription)
  | c :: _ => if c.subscription.status = "active" then some (periodEnd c.subscription) else none

/-- The row of the user is found by the subscription. -/
structure Subscribed (past : List (Change checkout)) (rows : UserTable) (row : User) : Prop where
  stored : rows.get (checkout.user .id) = some row
  subscription : row .stripeSubscriptionId = some checkout.session.subscription
  sole : ∀ other ∈ rows,
    other .stripeSubscriptionId = some checkout.session.subscription →
      other .id = checkout.user .id
  tier : row .subscriptionTier = keptTier checkout past
  expires : row .subscriptionExpiresAt = expiresAt checkout past

variable {checkout}

theorem tierOf_tierName (tier : SubscriptionTier) : tierOf (tierName tier) = .ok tier := by
  cases tier <;> decide

theorem get_updateUser {rows : UserTable} {row : User}
    (hrow : rows.get (row .id) = some row) (data : UserData) (hid : data .id = none) :
    (updateUser rows (row .id) data).get (row .id) = some (spread row data) ∧
      ∀ other ∈ updateUser rows (row .id) data,
        other = spread row data ∨ other ∈ rows ∧ other .id ≠ row .id := by
  have hkey : spread row data .id = row .id := spread_of_none hid
  unfold updateUser
  rw [hrow]
  constructor
  · have hself : (rows.save (spread row data)).get (spread row data .id) = some (spread row data) :=
      Repository.get_save_self
    rw [hkey] at hself
    exact hself
  · intro other hother
    rcases Repository.mem_save.mp hother with rfl | ⟨hother, hne⟩
    · exact .inl rfl
    · exact .inr ⟨hother, fun heq => hne (heq.trans hkey.symm)⟩

theorem subscribed_checkout : ∃ row, Subscribed checkout [] (reached checkout []) row := by
  have hrun : reached checkout [] = updateUser users (checkout.user .id)
      (purchase checkout.session checkout.tier checkout.subscription) := by
    have hcheckout : (handleCheckoutCompleted checkout.session).run handle checkout.delivery.env
        users = _ :=
      run_checkout checkout.buyer checkout.bought (tierOf_tierName _) checkout.retrieved
    exact congrArg Prod.snd ((run_handleWebhook checkout.verified).trans hcheckout)
  obtain ⟨hget, hothers⟩ := get_updateUser checkout.stored
    (purchase checkout.session checkout.tier checkout.subscription) rfl
  rw [hrun]
  refine ⟨_, hget, rfl, ?_, rfl, rfl⟩
  intro other hother hsubscription
  rcases hothers other hother with rfl | ⟨hold, -⟩
  · rfl
  · exact checkout.sole other hold hsubscription

theorem Subscribed.found {past : List (Change checkout)} {rows : UserTable} {row : User}
    (h : Subscribed checkout past rows row) {id : String}
    (hid : id = checkout.session.subscription) :
    rows.findOne (fun user => user .stripeSubscriptionId = some id) = some row := by
  subst hid
  have hkey : row .id = checkout.user .id := Repository.key_of_get h.stored
  refine Repository.findOne_of_unique ?_ (by simp [h.subscription]) ?_
  · rw [Repository.mem_def, hkey]
    exact h.stored
  · intro other hother hsubscription
    exact (h.sole other hother (by simpa using hsubscription)).trans hkey.symm

/-- What an event makes of the users. -/
theorem Subscribed.run {past : List (Change checkout)} {rows : UserTable} {row : User}
    (h : Subscribed checkout past rows row) (c : Change checkout) :
    ((handleWebhook c.delivery.signature c.delivery.payload).run handle c.delivery.env rows).2 =
      updateUser rows (row .id) (change c.subscription) := by
  have hrun : ((handleSubscriptionUpdated c.subscription).run handle c.delivery.env rows).2 =
      updateUser rows (row .id) (change c.subscription) := by
    rw [run_updated, h.found c.same]
  have habout := c.about
  rw [run_handleWebhook c.verified]
  cases hevent : c.event with
  | checkoutSessionCompleted session =>
    rw [hevent] at habout
    cases habout
  | customerSubscriptionUpdated subscription =>
    rw [hevent] at habout
    cases habout
    exact hrun
  | customerSubscriptionDeleted subscription =>
    rw [hevent] at habout
    cases habout
    exact hrun
  | other type =>
    rw [hevent] at habout
    cases habout

/-- The columns of a row after an event. -/
theorem change_columns (row : User) (subscription : Subscription) :
    change subscription .id = none ∧
      spread row (change subscription) .stripeSubscriptionId = row .stripeSubscriptionId ∧
      spread row (change subscription) .subscriptionTier =
        (if subscription.status = "active" then row .subscriptionTier else .free) ∧
      spread row (change subscription) .subscriptionExpiresAt =
        (if subscription.status = "active" then some (periodEnd subscription) else none) := by
  unfold change
  split <;> exact ⟨rfl, rfl, rfl, rfl⟩

theorem Subscribed.step {past : List (Change checkout)} {rows : UserTable} {row : User}
    (h : Subscribed checkout past rows row) (c : Change checkout) :
    Subscribed checkout (c :: past)
      ((handleWebhook c.delivery.signature c.delivery.payload).run handle c.delivery.env rows).2
      (spread row (change c.subscription)) := by
  have hkey : row .id = checkout.user .id := Repository.key_of_get h.stored
  have hstored := h.stored
  rw [← hkey] at hstored
  obtain ⟨hid, hsubscription, htier, hexpires⟩ := change_columns row c.subscription
  obtain ⟨hget, hothers⟩ := get_updateUser hstored _ hid
  rw [hkey] at hget hothers
  rw [h.run c, hkey]
  refine ⟨hget, hsubscription.trans h.subscription, ?_, ?_, hexpires⟩
  · intro other hother hsame
    rcases hothers other hother with rfl | ⟨hold, -⟩
    · exact (spread_of_none hid).trans hkey
    · exact h.sole other hold hsame
  · rw [htier, h.tier]
    rfl

/-- At every point of a run the user has a row that is found by the subscription. -/
theorem reached_row (past : List (Change checkout)) :
    ∃ row, Subscribed checkout past (reached checkout past) row := by
  induction past with
  | nil => exact subscribed_checkout
  | cons c past ih =>
    obtain ⟨row, hrow⟩ := ih
    exact ⟨_, hrow.step c⟩

/-! ## The tier and the latest status -/

theorem tracks_iff {past : List (Change checkout)} :
    Tracks checkout past ↔ keptTier checkout past =
      if latestStatus checkout past = "active" then checkout.tier else .free := by
  obtain ⟨row, hrow⟩ := reached_row past
  rw [Tracks, hrow.stored, Option.map_some, hrow.tier, Option.some.injEq]

/-- The subscription does not become `active` again. -/
def NotRecovered (checkout : Checkout users) (earlier : List (Change checkout))
    (c : Change checkout) : Prop :=
  c.subscription.status = "active" → latestStatus checkout earlier = "active"

theorem keptTier_free (hfree : checkout.tier = .free) (past : List (Change checkout)) :
    keptTier checkout past = .free := by
  induction past with
  | nil => exact hfree
  | cons c past ih => rw [keptTier, ih, ite_self]

theorem tracks_cons (hfree : checkout.tier ≠ .free) {past : List (Change checkout)}
    {c : Change checkout} (h : Tracks checkout past) :
    Tracks checkout (c :: past) ↔ NotRecovered checkout past c := by
  rw [tracks_iff] at h ⊢
  rw [keptTier, latestStatus]
  by_cases hactive : c.subscription.status = "active"
  · rw [if_pos hactive, if_pos hactive, h]
    constructor
    · intro htier _
      by_contra hlatest
      rw [if_neg hlatest] at htier
      exact hfree htier.symm
    · intro hlatest
      exact if_pos (hlatest hactive)
  · rw [if_neg hactive, if_neg hactive]
    exact iff_of_true rfl fun h => absurd h hactive

/-- Throughout the events of a subscription the user's tier is the one bought while the latest
status is `active` and free otherwise, exactly when the tier bought is the free one, or the
subscription is `active` at the checkout and never becomes `active` again. -/
theorem tier_tracks_iff (checkout : Checkout users) (past : List (Change checkout)) :
    (∀ earlier, earlier <:+ past → Tracks checkout earlier) ↔
      checkout.tier = .free ∨
        checkout.subscription.status = "active" ∧ Guarded (NotRecovered checkout) past := by
  by_cases hfree : checkout.tier = .free
  · refine iff_of_true (fun earlier _ => tracks_iff.mpr ?_) (.inl hfree)
    rw [keptTier_free hfree, hfree, ite_self]
  by_cases hactive : checkout.subscription.status = "active"
  · have h0 : Tracks checkout [] := tracks_iff.mpr (if_pos hactive).symm
    rw [throughout_iff_guarded h0 past fun earlier c _ h => tracks_cons hfree h]
    simp [hfree, hactive]
  · refine iff_of_false (fun h => ?_) (by simp [hfree, hactive])
    have hfirst := tracks_iff.mp (h [] (List.nil_suffix))
    rw [latestStatus, if_neg hactive] at hfirst
    exact hfree hfirst

/-! ## A subscription that recovers -/

/-- An event that is verified with the configured secret. -/
def delivered (event : StripeEvent) : Delivery where
  env :=
    { config := fun key => if key = "stripe.webhookSecret" then some "secret" else none
      constructEvent := fun _ signature secret =>
        if secret = some signature then .ok event else .error "No signatures found"
      retrieve := fun id => .ok ⟨id, "active", 30⟩
      createSession := fun _ => .ok none }
  signature := "secret"
  payload := ""

/-- A user buys `pro`. -/
def proCheckout : Checkout (Repository.empty.save (User.default "u" 0)) where
  delivery := delivered (.checkoutSessionCompleted ⟨some ⟨some "u", some "pro"⟩, "cus", "sub"⟩)
  session := ⟨some ⟨some "u", some "pro"⟩, "cus", "sub"⟩
  verified := rfl
  user := User.default "u" 0
  stored := Repository.get_save_self
  buyer := by decide +kernel
  tier := .pro
  bought := by decide +kernel
  subscription := ⟨"sub", "active", 30⟩
  retrieved := rfl
  sole := by
    intro other hother _
    rcases Repository.mem_save.mp hother with rfl | ⟨hold, -⟩
    · rfl
    · exact absurd hold Repository.not_mem_empty

def proChange (status : String) : Change proCheckout where
  delivery := delivered (.customerSubscriptionUpdated ⟨"sub", status, 60⟩)
  event := .customerSubscriptionUpdated ⟨"sub", status, 60⟩
  verified := rfl
  subscription := ⟨"sub", status, 60⟩
  about := rfl
  same := rfl

/-- A payment is late and then made: the subscription is `active` again, and the user stays on
the free tier. -/
theorem tier_not_restored :
    latestStatus proCheckout [proChange "active", proChange "past_due"] = "active" ∧
      ((reached proCheckout [proChange "active", proChange "past_due"]).get "u").map
        (fun user => (user .subscriptionTier, user .subscriptionExpiresAt)) =
          some (.free, some 60000) ∧
      ¬ Tracks proCheckout [proChange "active", proChange "past_due"] := by
  refine ⟨rfl, by decide +kernel, ?_⟩
  rw [tracks_iff]
  decide

end Scoopdope.Subscriptions

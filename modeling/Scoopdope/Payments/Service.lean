import Mathlib.Algebra.Order.Field.Rat
import Mathlib.Data.Rat.Floor
import Scoopdope.Database.Repository
import Scoopdope.Server.Http

/-!
# Payments: the service

`createPaymentIntent` of `PaymentsService` (`payments/payments.service.ts`), with what it calls of
`CouponsService` (`coupons/coupons.service.ts`) and of `CurrencyConversionService`
(`payments/currency-conversion.service.ts`). Amounts are computed exactly, not in floating point.

A payment awaits one request after another, and each of them may fail. The conversion is one
request: it awaits nothing but the exchange rates.
-/

namespace Scoopdope.Payments

open Async Database Server

/-! ## Entities -/

inductive DiscountType
  | percentage
  | fixed
deriving DecidableEq

/-- The code is unique. -/
structure Coupon where
  code : String
  discountType : DiscountType
  discountValue : Rat
  expiresAt : Option Int
  usageCount : Nat
  maxUsage : Option Nat
  isActive : Bool
deriving DecidableEq

/-- The columns of a course that are read. -/
structure PricedCourse where
  id : String
  priceUsd : Option Rat

inductive SupportedCurrency
  | usd | eur | gbp | ngn | kes | ghs | zar | inr | brl | cad | aud
deriving DecidableEq

def SupportedCurrency.code : SupportedCurrency → String
  | usd => "USD"
  | eur => "EUR"
  | gbp => "GBP"
  | ngn => "NGN"
  | kes => "KES"
  | ghs => "GHS"
  | zar => "ZAR"
  | inr => "INR"
  | brl => "BRL"
  | cad => "CAD"
  | aud => "AUD"

/-- `Record<string, number>`. -/
abbrev Rates : Type := SupportedCurrency → Option Rat

structure RatesCache where
  rates : Rates
  fetchedAt : Int

structure Metadata where
  courseId : String
  userId : String
  couponCode : String
deriving DecidableEq

/-- A payment intent, as Stripe keeps it. -/
structure Intent where
  amount : Int
  currency : String
  metadata : Metadata
deriving DecidableEq

/-! ## Requests -/

inductive Request
  | findCourse (courseId : String)
  | findCoupon (code : String)
  | increment (code : String)
  | toStripeAmount (amountInUsd : Rat) (targetCurrency : SupportedCurrency)
  | createIntent (intent : Intent)

/-- `createIntent` answers the client secret. -/
abbrev Request.value : Request → Type
  | .findCourse _ => Option PricedCourse
  | .findCoupon _ => Option Coupon
  | .increment _ => Unit
  | .toStripeAmount _ _ => Int
  | .createIntent _ => String

abbrev paymentsInterface : Interface where
  Op := Request
  Answer := fun q => Except HttpException q.value

/-- What a call meets. -/
structure Surroundings where
  now : Int
  /-- What the exchange rate API answers. -/
  fetch : Except HttpException Rates
  clientSecret : String
  /-- The exception with which a request fails. A conversion also fails where it throws itself. -/
  fails : Request → Option HttpException

structure State where
  courses : Repository fun course : PricedCourse => course.id
  coupons : Repository fun coupon : Coupon => coupon.code
  ratesCache : Option RatesCache
  /-- Newest first. -/
  intents : List Intent

/-! ## CurrencyConversionService -/

/-- One hour. -/
def cacheTtlMs : Int := 60 * 60 * 1000

def getRates (around : Surroundings) (ratesCache : Option RatesCache) :
    Except HttpException Rates × Option RatesCache :=
  match ratesCache.filter fun cached => around.now - cached.fetchedAt < cacheTtlMs with
  | some cached => (.ok cached.rates, ratesCache)
  | none =>
    match around.fetch, ratesCache with
    | .ok rates, _ => (.ok rates, some { rates, fetchedAt := around.now })
    | .error _, some cached => (.ok cached.rates, ratesCache)
    | .error err, none => (.error err, none)

/-- `Math.round`. -/
def round (x : Rat) : Int := ⌊x + 1 / 2⌋

def convert (around : Surroundings) (ratesCache : Option RatesCache) (amountInUsd : Rat)
    (targetCurrency : SupportedCurrency) : Except HttpException Rat × Option RatesCache :=
  if targetCurrency = .usd then (.ok amountInUsd, ratesCache)
  else
    let (rates, ratesCache) := getRates around ratesCache
    (rates.bind fun rates =>
      match (rates targetCurrency).filter fun rate => rate ≠ 0 with
      | none => .error (.internal ("Unsupported currency: " ++ targetCurrency.code))
      | some rate => .ok (round (amountInUsd * rate * 100) / 100), ratesCache)

def zeroDecimal : List SupportedCurrency := [.kes, .ngn, .ghs]

def toStripeAmount (around : Surroundings) (ratesCache : Option RatesCache) (amountInUsd : Rat)
    (targetCurrency : SupportedCurrency) : Except HttpException Int × Option RatesCache :=
  let (converted, ratesCache) := convert around ratesCache amountInUsd targetCurrency
  (converted.map fun converted =>
    if targetCurrency ∈ zeroDecimal then round converted else round (converted * 100), ratesCache)

/-! ## What requests do -/

/-- The row after `increment({ code }, 'usageCount', 1)`. -/
def incremented (code : String) (coupon : Coupon) : Coupon :=
  if coupon.code = code then { coupon with usageCount := coupon.usageCount + 1 } else coupon

theorem incremented_code (code : String) (coupon : Coupon) :
    (incremented code coupon).code = coupon.code := by
  unfold incremented
  split <;> rfl

/-- A request that does not fail. -/
def respond (around : Surroundings) (s : State) :
    (q : Request) → Except HttpException q.value × State
  | .findCourse courseId => (.ok (s.courses.findOne fun course => course.id = courseId), s)
  | .findCoupon code => (.ok (s.coupons.findOne fun coupon => coupon.code = code), s)
  | .increment code =>
    (.ok (), { s with coupons := s.coupons.update (incremented code) (incremented_code code) })
  | .toStripeAmount amountInUsd targetCurrency =>
    let (amount, ratesCache) := toStripeAmount around s.ratesCache amountInUsd targetCurrency
    (amount, { s with ratesCache })
  | .createIntent intent => (.ok around.clientSecret, { s with intents := intent :: s.intents })

/-- A request that fails changes nothing. -/
def handle (around : Surroundings) (s : State) (q : Request) :
    Except HttpException q.value × State :=
  match around.fails q with
  | some x => (.error x, s)
  | none => respond around s q

/-- A method of a service. -/
abbrev Method (A : Type) : Type := Process paymentsInterface Surroundings HttpException A

/-- Await a request, and throw what it fails with. -/
def request (q : Request) : Method q.value := do
  Process.ofExcept (← Process.perform (I := paymentsInterface) q)

/-! ## CouponsService -/

structure Validation where
  valid : Bool
  discount : Rat
  discountType : DiscountType

def Validation.refused : Validation where
  valid := false
  discount := 0
  discountType := .fixed

/-- `maxUsage`, if it is truthy. -/
def limit (coupon : Coupon) : Option Nat := coupon.maxUsage.filter fun n => n ≠ 0

/-- `validateForCheckout`, once the coupon is looked up. -/
def checkout (now : Int) (priceUsd : Rat) : Option Coupon → Validation
  | none => .refused
  | some coupon =>
    if !coupon.isActive then .refused
    else if coupon.expiresAt.any fun expiresAt => expiresAt < now then .refused
    else if (limit coupon).any fun maxUsage => maxUsage ≤ coupon.usageCount then .refused
    else
      { valid := true
        discount := match coupon.discountType with
          | .percentage => priceUsd * coupon.discountValue / 100
          | .fixed => min coupon.discountValue priceUsd
        discountType := coupon.discountType }

def validateForCheckout (code : String) (priceUsd : Rat) : Method Validation := do
  let coupon ← request (.findCoupon code)
  let around ← Process.env
  pure (checkout around.now priceUsd coupon)

def incrementUsage (code : String) : Method Unit := request (.increment code)

/-! ## PaymentsService -/

/-- The variables that a coupon changes. -/
structure Price where
  priceUsd : Rat
  discountApplied : Rat

/-- The block of `if (couponCode)`. -/
def applyCoupon (couponCode : Option String) (priceUsd : Rat) : Method Price :=
  match truthy couponCode with
  | none => pure { priceUsd, discountApplied := 0 }
  | some couponCode => do
    let validation ← validateForCheckout couponCode priceUsd
    if validation.valid then do
      incrementUsage couponCode
      pure { priceUsd := max 0 (priceUsd - validation.discount)
             discountApplied := validation.discount }
    else pure { priceUsd, discountApplied := 0 }

structure PaymentIntent where
  clientSecret : String
  amount : Int
  currency : SupportedCurrency
  courseId : String
  discountApplied : Rat
  finalPriceUsd : Rat

def createPaymentIntent (courseId : String) (currency : SupportedCurrency) (userId : String)
    (couponCode : Option String) : Method PaymentIntent := do
  let course ← request (.findCourse courseId)
  match course with
  | none => .fail (.notFound "Course not found")
  | some course =>
    match course.priceUsd.filter fun priceUsd => 0 < priceUsd with
    | none => .fail (.badRequest "This course is free and does not require payment")
    | some priceUsd => do
      let price ← applyCoupon couponCode priceUsd
      let amount ← request (.toStripeAmount price.priceUsd currency)
      let clientSecret ← request (.createIntent {
        amount
        currency := currency.code.toLower
        metadata := { courseId, userId, couponCode := couponCode.getD "" } })
      pure { clientSecret, amount, currency, courseId
             discountApplied := price.discountApplied
             finalPriceUsd := price.priceUsd }

end Scoopdope.Payments

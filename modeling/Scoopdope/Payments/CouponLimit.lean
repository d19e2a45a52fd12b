import Scoopdope.Async.CheckThenAct
import Scoopdope.Payments.Service

/-!
# Payments: the limit of a coupon

A payment looks at the usage of its coupon, counts its own use, and creates the payment intent
after that, with other payments in between. A payment that fails after it has counted does not take
its use back.

`usage_counted`: the usage is that at the start, and one for each payment that has counted.
`coupon_limit_iff`: the limit is kept, and the usage is that of the intents when no payment is
under way, exactly when every use that is counted finds one left, and no payment fails after
that.
-/

namespace Scoopdope.Payments

open Async Database Server Soroban

structure Call where
  courseId : String
  currency : SupportedCurrency
  userId : String
  couponCode : Option String

def Call.start (c : Call) : Method PaymentIntent :=
  createPaymentIntent c.courseId c.currency c.userId c.couponCode

def system : System paymentsInterface Surroundings HttpException PaymentIntent State Call where
  start := Call.start
  handle := handle

/-! ## Stages -/

/-- What a payment has done with the coupon. The price is discounted when the use is counted. -/
inductive Stage
  | notApplied
  | counted
  /-- The intent is created. -/
  | created
  /-- A request has failed after the use was counted. -/
  | lost
deriving DecidableEq

namespace Stage

def Allows : Stage → Request → Prop
  | notApplied, _ => True
  | counted, .toStripeAmount _ _ => True
  | counted, .createIntent _ => True
  | _, _ => False

def next (code : String) : Stage → (q : Request) → Except HttpException q.value → Stage
  | notApplied, .increment code', .ok _ => if code' = code then counted else notApplied
  | counted, .createIntent _, .ok _ => created
  | counted, _, .error _ => lost
  | stage, _, _ => stage

/-- A payment that is done has not stopped between the two. -/
def Done (stage : Stage) : Prop := stage ≠ counted

end Stage

def protocol (code : String) : Protocol paymentsInterface Stage where
  Allows := Stage.Allows
  next := Stage.next code

section Follows

variable {code : String}

theorem follows_request {q : Request} {stage : Stage} {ok : Stage → q.value → Prop}
    {bad : Stage → HttpException → Prop} (hallows : stage.Allows q)
    (hok : ∀ value, ok (stage.next code q (.ok value)) value)
    (hbad : ∀ x, bad (stage.next code q (.error x)) x) :
    (request q).Follows (protocol code) ok bad stage := by
  refine ⟨hallows, fun answer => ?_⟩
  cases answer with
  | ok value => exact hok value
  | error x => exact hbad x

/-- Only a payment that has counted gets the discount of the coupon. -/
theorem follows_applyCoupon (couponCode : Option String) (priceUsd : Rat) :
    (applyCoupon couponCode priceUsd).Follows (protocol code)
      (fun stage price => stage = .counted ∨
        stage = .notApplied ∧ (couponCode = some code → price.discountApplied = 0))
      (fun stage _ => stage.Done) .notApplied := by
  unfold applyCoupon
  split
  · exact .inr ⟨rfl, fun _ => rfl⟩
  · next code' htruthy =>
    obtain ⟨rfl, -⟩ := truthy_eq_some.mp htruthy
    refine Process.follows_bind (fun stage _ => stage = .notApplied) ?_ ?_
    · refine Process.follows_bind (fun stage _ => stage = .notApplied) ?_ ?_
      · exact follows_request trivial (fun _ => rfl) fun _ => nofun
      · rintro stage coupon rfl
        exact fun _ => rfl
    rintro stage validation rfl
    split
    · refine Process.follows_bind
        (fun stage _ => stage = if code' = code then .counted else .notApplied) ?_ ?_
      · exact follows_request trivial (fun _ => rfl) fun _ => nofun
      · rintro stage - rfl
        by_cases hcode : code' = code
        · rw [if_pos hcode]
          exact .inl rfl
        · rw [if_neg hcode]
          exact .inr ⟨rfl, fun h => absurd (Option.some.inj h) hcode⟩
    · exact .inr ⟨rfl, fun _ => rfl⟩

theorem follows_createPaymentIntent (courseId : String) (currency : SupportedCurrency)
    (userId : String) (couponCode : Option String) :
    (createPaymentIntent courseId currency userId couponCode).Follows (protocol code)
      (fun stage intent => stage = .created ∨
        stage = .notApplied ∧ (couponCode = some code → intent.discountApplied = 0))
      (fun stage _ => stage.Done) .notApplied := by
  unfold createPaymentIntent
  refine Process.follows_bind (fun stage _ => stage = .notApplied) ?_ ?_
  · exact follows_request trivial (fun _ => rfl) fun _ => nofun
  rintro stage course rfl
  split
  · exact nofun
  split
  · exact nofun
  · next course priceUsd hprice =>
    refine Process.follows_bind _ (follows_applyCoupon couponCode priceUsd) ?_
    rintro stage price hstage
    refine Process.follows_bind (fun stage _ => stage = .counted ∨
      stage = .notApplied ∧ (couponCode = some code → price.discountApplied = 0)) ?_ ?_
    · rcases hstage with rfl | ⟨rfl, hnone⟩
      · exact follows_request trivial (fun _ => .inl rfl) fun _ => nofun
      · exact follows_request trivial (fun _ => .inr ⟨rfl, hnone⟩) fun _ => nofun
    rintro stage amount hstage
    refine Process.follows_bind (fun stage _ => stage = .created ∨
      stage = .notApplied ∧ (couponCode = some code → price.discountApplied = 0)) ?_ ?_
    · rcases hstage with rfl | ⟨rfl, hnone⟩
      · exact follows_request trivial (fun _ => .inl rfl) fun _ => nofun
      · exact follows_request trivial (fun _ => .inr ⟨rfl, hnone⟩) fun _ => nofun
    · rintro stage clientSecret hstage
      exact hstage

theorem follows_start (c : Call) :
    c.start.Follows (protocol code) (fun stage _ => stage.Done) (fun stage _ => stage.Done)
      .notApplied := by
  refine (follows_createPaymentIntent _ _ _ _).mono ?_ fun _ _ h => h
  rintro stage intent (rfl | ⟨rfl, -⟩) <;> exact nofun

end Follows

/-! ## Runs -/

section Runs

variable {R : Type} [DecidableEq R]

abbrev CallPool (R : Type) : Type :=
  Pool paymentsInterface Surroundings HttpException PaymentIntent State Call R

abbrev CallEvent (R : Type) : Type := Event Surroundings Call R

variable (code : String) (s₀ : State) (past : List (CallEvent R)) (i : CallEvent R)

/-- What is reached by a schedule, newest event first. -/
def reached : CallPool R := after system.exec (Pool.idle s₀) past

def stages : R → Stage := (protocol code).stages system .notApplied s₀ past

/-- The payment that counts a use of the coupon, if an event does. -/
def countsAt (pool : CallPool R) : Option R :=
  match pool.performs i with
  | some (r, around, _, .increment code') =>
    if code' = code ∧ around.fails (.increment code') = none then some r else none
  | _ => none

/-- The payment that creates its intent with the discount, if an event does. -/
def createsAt : Option R :=
  match (reached s₀ past).performs i with
  | some (r, around, _, .createIntent intent) =>
    if stages code s₀ past r = .counted ∧ around.fails (.createIntent intent) = none then some r
    else none
  | _ => none

/-- The uses of the coupon that are counted, newest first. -/
def uses : List R := effects (fun past i => countsAt code i (reached s₀ past)) past

/-- The payment intents that are created with the discount of the coupon, newest first. -/
def discounted : List R := effects (createsAt code s₀) past

def usageCount (s : State) : Option Nat := (s.coupons.get code).map fun coupon => coupon.usageCount

/-- The limit of the coupon. -/
def maxUsage (s : State) : Option Nat := (s.coupons.get code).bind limit

variable {code s₀ past i}

theorem stages_cons : stages code s₀ (i :: past) =
    (protocol code).note system .notApplied (reached s₀ past) i (stages code s₀ past) := rfl

theorem stages_idle (h : (reached s₀ past).performs i = none) :
    stages code s₀ (i :: past) = stages code s₀ past :=
  Protocol.stages_of_none h

theorem stages_performs {r : R} {around : Surroundings} {c : Call} {q : Request}
    (h : (reached s₀ past).performs i = some (r, around, c, q)) :
    stages code s₀ (i :: past) = Function.update (stages code s₀ past) r
      ((stages code s₀ past r).next code q (handle around (reached s₀ past).shared q).1) :=
  Protocol.note_performs h

theorem allows_of_performs {r : R} {around : Surroundings} {c : Call} {q : Request}
    (h : (reached s₀ past).performs i = some (r, around, c, q)) :
    (stages code s₀ past r).Allows q :=
  Protocol.allows_of_performs follows_start h

/-! ## Steps -/

section Usage

variable {around : Surroundings} {s : State} {code' : String} {q : Request}

theorem coupons_handle (h : ∀ code', q ≠ .increment code') :
    (handle around s q).2.coupons = s.coupons := by
  unfold handle
  cases around.fails q with
  | some x => rfl
  | none =>
    cases q with
    | increment code' => exact absurd rfl (h code')
    | _ => rfl

theorem usageCount_of_coupons {s' : State} (h : s'.coupons = s.coupons) :
    usageCount code s' = usageCount code s := by
  unfold usageCount
  rw [h]

theorem handle_failing {x : HttpException} (h : around.fails q = some x) :
    handle around s q = (.error x, s) := by
  unfold handle
  rw [h]

theorem coupons_increment (h : around.fails (.increment code') = none) :
    (handle around s (.increment code')).2.coupons =
      s.coupons.update (incremented code') (incremented_code code') := by
  unfold handle
  rw [h]
  rfl

/-- No request changes the limit. -/
theorem maxUsage_handle : maxUsage code (handle around s q).2 = maxUsage code s := by
  have hsame (h : (handle around s q).2.coupons = s.coupons) :
      maxUsage code (handle around s q).2 = maxUsage code s := by
    unfold maxUsage
    rw [h]
  cases q with
  | increment code' =>
    cases hfails : around.fails (.increment code') with
    | some x => rw [handle_failing hfails]
    | none =>
      unfold maxUsage
      rw [coupons_increment hfails, Repository.get_update]
      cases s.coupons.get code with
      | none => rfl
      | some coupon =>
        rw [Option.map_some, Option.bind_some, Option.bind_some]
        unfold incremented
        split <;> rfl
  | _ => exact hsame (coupons_handle nofun)

theorem usageCount_increment (h : around.fails (.increment code') = none) :
    usageCount code (handle around s (.increment code')).2 =
      if code' = code then (usageCount code s).map Nat.succ else usageCount code s := by
  unfold usageCount
  rw [coupons_increment h, Repository.get_update]
  cases hcoupon : s.coupons.get code with
  | none => rw [Option.map_none, Option.map_none, Option.map_none, ite_self]
  | some coupon =>
    have hcode : coupon.code = code := Repository.key_of_get hcoupon
    rw [Option.map_some, Option.map_some, Option.map_some, Option.map_some]
    unfold incremented
    split
    · next hsame => rw [if_pos (hsame.symm.trans hcode)]
    · next hother => rw [if_neg fun h => hother (hcode.trans h.symm)]

end Usage

/-- What an event does with the coupon. -/
inductive Moves (code : String) (s₀ : State) (past : List (CallEvent R)) (i : CallEvent R) : Prop
  | counts (r : R) (around : Surroundings) (c : Call)
      (performs : (reached s₀ past).performs i = some (r, around, c, .increment code))
      (succeeds : around.fails (.increment code) = none)
      (before : stages code s₀ past r = .notApplied)
      (uses : uses code s₀ (i :: past) = r :: uses code s₀ past)
      (discounted : discounted code s₀ (i :: past) = discounted code s₀ past)
      (stages : stages code s₀ (i :: past) = Function.update (stages code s₀ past) r .counted)
      (usage : usageCount code (reached s₀ (i :: past)).shared =
        (usageCount code (reached s₀ past).shared).map Nat.succ)
  | creates (r : R)
      (succeeds : ∀ around c q x, (reached s₀ past).performs i = some (r, around, c, q) →
        (handle around (reached s₀ past).shared q).1 ≠ .error x)
      (before : stages code s₀ past r = .counted)
      (uses : uses code s₀ (i :: past) = uses code s₀ past)
      (discounted : discounted code s₀ (i :: past) = r :: discounted code s₀ past)
      (stages : stages code s₀ (i :: past) = Function.update (stages code s₀ past) r .created)
      (usage : usageCount code (reached s₀ (i :: past)).shared =
        usageCount code (reached s₀ past).shared)
  | loses (r : R) (around : Surroundings) (c : Call) (q : Request) (x : HttpException)
      (performs : (reached s₀ past).performs i = some (r, around, c, q))
      (fails : (handle around (reached s₀ past).shared q).1 = .error x)
      (before : stages code s₀ past r = .counted)
      (uses : uses code s₀ (i :: past) = uses code s₀ past)
      (discounted : discounted code s₀ (i :: past) = discounted code s₀ past)
      (stages : stages code s₀ (i :: past) = Function.update (stages code s₀ past) r .lost)
      (usage : usageCount code (reached s₀ (i :: past)).shared =
        usageCount code (reached s₀ past).shared)
  | none
      (uses : uses code s₀ (i :: past) = uses code s₀ past)
      (discounted : discounted code s₀ (i :: past) = discounted code s₀ past)
      (stages : stages code s₀ (i :: past) = stages code s₀ past)
      (usage : usageCount code (reached s₀ (i :: past)).shared =
        usageCount code (reached s₀ past).shared)

theorem shared_performs {r : R} {around : Surroundings} {c : Call} {q : Request}
    (h : (reached s₀ past).performs i = some (r, around, c, q)) :
    (reached s₀ (i :: past)).shared = (handle around (reached s₀ past).shared q).2 :=
  System.shared_of_performs (System.after_exec system past i) h

theorem maxUsage_reached : maxUsage code (reached s₀ past).shared = maxUsage code s₀ := by
  induction past with
  | nil => rfl
  | cons i past ih =>
    cases hperforms : (reached s₀ past).performs i with
    | none =>
      have hshared : (reached s₀ (i :: past)).shared = (reached s₀ past).shared :=
        System.shared_of_idle (System.after_exec system past i) hperforms
      rw [hshared, ih]
    | some moved =>
      obtain ⟨r, around, c, q⟩ := moved
      rw [shared_performs hperforms, maxUsage_handle, ih]

theorem uses_of_none (h : countsAt code i (reached s₀ past) = none) :
    uses code s₀ (i :: past) = uses code s₀ past :=
  effects_of_none h

theorem discounted_of_none (h : createsAt code s₀ past i = none) :
    discounted code s₀ (i :: past) = discounted code s₀ past :=
  effects_of_none h

theorem countsAt_other {r : R} {around : Surroundings} {c : Call} {q : Request}
    (h : (reached s₀ past).performs i = some (r, around, c, q))
    (hq : q = .increment code → around.fails q ≠ none) :
    countsAt code i (reached s₀ past) = none := by
  unfold countsAt
  rw [h]
  cases q with
  | increment code' =>
    refine if_neg ?_
    rintro ⟨rfl, hnone⟩
    exact hq rfl hnone
  | _ => rfl

theorem createsAt_other {r : R} {around : Surroundings} {c : Call} {q : Request}
    (h : (reached s₀ past).performs i = some (r, around, c, q))
    (hq : ∀ intent, q = .createIntent intent → stages code s₀ past r = .counted →
      around.fails q ≠ none) : createsAt code s₀ past i = none := by
  unfold createsAt
  rw [h]
  cases q with
  | createIntent intent => exact if_neg fun hcreates => hq intent rfl hcreates.1 hcreates.2
  | _ => rfl

/-- A payment whose stage stays as it is does nothing with the coupon. -/
theorem moves_none {r : R} {around : Surroundings} {c : Call} {q : Request}
    (h : (reached s₀ past).performs i = some (r, around, c, q))
    (hcounts : q = .increment code → around.fails q ≠ none)
    (hcreates : ∀ intent, q = .createIntent intent → stages code s₀ past r = .counted →
      around.fails q ≠ none)
    (hstage : (stages code s₀ past r).next code q (handle around (reached s₀ past).shared q).1 =
      stages code s₀ past r)
    (husage : usageCount code (handle around (reached s₀ past).shared q).2 =
      usageCount code (reached s₀ past).shared) : Moves code s₀ past i := by
  refine .none (uses_of_none (countsAt_other h hcounts))
    (discounted_of_none (createsAt_other h hcreates)) ?_ ?_
  · rw [stages_performs h, hstage, Function.update_eq_self]
  · rw [shared_performs h, husage]

section Stages

variable {r : R} {around : Surroundings} {c : Call} {q : Request}

/-- A payment that has not counted the use counts it, or does nothing with the coupon. -/
theorem moves_notApplied (hperforms : (reached s₀ past).performs i = some (r, around, c, q))
    (hstage : stages code s₀ past r = .notApplied) : Moves code s₀ past i := by
  have hcreates (intent : Intent) (_ : q = .createIntent intent)
      (h : stages code s₀ past r = .counted) : around.fails q ≠ none := by
    rw [hstage] at h
    cases h
  cases hfails : around.fails q with
  | some x =>
    refine moves_none hperforms (fun _ => ?_) hcreates ?_ ?_
    · rw [hfails]
      exact nofun
    · rw [handle_failing hfails, hstage]
      cases q <;> rfl
    · rw [handle_failing hfails]
  | none =>
    have hother (h : ∀ code', q ≠ .increment code')
        (hnext : ∀ answer, Stage.notApplied.next code q answer = .notApplied) :
        Moves code s₀ past i := by
      refine moves_none hperforms (fun hq => absurd hq (h code)) hcreates ?_ ?_
      · rw [hstage, hnext]
      · exact usageCount_of_coupons (coupons_handle h)
    cases q with
    | increment code' =>
      have hanswer : (handle around (reached s₀ past).shared (.increment code')).1 = .ok () := by
        unfold handle
        rw [hfails]
        rfl
      by_cases hcode : code' = code
      · subst hcode
        have hcounts : countsAt code' i (reached s₀ past) = some r := by
          rw [countsAt, hperforms]
          exact if_pos ⟨rfl, hfails⟩
        refine .counts r around c hperforms hfails hstage (effects_of_some hcounts)
          (discounted_of_none (createsAt_other hperforms hcreates)) ?_ ?_
        · rw [stages_performs hperforms, hstage, hanswer]
          exact congrArg _ (if_pos rfl)
        · rw [shared_performs hperforms, usageCount_increment hfails, if_pos rfl]
      · refine moves_none hperforms (fun h => ?_) hcreates ?_ ?_
        · cases h
          exact absurd rfl hcode
        · rw [hstage, hanswer]
          exact if_neg hcode
        · rw [usageCount_increment hfails, if_neg hcode]
    | findCourse courseId => exact hother nofun fun answer => by cases answer <;> rfl
    | findCoupon code' => exact hother nofun fun answer => by cases answer <;> rfl
    | toStripeAmount amount currency =>
      exact hother nofun fun answer => by cases answer <;> rfl
    | createIntent intent => exact hother nofun fun answer => by cases answer <;> rfl

/-- A payment that has counted the use creates its intent, goes on to it or loses the use. -/
theorem moves_counted (hperforms : (reached s₀ past).performs i = some (r, around, c, q))
    (hallows : Stage.counted.Allows q) (hstage : stages code s₀ past r = .counted) :
    Moves code s₀ past i := by
  have hincrement (code' : String) : q ≠ .increment code' := by
    rintro rfl
    exact hallows
  have huses := uses_of_none (countsAt_other hperforms fun hq => absurd hq (hincrement code))
  have husage : usageCount code (reached s₀ (i :: past)).shared =
      usageCount code (reached s₀ past).shared := by
    rw [shared_performs hperforms]
    exact usageCount_of_coupons (coupons_handle hincrement)
  have hstages : stages code s₀ (i :: past) = _ := stages_performs hperforms
  rw [hstage] at hstages
  cases q with
  | toStripeAmount amount currency =>
    have hcreates : discounted code s₀ (i :: past) = _ :=
      discounted_of_none (createsAt_other hperforms nofun)
    cases hanswer : (handle around (reached s₀ past).shared
        (.toStripeAmount amount currency)).1 with
    | ok value =>
      rw [hanswer] at hstages
      refine .none huses hcreates ?_ husage
      exact hstages.trans (Function.update_eq_self_iff.mpr hstage.symm)
    | error x =>
      rw [hanswer] at hstages
      exact .loses r around c _ x hperforms hanswer hstage huses hcreates hstages husage
  | createIntent intent =>
    cases hfails : around.fails (.createIntent intent) with
    | some x =>
      have hanswer := congrArg Prod.fst (handle_failing (s := (reached s₀ past).shared) hfails)
      rw [hanswer] at hstages
      have hcreates : createsAt code s₀ past i = none :=
        createsAt_other hperforms fun _ _ _ => by rw [hfails]; exact nofun
      exact .loses r around c _ x hperforms hanswer hstage huses
        (discounted_of_none hcreates) hstages husage
    | none =>
      have hanswer : (handle around (reached s₀ past).shared (.createIntent intent)).1 =
          .ok around.clientSecret := by
        unfold handle
        rw [hfails]
        rfl
      rw [hanswer] at hstages
      have hcreates : createsAt code s₀ past i = some r := by
        rw [createsAt, hperforms]
        exact if_pos ⟨hstage, hfails⟩
      refine .creates r ?_ hstage huses (effects_of_some hcreates) hstages husage
      intro around' c' q' x hperforms'
      rw [hperforms] at hperforms'
      cases hperforms'
      rw [hanswer]
      exact nofun
  | findCourse courseId => exact hallows.elim
  | findCoupon code' => exact hallows.elim
  | increment code' => exact hallows.elim

end Stages

theorem moves (code : String) (s₀ : State) (past : List (CallEvent R)) (i : CallEvent R) :
    Moves code s₀ past i := by
  cases hperforms : (reached s₀ past).performs i with
  | none =>
    refine .none (uses_of_none ?_) (discounted_of_none ?_) (stages_idle hperforms) ?_
    · rw [countsAt, hperforms]
    · rw [createsAt, hperforms]
    · have hshared : (reached s₀ (i :: past)).shared = (reached s₀ past).shared :=
        System.shared_of_idle (System.after_exec system past i) hperforms
      rw [hshared]
  | some moved =>
    obtain ⟨r, around, c, q⟩ := moved
    have hallows : (stages code s₀ past r).Allows q := allows_of_performs hperforms
    cases hstage : stages code s₀ past r with
    | notApplied => exact moves_notApplied hperforms hstage
    | counted =>
      rw [hstage] at hallows
      exact moves_counted hperforms hallows hstage
    | created =>
      rw [hstage] at hallows
      exact hallows.elim
    | lost =>
      rw [hstage] at hallows
      exact hallows.elim

/-! ## Invariants -/

variable (code s₀ past) in
structure Inv : Prop where
  usage : usageCount code (reached s₀ past).shared =
    (usageCount code s₀).map fun usage => usage + (uses code s₀ past).length
  uses : ∀ r, r ∈ uses code s₀ past ↔ stages code s₀ past r ≠ .notApplied
  discounted : ∀ r, r ∈ discounted code s₀ past ↔ stages code s₀ past r = .created
  nodup_uses : (Payments.uses code s₀ past).Nodup
  nodup_discounted : (Payments.discounted code s₀ past).Nodup

section Update

variable {P : Stage → Prop} {stage : Stage} {before : R → Stage} {l : List R} {r : R}

theorem mem_iff_update (h : ∀ r', r' ∈ l ↔ P (before r')) (hsame : P stage ↔ P (before r))
    (r' : R) : r' ∈ l ↔ P (Function.update before r stage r') := by
  rw [h, Function.update_apply]
  split
  · next hr =>
    rw [hr]
    exact hsame.symm
  · rfl

theorem mem_cons_iff_update (h : ∀ r', r' ∈ l ↔ P (before r')) (hstage : P stage) (r' : R) :
    r' ∈ r :: l ↔ P (Function.update before r stage r') := by
  rw [List.mem_cons, h, Function.update_apply]
  by_cases hr : r' = r
  · rw [if_pos hr]
    exact iff_of_true (.inl hr) hstage
  · rw [if_neg hr, or_iff_right hr]

end Update

section Kept

variable {r : R} (hinv : Inv code s₀ past)
include hinv

/-- A use is counted. -/
theorem inv_counts (hbefore : stages code s₀ past r = .notApplied)
    (huses : uses code s₀ (i :: past) = r :: uses code s₀ past)
    (hdiscounted : discounted code s₀ (i :: past) = discounted code s₀ past)
    (hstages : stages code s₀ (i :: past) = Function.update (stages code s₀ past) r .counted)
    (husage : usageCount code (reached s₀ (i :: past)).shared =
      (usageCount code (reached s₀ past).shared).map Nat.succ) : Inv code s₀ (i :: past) where
  usage := by
    rw [husage, hinv.usage, huses, Option.map_map]
    rfl
  uses := by
    rw [huses, hstages]
    exact mem_cons_iff_update (P := fun stage => stage ≠ .notApplied) hinv.uses nofun
  discounted := by
    rw [hdiscounted, hstages]
    refine mem_iff_update (P := fun stage => stage = .created) hinv.discounted ?_
    rw [hbefore]
    exact iff_of_false nofun nofun
  nodup_uses := by
    have hnew : r ∉ uses code s₀ past := fun hmem => (hinv.uses r).mp hmem hbefore
    rw [huses]
    exact List.nodup_cons.mpr ⟨hnew, hinv.nodup_uses⟩
  nodup_discounted := by
    rw [hdiscounted]
    exact hinv.nodup_discounted

/-- Who has counted a use goes on without another: the intent is created, or the use is lost. -/
theorem inv_leaves (stage : Stage) (hbefore : stages code s₀ past r = .counted)
    (hstage : stage ≠ .notApplied) (huses : uses code s₀ (i :: past) = uses code s₀ past)
    (hstages : stages code s₀ (i :: past) = Function.update (stages code s₀ past) r stage)
    (husage : usageCount code (reached s₀ (i :: past)).shared =
      usageCount code (reached s₀ past).shared)
    (hdiscounted : ∀ r', r' ∈ discounted code s₀ (i :: past) ↔
      Function.update (stages code s₀ past) r stage r' = .created)
    (hnodup : (discounted code s₀ (i :: past)).Nodup) : Inv code s₀ (i :: past) where
  usage := by rw [husage, hinv.usage, huses]
  uses := by
    rw [huses, hstages]
    refine mem_iff_update (P := fun stage => stage ≠ .notApplied) hinv.uses ?_
    rw [hbefore]
    exact iff_of_true hstage nofun
  discounted := by
    rw [hstages]
    exact hdiscounted
  nodup_uses := by
    rw [huses]
    exact hinv.nodup_uses
  nodup_discounted := hnodup

theorem inv_creates (hbefore : stages code s₀ past r = .counted)
    (huses : uses code s₀ (i :: past) = uses code s₀ past)
    (hdiscounted : discounted code s₀ (i :: past) = r :: discounted code s₀ past)
    (hstages : stages code s₀ (i :: past) = Function.update (stages code s₀ past) r .created)
    (husage : usageCount code (reached s₀ (i :: past)).shared =
      usageCount code (reached s₀ past).shared) : Inv code s₀ (i :: past) := by
  have hnew : r ∉ discounted code s₀ past := by
    rw [hinv.discounted, hbefore]
    exact nofun
  refine inv_leaves hinv .created hbefore nofun huses hstages husage ?_ ?_
  · rw [hdiscounted]
    exact mem_cons_iff_update (P := fun stage => stage = .created) hinv.discounted rfl
  · rw [hdiscounted]
    exact List.nodup_cons.mpr ⟨hnew, hinv.nodup_discounted⟩

theorem inv_loses (hbefore : stages code s₀ past r = .counted)
    (huses : uses code s₀ (i :: past) = uses code s₀ past)
    (hdiscounted : discounted code s₀ (i :: past) = discounted code s₀ past)
    (hstages : stages code s₀ (i :: past) = Function.update (stages code s₀ past) r .lost)
    (husage : usageCount code (reached s₀ (i :: past)).shared =
      usageCount code (reached s₀ past).shared) : Inv code s₀ (i :: past) := by
  refine inv_leaves hinv .lost hbefore nofun huses hstages husage ?_ ?_
  · rw [hdiscounted]
    refine mem_iff_update (P := fun stage => stage = .created) hinv.discounted ?_
    rw [hbefore]
    exact iff_of_false nofun nofun
  · rw [hdiscounted]
    exact hinv.nodup_discounted

theorem inv_none (huses : uses code s₀ (i :: past) = uses code s₀ past)
    (hdiscounted : discounted code s₀ (i :: past) = discounted code s₀ past)
    (hstages : stages code s₀ (i :: past) = stages code s₀ past)
    (husage : usageCount code (reached s₀ (i :: past)).shared =
      usageCount code (reached s₀ past).shared) : Inv code s₀ (i :: past) where
  usage := by rw [husage, hinv.usage, huses]
  uses := by
    rw [huses, hstages]
    exact hinv.uses
  discounted := by
    rw [hdiscounted, hstages]
    exact hinv.discounted
  nodup_uses := by
    rw [huses]
    exact hinv.nodup_uses
  nodup_discounted := by
    rw [hdiscounted]
    exact hinv.nodup_discounted

end Kept

theorem inv_reached (code : String) (s₀ : State) (past : List (CallEvent R)) :
    Inv code s₀ past := by
  induction past with
  | nil =>
    refine ⟨?_, fun r => iff_of_false nofun fun h => h rfl, fun r => iff_of_false nofun nofun,
      List.nodup_nil, List.nodup_nil⟩
    cases h : usageCount code s₀ <;> exact h
  | cons i past ih =>
    cases moves code s₀ past i with
    | counts r around c performs succeeds before uses discounted stages usage =>
      exact inv_counts ih before uses discounted stages usage
    | creates r succeeds before uses discounted stages usage =>
      exact inv_creates ih before uses discounted stages usage
    | loses r around c q x performs fails before uses discounted stages usage =>
      exact inv_loses ih before uses discounted stages usage
    | none uses discounted stages usage => exact inv_none ih uses discounted stages usage

/-- Whoever has created the intent has counted the use. -/
theorem discounted_subset : discounted code s₀ past ⊆ uses code s₀ past := by
  intro r hr
  rw [(inv_reached code s₀ past).discounted] at hr
  rw [(inv_reached code s₀ past).uses, hr]
  exact nofun

theorem discounted_length_le :
    (discounted code s₀ past).length ≤ (uses code s₀ past).length :=
  (List.subperm_of_subset (inv_reached code s₀ past).nodup_discounted discounted_subset).length_le

/-- A use that is lost is one more than there are intents. -/
theorem discounted_length_lt {r : R} (h : stages code s₀ past r = .lost) :
    (discounted code s₀ past).length < (uses code s₀ past).length := by
  have hinv := inv_reached code s₀ past
  have hnew : r ∉ discounted code s₀ past := by
    rw [hinv.discounted, h]
    exact nofun
  have hsubset : r :: discounted code s₀ past ⊆ uses code s₀ past := by
    refine List.cons_subset.mpr ⟨?_, discounted_subset⟩
    rw [hinv.uses, h]
    exact nofun
  exact (List.subperm_of_subset (List.nodup_cons.mpr ⟨hnew, hinv.nodup_discounted⟩)
    hsubset).length_le

/-- The uses are the intents where no payment is between the two, and none is lost. -/
theorem discounted_length_eq (hcounted : ∀ r, stages code s₀ past r ≠ .counted)
    (hlost : ∀ r, stages code s₀ past r ≠ .lost) :
    (discounted code s₀ past).length = (uses code s₀ past).length := by
  have hinv := inv_reached code s₀ past
  refine discounted_length_le.antisymm
    (List.subperm_of_subset hinv.nodup_uses fun r hr => ?_).length_le
  rw [hinv.uses] at hr
  rw [hinv.discounted]
  cases hstage : stages code s₀ past r with
  | notApplied => exact absurd hstage hr
  | counted => exact absurd hstage (hcounted r)
  | created => rfl
  | lost => exact absurd hstage (hlost r)

/-- A use that is lost stays lost. -/
theorem lost_cons {r : R} (h : stages code s₀ past r = .lost) :
    stages code s₀ (i :: past) r = .lost := by
  have hkept {r' : R} {stage stage' : Stage} (hbefore : stages code s₀ past r' = stage)
      (hne : stage ≠ .lost)
      (hstages : stages code s₀ (i :: past) = Function.update (stages code s₀ past) r' stage') :
      stages code s₀ (i :: past) r = .lost := by
    rw [hstages, Function.update_of_ne, h]
    rintro rfl
    exact hne (hbefore.symm.trans h)
  cases moves code s₀ past i with
  | counts r' around c performs succeeds before uses discounted stages usage =>
    exact hkept before nofun stages
  | creates r' succeeds before uses discounted stages usage => exact hkept before nofun stages
  | loses r' around c q x performs fails before uses discounted stages usage =>
    exact hkept before nofun stages
  | none uses discounted stages usage => rw [stages, h]

theorem lost_suffix {earlier : List (CallEvent R)} (hs : earlier <:+ past) {r : R}
    (h : stages code s₀ earlier r = .lost) : stages code s₀ past r = .lost := by
  induction past with
  | nil =>
    rw [List.suffix_nil.mp hs] at h
    exact h
  | cons i past ih =>
    rcases List.suffix_cons_iff.mp hs with rfl | hs
    · exact h
    · exact lost_cons (ih hs)

/-! ## When the limit holds -/

/-- Every payment has come to a result. -/
def Idle (pool : CallPool R) : Prop :=
  ∀ r, (pool.request r).isSome = true → (pool.result r).isSome = true

theorem Idle.not_counted (h : Idle (reached s₀ past)) (r : R) :
    stages code s₀ past r ≠ .counted := by
  have hdone := h r
  cases hr : (reached s₀ past).request r with
  | none =>
    have hfree : stages code s₀ past r = .notApplied := Protocol.stages_of_free hr
    rw [hfree]
    exact nofun
  | some request =>
    obtain ⟨c, process⟩ := request
    have hfollows : process.Follows (protocol code) (fun stage _ => stage.Done)
        (fun stage _ => stage.Done) (stages code s₀ past r) :=
      Protocol.follows_reached follows_start past r c process hr
    rw [Pool.result, hr] at hdone
    cases process with
    | ret intent => exact hfollows
    | fail x => exact hfollows
    | ask k => exact absurd (hdone rfl) nofun
    | await q k => exact absurd (hdone rfl) nofun

variable (code s₀) in
/-- The intents with the discount, and the uses at the start, are no more than the limit. When
no payment is under way the usage counts exactly these. -/
structure Respected (usage : Nat) (past : List (CallEvent R)) : Prop where
  within : ∀ max, maxUsage code (reached s₀ past).shared = some max →
    usage + (discounted code s₀ past).length ≤ max
  exact : Idle (reached s₀ past) →
    usageCount code (reached s₀ past).shared = some (usage + (discounted code s₀ past).length)

variable (code s₀) in
/-- A use that is counted finds one left, and no request of a payment that has counted fails. -/
structure Sound (past : List (CallEvent R)) (i : CallEvent R) : Prop where
  left : ∀ r around c, (reached s₀ past).performs i = some (r, around, c, .increment code) →
    around.fails (.increment code) = none →
      ∀ usage max, usageCount code (reached s₀ past).shared = some usage →
        maxUsage code (reached s₀ past).shared = some max → usage < max
  completes : ∀ r around c q, (reached s₀ past).performs i = some (r, around, c, q) →
    stages code s₀ past r = .counted →
      ∀ x, (handle around (reached s₀ past).shared q).1 ≠ .error x

section Limit

variable {usage max : Nat}

theorem usage_counted (husage : usageCount code s₀ = some usage) :
    usageCount code (reached s₀ past).shared = some (usage + (uses code s₀ past).length) := by
  rw [(inv_reached code s₀ past).usage, husage, Option.map_some]

theorem uses_le_of_guarded (husage : usageCount code s₀ = some usage)
    (hmax : maxUsage code s₀ = some max) (hstart : usage ≤ max)
    (h : Guarded (Sound code s₀) past) : usage + (uses code s₀ past).length ≤ max := by
  induction past with
  | nil => exact hstart
  | cons i past ih =>
    cases moves code s₀ past i with
    | counts r around c performs succeeds before uses discounted stages _ =>
      rw [uses]
      exact h.1.left r around c performs succeeds _ max (usage_counted husage)
        (maxUsage_reached.trans hmax)
    | creates r succeeds before uses discounted stages _ =>
      rw [uses]
      exact ih h.2
    | loses r around c q x performs fails before uses discounted stages _ =>
      rw [uses]
      exact ih h.2
    | none uses discounted stages _ =>
      rw [uses]
      exact ih h.2

theorem not_lost_of_guarded (h : Guarded (Sound code s₀) past) (r : R) :
    stages code s₀ past r ≠ .lost := by
  induction past with
  | nil => exact nofun
  | cons i past ih =>
    have hkept {r' : R} {stage : Stage}
        (hstages : stages code s₀ (i :: past) = Function.update (stages code s₀ past) r' stage)
        (hne : stage ≠ .lost) : stages code s₀ (i :: past) r ≠ .lost := by
      rw [hstages, Function.update_apply]
      split
      · exact hne
      · exact ih h.2
    cases moves code s₀ past i with
    | counts r' around c performs succeeds before uses discounted stages _ =>
      exact hkept stages nofun
    | creates r' succeeds before uses discounted stages _ => exact hkept stages nofun
    | loses r' around c q x performs fails before uses discounted stages _ =>
      exact absurd fails (h.1.completes r' around c q performs before x)
    | none uses discounted stages _ =>
      rw [stages]
      exact ih h.2

theorem respected_of_guarded (husage : usageCount code s₀ = some usage)
    (hmax : maxUsage code s₀ = some max) (hstart : usage ≤ max)
    (h : Guarded (Sound code s₀) past) : Respected code s₀ usage past where
  within max' hmax' := by
    rw [maxUsage_reached, hmax] at hmax'
    cases hmax'
    exact (Nat.add_le_add_left discounted_length_le usage).trans
      (uses_le_of_guarded husage hmax hstart h)
  exact hidle := by
    rw [usage_counted husage, discounted_length_eq hidle.not_counted (not_lost_of_guarded h)]

theorem guarded_of_respected (husage : usageCount code s₀ = some usage)
    (hidle : Idle (reached s₀ past)) (h : Respected code s₀ usage past) :
    Guarded (Sound code s₀) past := by
  have hlength : (discounted code s₀ past).length = (uses code s₀ past).length := by
    have hexact := h.exact hidle
    rw [usage_counted husage] at hexact
    exact (Nat.add_left_cancel (Option.some.inj hexact)).symm
  refine guarded_iff.mpr fun i earlier hs => ⟨?_, ?_⟩
  · intro r around c hperforms hsucceeds n max hn hmax
    have hwithin := h.within max (maxUsage_reached.trans (maxUsage_reached.symm.trans hmax))
    rw [hlength] at hwithin
    rw [usage_counted husage] at hn
    cases hn
    have hcounts : countsAt code i (reached s₀ earlier) = some r := by
      rw [countsAt, hperforms]
      exact if_pos ⟨rfl, hsucceeds⟩
    have huses : uses code s₀ (i :: earlier) = r :: uses code s₀ earlier :=
      effects_of_some hcounts
    have hle : (uses code s₀ (i :: earlier)).length ≤ (uses code s₀ past).length :=
      (effects_suffix hs).length_le
    rw [huses, List.length_cons] at hle
    exact Nat.lt_of_lt_of_le (Nat.add_lt_add_left hle usage) hwithin
  · intro r around c q hperforms hcounted x hfails
    have hlost : stages code s₀ (i :: earlier) r = .lost := by
      rw [stages_performs hperforms, Function.update_self, hcounted, hfails]
      cases q <;> rfl
    exact absurd hlength (discounted_length_lt (lost_suffix hs hlost)).ne

/-- Where every use that is counted finds one left and leads to its intent, the limit holds
throughout. In a run after which no payment is under way, it holds only there. -/
theorem coupon_limit_iff {coupon : Coupon} (hcoupon : s₀.coupons.get code = some coupon)
    (hlimit : limit coupon = some max) (hstart : coupon.usageCount ≤ max)
    (past : List (CallEvent R)) :
    (Guarded (Sound code s₀) past →
        ∀ earlier, earlier <:+ past → Respected code s₀ coupon.usageCount earlier) ∧
      (Idle (reached s₀ past) →
        (∀ earlier, earlier <:+ past → Respected code s₀ coupon.usageCount earlier) →
          Guarded (Sound code s₀) past) := by
  have husage : usageCount code s₀ = some coupon.usageCount := by
    rw [usageCount, hcoupon, Option.map_some]
  have hmax : maxUsage code s₀ = some max := by
    rw [maxUsage, hcoupon, Option.bind_some, hlimit]
  constructor
  · intro h earlier hs
    exact respected_of_guarded husage hmax hstart (h.of_suffix hs)
  · intro hidle h
    exact guarded_of_respected husage hidle (h past (List.suffix_refl past))

/-! ## A use too many, and a use for nothing -/

/-- No rates can be fetched. -/
def exampleAround : Surroundings where
  now := 0
  fetch := .error (.internal "Exchange rate API error: 503")
  clientSecret := "secret"
  fails := fun _ => none

/-- A coupon for one use. -/
def exampleCoupon : Coupon where
  code := "SAVE"
  discountType := .fixed
  discountValue := 10
  expiresAt := none
  usageCount := 0
  maxUsage := some 1
  isActive := true

def exampleShop : State where
  courses := Repository.empty.save { id := "c1", priceUsd := some 100 }
  coupons := Repository.empty.save exampleCoupon
  ratesCache := none
  intents := []

def examplePay (r : Bool) (currency : SupportedCurrency) : CallEvent Bool :=
  .call r exampleAround {
    courseId := "c1", currency, userId := if r then "u1" else "u2", couponCode := some "SAVE" }

def exampleGoOn (r : Bool) : CallEvent Bool := .resume r exampleAround

/-- Both payments look the coupon up before one of them counts its use. Newest event first. -/
def exampleRacing : List (CallEvent Bool) :=
  [exampleGoOn false, exampleGoOn true, exampleGoOn false, exampleGoOn true, exampleGoOn false,
    exampleGoOn true, exampleGoOn false, exampleGoOn true, exampleGoOn false, exampleGoOn true,
    examplePay false .usd, examplePay true .usd]

/-- The use is counted, and the conversion fails. -/
def exampleFailing : List (CallEvent Bool) :=
  [exampleGoOn true, exampleGoOn true, exampleGoOn true, exampleGoOn true, examplePay true .eur]

theorem coupon_limit_iff_example :
    (Guarded (Sound "SAVE" exampleShop) exampleRacing →
        ∀ earlier, earlier <:+ exampleRacing → Respected "SAVE" exampleShop 0 earlier) ∧
      (Idle (reached exampleShop exampleRacing) →
        (∀ earlier, earlier <:+ exampleRacing → Respected "SAVE" exampleShop 0 earlier) →
          Guarded (Sound "SAVE" exampleShop) exampleRacing) :=
  coupon_limit_iff (by decide +kernel : exampleShop.coupons.get "SAVE" = some exampleCoupon)
    (rfl : limit exampleCoupon = some 1) (by decide) exampleRacing

/-- Two intents are created with the discount of a coupon for one use. A use is counted without
an intent. -/
theorem coupon_limit_broken :
    (discounted "SAVE" exampleShop exampleRacing = [false, true] ∧
        ¬ Respected "SAVE" exampleShop 0 exampleRacing) ∧
      usageCount "SAVE" (reached exampleShop exampleFailing).shared = some 1 ∧
      ¬ Respected "SAVE" exampleShop 0 exampleFailing := by
  have htwice : discounted "SAVE" exampleShop exampleRacing = [false, true] := by decide +kernel
  have hcounted : usageCount "SAVE" (reached exampleShop exampleFailing).shared = some 1 := by
    decide +kernel
  refine ⟨⟨htwice, fun h => ?_⟩, hcounted, fun h => ?_⟩
  · have hwithin := h.within 1 (by decide +kernel)
    rw [htwice] at hwithin
    exact absurd hwithin (by decide)
  · have hnone : discounted "SAVE" exampleShop exampleFailing = [] := by decide +kernel
    have hidle : Idle (reached exampleShop exampleFailing) := by
      intro r
      cases r <;> decide +kernel
    have hexact := h.exact hidle
    rw [hcounted, hnone] at hexact
    exact absurd hexact (by decide)

end Limit

end Runs

end Scoopdope.Payments

import Mathlib.Algebra.Order.Ring.Rat
import Scoopdope.ImportExport.CsvModules
import Scoopdope.Soroban.History
import Scoopdope.Webhooks.Service

/-!
# Webhooks: signatures

`sign`, `verifySignature` and the post that `deliver` makes (`webhooks/webhooks.service.ts`). What
is signed is the body, and the timestamp goes along with it unsigned. So whoever has seen one
delivery can present it again at any time, with a timestamp of the day or without one
(`replay_accepted`).

`signature_binds_iff`: the signatures bind the timestamps exactly in the runs in which nobody does.

The parameter is HMAC-SHA256, which nobody computes without the secret.
-/

namespace Scoopdope.Webhooks

open ImportExport.CsvImportStrategy Server Soroban

-- `createHmac('sha256', secret).update(body).digest('hex')`
variable (hmac : String → String → String)

def sign (secret body : String) : String := "sha256=" ++ hmac secret body

/-- `Math.floor(Date.now() / 1000)` -/
def seconds (now : Nat) : Nat := now / 1000

/-- There is a timestamp, and it is not a number or more than five minutes away. -/
def outdated (now : Nat) (timestamp : Option String) : Bool :=
  match truthy timestamp with
  | none => false
  | some timestamp =>
    match parseInt timestamp with
    | .num ts => 300 < |(seconds now : Rat) - ts|
    | _ => true

/-- `timingSafeEqual` compares buffers of one length. -/
def verifySignature (now : Nat) (secret body signature : String) (timestamp : Option String) :
    Bool :=
  if outdated now timestamp then false
  else
    let expectedBuf := (sign hmac secret body).toByteArray
    let signatureBuf := signature.toByteArray
    if expectedBuf.size ≠ signatureBuf.size then false
    else expectedBuf.data = signatureBuf.data

/-- What `httpPost` sends. -/
structure Post where
  body : String
  signature : String
  timestamp : String
deriving DecidableEq

/-- The post of `deliver`. -/
def deliver (now : Nat) (secret : String) (delivery : WebhookDelivery) : Post where
  body := delivery.payload
  signature := sign hmac secret delivery.payload
  timestamp := toString (seconds now)

/-! ## Runs -/

/-- A holder of the secret sends a delivery, or somebody presents one. -/
inductive Traffic
  | delivered (now : Nat) (delivery : WebhookDelivery)
  | presented (now : Nat) (body signature : String) (timestamp : Option String)

variable (secret : String)

/-- The post was made at the time. -/
def Posted (past : List Traffic) (now : Nat) (post : Post) : Prop :=
  ∃ delivery, .delivered now delivery ∈ past ∧ deliver hmac now secret delivery = post

/-- A holder of the secret has signed the body for the timestamp. -/
def SignedFor (past : List Traffic) (body timestamp : String) : Prop :=
  ∃ now signature, Posted hmac secret past now ⟨body, signature, timestamp⟩

/-- Nobody else computes a signature: it is presented with a body only if the body was signed. -/
def Unforged (past : List Traffic) : Traffic → Prop
  | .delivered _ _ => True
  | .presented _ body signature _ =>
    signature = sign hmac secret body → ∃ timestamp, SignedFor hmac secret past body timestamp

/-- What is accepted was signed for the timestamp that it is presented with. -/
def Bound (past : List Traffic) : Traffic → Prop
  | .delivered _ _ => True
  | .presented now body signature timestamp =>
    verifySignature hmac now secret body signature timestamp = true →
      ∃ ts, timestamp = some ts ∧ SignedFor hmac secret past body ts

/-- What was posted more than five minutes ago, and not since, is rejected. -/
def ReplaysRejected (past : List Traffic) : Traffic → Prop
  | .delivered _ _ => True
  | .presented now body signature timestamp =>
    (∀ then' post, Posted hmac secret past then' post → post.body = body →
      seconds then' + 300 < seconds now) →
    verifySignature hmac now secret body signature timestamp = false

/-- Body and signature of a post are presented only with a timestamp that they were posted with, or
with one that is outdated. -/
def NotReplayed (past : List Traffic) : Traffic → Prop
  | .delivered _ _ => True
  | .presented now body signature timestamp =>
    (∃ then' ts, Posted hmac secret past then' ⟨body, signature, ts⟩) →
      outdated now timestamp = true ∨
        ∃ ts, timestamp = some ts ∧ SignedFor hmac secret past body ts

variable {hmac secret}

/-! ## Timestamps -/

theorem decimal_concat (digits : List Char) (c : Char) :
    decimal (digits ++ [c]) = 10 * decimal digits + (c.toNat - '0'.toNat) := by
  rw [← foldl_digits, List.foldl_append, foldl_digits]
  rfl

theorem decimal_toDigits (n : Nat) : decimal (Nat.toDigits 10 n) = n := by
  have hdigit : ∀ n < 10, decimal [n.digitChar] = n := by decide
  induction n using Nat.strong_induction_on with
  | h n ih =>
    by_cases hn : n < 10
    · rw [Nat.toDigits_of_lt_base hn]
      exact hdigit n hn
    · have hbase : 10 ≤ n := not_lt.mp hn
      have hlast := hdigit (n % 10) (Nat.mod_lt n (by decide))
      rw [← List.nil_append [_], decimal_concat] at hlast
      rw [Nat.toDigits_of_base_le (by decide) hbase, decimal_concat,
        ih (n / 10) (Nat.div_lt_self (Nat.zero_lt_of_lt hbase) (by decide))]
      have hsplit := Nat.div_add_mod n 10
      have hnil : decimal [] = 0 := rfl
      omega

theorem literalValue_toString (n : Nat) : literalValue (toString n) = some (n : Int) := by
  have htext : (toString n).toList = Nat.toDigits 10 n := Nat.toList_repr
  have hdigits : ∀ c ∈ Nat.toDigits 10 n, c.isDigit = true := fun c hc =>
    Nat.isDigit_of_mem_toDigits (by decide) (by decide) hc
  have hvalue : naturalValue (Nat.toDigits 10 n) = some (n : Int) := by
    rw [naturalValue, if_pos ⟨Nat.toDigits_ne_nil, List.all_eq_true.mpr hdigits⟩,
      decimal_toDigits]
  unfold literalValue
  rw [htext]
  split
  next hchars => exact absurd (hdigits '-' (hchars ▸ List.mem_cons_self)) (by decide)
  next hchars => exact absurd (hdigits '+' (hchars ▸ List.mem_cons_self)) (by decide)
  next => exact hvalue

/-- What `deliver` writes is read as the number it is. -/
theorem parseInt_toString (n : Nat) : parseInt (toString n) = .num (n : Int) :=
  parseInt_literal (literalValue_toString n)

theorem outdated_toString {now n : Nat} :
    outdated now (some (toString n)) = false ↔ |(seconds now : Rat) - n| ≤ 300 := by
  have hne : toString n ≠ "" := by
    intro hempty
    have hnil : Nat.toDigits 10 n = [] := Nat.toList_repr.symm.trans (congrArg String.toList hempty)
    exact Nat.toDigits_ne_nil hnil
  have htruthy : truthy (some (toString n)) = some (toString n) := truthy_eq_some.mpr ⟨rfl, hne⟩
  unfold outdated
  rw [htruthy]
  dsimp only
  rw [parseInt_toString]
  exact decide_eq_false_iff_not.trans not_lt

/-! ## What is accepted -/

variable {past : List Traffic} {i : Traffic} {now then' : Nat} {body signature ts : String}
  {timestamp : Option String}

theorem verifySignature_iff : verifySignature hmac now secret body signature timestamp = true ↔
    outdated now timestamp = false ∧ signature = sign hmac secret body := by
  unfold verifySignature
  split
  next houtdated =>
    rw [houtdated]
    exact ⟨nofun, fun h => nomatch h.1⟩
  next hcurrent =>
    dsimp only
    rw [Bool.not_eq_true] at hcurrent
    split
    next hsize =>
      refine ⟨nofun, fun h => absurd ?_ hsize⟩
      rw [h.2]
    next =>
      rw [decide_eq_true_iff, ← ByteArray.ext_iff, String.toByteArray_inj]
      exact ⟨fun h => ⟨hcurrent, h.symm⟩, fun h => h.2.symm⟩

theorem Posted.signature_eq (h : Posted hmac secret past then' ⟨body, signature, ts⟩) :
    signature = sign hmac secret body := by
  obtain ⟨delivery, -, hpost⟩ := h
  cases hpost
  rfl

theorem Posted.timestamp_eq (h : Posted hmac secret past then' ⟨body, signature, ts⟩) :
    ts = toString (seconds then') := by
  obtain ⟨delivery, -, hpost⟩ := h
  cases hpost
  rfl

/-- However old a post is, it is accepted with whatever timestamp is not outdated. -/
theorem replay_accepted (h : Posted hmac secret past then' ⟨body, signature, ts⟩)
    (hcurrent : outdated now timestamp = false) :
    verifySignature hmac now secret body signature timestamp = true :=
  verifySignature_iff.mpr ⟨hcurrent, h.signature_eq⟩

theorem outdated_none : outdated now none = false := rfl

theorem outdated_now : outdated now (some (toString (seconds now))) = false := by
  rw [outdated_toString, sub_self, abs_zero]
  exact Rat.le_of_lt (by decide)

theorem bound_iff (hideal : Unforged hmac secret past i) :
    Bound hmac secret past i ↔ NotReplayed hmac secret past i := by
  cases i with
  | delivered now delivery => exact Iff.rfl
  | presented now body signature timestamp =>
    constructor
    · rintro hbound ⟨then', ts, hposted⟩
      cases houtdated : outdated now timestamp with
      | true => exact .inl rfl
      | false => exact .inr (hbound (replay_accepted hposted houtdated))
    · intro hmatched haccepted
      obtain ⟨hcurrent, hsignature⟩ := verifySignature_iff.mp haccepted
      obtain ⟨ts, then', signature', hposted⟩ := hideal hsignature
      rw [hposted.signature_eq, ← hsignature] at hposted
      rcases hmatched ⟨then', ts, hposted⟩ with houtdated | hsigned
      · cases hcurrent.symm.trans houtdated
      · exact hsigned

theorem replaysRejected_of_bound (hbound : Bound hmac secret past i) :
    ReplaysRejected hmac secret past i := by
  cases i with
  | delivered now delivery => trivial
  | presented now body signature timestamp =>
    intro hold
    by_contra hrejected
    have haccepted := eq_true_of_ne_false hrejected
    obtain ⟨ts, rfl, then', signature', hposted⟩ := hbound haccepted
    have hcurrent := (verifySignature_iff.mp haccepted).1
    rw [hposted.timestamp_eq, outdated_toString] at hcurrent
    have hpast : seconds then' + 300 < seconds now := hold then' _ hposted rfl
    have hfar : ((seconds then' + 300 : Nat) : Rat) < seconds now := Nat.cast_lt.mpr hpast
    rw [Nat.cast_add] at hfar
    have hnear := (le_abs_self _).trans hcurrent
    rw [sub_le_iff_le_add'] at hnear
    exact absurd (hfar.trans_le hnear) (lt_irrefl _)

/-- What is accepted was signed for its timestamp, and old posts are rejected, exactly in the runs
in which body and signature of a post are presented only with timestamps that they were posted with
or that are outdated. -/
theorem signature_binds_iff (hmac : String → String → String) (secret : String)
    (run : List Traffic) (hideal : Guarded (Unforged hmac secret) run) :
    Guarded (fun past i => Bound hmac secret past i ∧ ReplaysRejected hmac secret past i) run ↔
      Guarded (NotReplayed hmac secret) run := by
  rw [guarded_iff] at hideal
  rw [guarded_iff, guarded_iff]
  constructor
  · intro h i past hs
    exact (bound_iff (hideal i past hs)).mp (h i past hs).1
  · intro h i past hs
    have hbound := (bound_iff (hideal i past hs)).mpr (h i past hs)
    exact ⟨hbound, replaysRejected_of_bound hbound⟩

def exampleBody : String :=
  "\x7b\"event\":\"enrollment.created\",\"userId\":\"abc123\"\x7d"

/-- The digest of this body under this secret. -/
def exampleHmac (secret body : String) : String :=
  if secret = "test-secret-key" ∧ body = exampleBody then
    "b5d890274d17c0c78277c33b87f93733c78e5b33b2d05d1dab00025d814e867a"
  else ""

def exampleDelivery : WebhookDelivery where
  id := "d1"
  webhookId := "w1"
  event := "enrollment.created"
  payload := exampleBody
  status := .pending
  responseStatus := none
  responseBody := none
  attempts := 1
  nextRetryAt := none
  createdAt := 1700000000000

/-- The body and the signature of the delivery, presented at a time. -/
def examplePresented (now : Nat) (timestamp : Option String) : Traffic :=
  .presented now exampleBody (sign exampleHmac "test-secret-key" exampleBody) timestamp

theorem example_signedFor : SignedFor exampleHmac "test-secret-key"
    [.delivered 1700000000000 exampleDelivery] exampleBody "1700000000" :=
  ⟨1700000000000, sign exampleHmac "test-secret-key" exampleBody, exampleDelivery,
    List.mem_singleton_self _, by decide +kernel⟩

/-- A delivery that is presented a second later with its timestamp. -/
theorem signature_binds_iff_delivered :
    verifySignature exampleHmac 1700000001000 "test-secret-key" exampleBody
      (sign exampleHmac "test-secret-key" exampleBody) (some "1700000000") = true ∧
    Guarded (fun past i => Bound exampleHmac "test-secret-key" past i ∧
        ReplaysRejected exampleHmac "test-secret-key" past i)
      [examplePresented 1700000001000 (some "1700000000"),
        .delivered 1700000000000 exampleDelivery] := by
  refine ⟨by decide +kernel, (signature_binds_iff exampleHmac "test-secret-key" _ ?_).mpr ?_⟩
  · exact ⟨fun _ => ⟨_, example_signedFor⟩, trivial, trivial⟩
  · exact ⟨fun _ => .inr ⟨_, rfl, example_signedFor⟩, trivial, trivial⟩

theorem example_replayed {timestamp : Option String} (hother : timestamp ≠ some "1700000000")
    (hcurrent : outdated 1700003600000 timestamp = false) :
    ¬ Bound exampleHmac "test-secret-key" [.delivered 1700000000000 exampleDelivery]
        (examplePresented 1700003600000 timestamp) ∧
      ¬ ReplaysRejected exampleHmac "test-secret-key" [.delivered 1700000000000 exampleDelivery]
        (examplePresented 1700003600000 timestamp) := by
  have haccepted : verifySignature exampleHmac 1700003600000 "test-secret-key" exampleBody
      (sign exampleHmac "test-secret-key" exampleBody) timestamp = true :=
    verifySignature_iff.mpr ⟨hcurrent, rfl⟩
  have htimestamp : toString (seconds 1700000000000) = "1700000000" := by decide +kernel
  constructor
  · intro hbound
    obtain ⟨ts, rfl, then', signature, hposted⟩ := hbound haccepted
    obtain ⟨delivery, hmem, hpost⟩ := hposted
    cases List.mem_singleton.mp hmem
    exact hother (congrArg some ((congrArg Post.timestamp hpost).symm.trans htimestamp))
  · intro hrejects
    refine absurd (hrejects ?_) (ne_false_of_eq_true haccepted)
    rintro then' post ⟨delivery, hmem, -⟩ -
    cases List.mem_singleton.mp hmem
    decide

/-- An hour later the delivery is presented with the time of the day, or without a timestamp. -/
theorem signature_replayed :
    Unforged exampleHmac "test-secret-key" [.delivered 1700000000000 exampleDelivery]
        (examplePresented 1700003600000 (some "1700003600")) ∧
      ¬ Bound exampleHmac "test-secret-key" [.delivered 1700000000000 exampleDelivery]
        (examplePresented 1700003600000 (some "1700003600")) ∧
      ¬ ReplaysRejected exampleHmac "test-secret-key" [.delivered 1700000000000 exampleDelivery]
        (examplePresented 1700003600000 (some "1700003600")) ∧
    Unforged exampleHmac "test-secret-key" [.delivered 1700000000000 exampleDelivery]
        (examplePresented 1700003600000 none) ∧
      ¬ Bound exampleHmac "test-secret-key" [.delivered 1700000000000 exampleDelivery]
        (examplePresented 1700003600000 none) ∧
      ¬ ReplaysRejected exampleHmac "test-secret-key" [.delivered 1700000000000 exampleDelivery]
        (examplePresented 1700003600000 none) := by
  have htime : toString (seconds 1700003600000) = "1700003600" := by decide +kernel
  have hcurrent : outdated 1700003600000 (some "1700003600") = false := htime ▸ outdated_now
  obtain ⟨hfresh, hfresh'⟩ := example_replayed (by decide) hcurrent
  obtain ⟨hnone, hnone'⟩ := example_replayed (Option.some_ne_none _).symm outdated_none
  have hsigned : Unforged exampleHmac "test-secret-key" [.delivered 1700000000000 exampleDelivery]
      (examplePresented 1700003600000 none) := fun _ => ⟨_, example_signedFor⟩
  exact ⟨hsigned, hfresh, hfresh', hsigned, hnone, hnone'⟩

end Scoopdope.Webhooks

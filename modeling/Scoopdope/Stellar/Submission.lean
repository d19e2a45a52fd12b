import Scoopdope.Server.Http
import Scoopdope.Stellar.Invocations

/-!
# Stellar: submission

`invokeContract` and `mintReward` of `StellarService` (`stellar/stellar.service.ts`).
`mintReward` calls `invokeContract` through `pRetry`, which calls it again after an exception.
An `Attempt` is what one call of `invokeContract` meets: the network may apply a transaction
whose response is lost, and what it answers does not say whether a transaction succeeds.

`mintReward_exactly_once_iff`: a call that resolves has minted once and one that rejects has
not minted, exactly when the network's answers are `Consistent`: no transaction is applied with its
response lost and no response is given for one that is not, but for one of each that make up for
each other.

The count of pending transactions, which only a shutdown reads, is left out.
-/

namespace Scoopdope.Stellar

open Async Server Soroban

/-- The transaction of one contract invocation. -/
structure Transaction where
  contractId : String
  function : String
  args : List (ScVal String)
deriving DecidableEq

/-- The response of `sendTransaction`. -/
inductive Sending
  /-- None: the call throws. The transaction may have been received, and applied. -/
  | lost (x : HttpException) (applied : Bool)
  /-- One with the status `ERROR` or `TRY_AGAIN_LATER`: the transaction is not taken up. -/
  | refused (hash : String)
  /-- One with the status `PENDING`. The transaction succeeds later, or fails. -/
  | accepted (hash : String) (succeeds : Bool)
deriving DecidableEq

/-- What a call of `invokeContract` meets. A step with an exception throws it. -/
structure Attempt where
  getAccount : Option HttpException
  prepareTransaction : Option HttpException
  sendTransaction : Sending
deriving DecidableEq

namespace Attempt

/-- The hash of the response, or what is thrown. -/
def result (a : Attempt) : Except HttpException String :=
  match a.getAccount, a.prepareTransaction, a.sendTransaction with
  | some x, _, _ => .error x
  | none, some x, _ => .error x
  | none, none, .lost x _ => .error x
  | none, none, .refused hash => .ok hash
  | none, none, .accepted hash _ => .ok hash

/-- Does the network apply the transaction? -/
def applied (a : Attempt) : Bool :=
  match a.getAccount, a.prepareTransaction, a.sendTransaction with
  | none, none, .lost _ applied => applied
  | none, none, .accepted _ succeeds => succeeds
  | _, _, _ => false

end Attempt

/-! ## The network -/

inductive Op
  | getAccount
  | prepareTransaction (tx : Transaction)
  | sendTransaction (tx : Transaction)

/-- `sendTransaction` answers with the hash. The status, which is not read, is left out. -/
abbrev Op.answer : Op → Type
  | .getAccount => Except HttpException Unit
  | .prepareTransaction _ => Except HttpException Unit
  | .sendTransaction _ => Except HttpException String

abbrev networkInterface : Interface where
  Op := Op
  Answer := Op.answer

structure Network where
  /-- The attempts begun so far. -/
  begun : Nat
  /-- The transactions applied, newest first. -/
  applied : List Transaction
deriving DecidableEq

/-- Nothing is sent yet. -/
def Network.fresh : Network := ⟨0, []⟩

/-- What the attempts of a call meet, by their numbers from 1 on. -/
abbrev Attempts : Type := Nat → Attempt

/-- An exception, where there is one. -/
def orElse {A : Type} (o : Option HttpException) (a : A) : Except HttpException A :=
  match o with
  | some x => .error x
  | none => .ok a

def handle (attempts : Attempts) (s : Network) : (o : Op) → o.answer × Network
  | .getAccount => (orElse (attempts (s.begun + 1)).getAccount (), { s with begun := s.begun + 1 })
  | .prepareTransaction _ => (orElse (attempts s.begun).prepareTransaction (), s)
  | .sendTransaction tx =>
    match (attempts s.begun).sendTransaction with
    | .lost x applied => (.error x, if applied then { s with applied := tx :: s.applied } else s)
    | .refused hash => (.ok hash, s)
    | .accepted hash succeeds =>
      (.ok hash, if succeeds then { s with applied := tx :: s.applied } else s)

/-! ## The service -/

abbrev Sending.Service (A : Type) : Type := Process networkInterface Attempts HttpException A

structure Config where
  secretKey : String
  tokenContractId : String

variable (config : Config)

def ensureSecretKeyConfigured : Sending.Service Unit :=
  if config.secretKey = "" then
    .fail (.serviceUnavailable ("STELLAR_SECRET_KEY is not configured. " ++
      "Signing operations (issuing credentials, minting tokens, recording progress) require the " ++
      "secret key. Configure STELLAR_SECRET_KEY environment variable to enable these features."))
  else pure ()

def invokeContract (tx : Transaction) : Sending.Service String := do
  ensureSecretKeyConfigured config
  Process.ofExcept (← Process.perform (I := networkInterface) .getAccount)
  Process.ofExcept (← Process.perform (I := networkInterface) (.prepareTransaction tx))
  Process.ofExcept (← Process.perform (I := networkInterface) (.sendTransaction tx))

/-- `pRetry(attempt, { retries })`. `retried` is whether an exception is retried at all. -/
def pRetry {A : Type} (retried : HttpException → Bool) :
    Nat → Sending.Service A → Sending.Service A
  | 0, attempt => attempt
  | retries + 1, attempt =>
    attempt.tryCatch fun x => if retried x then pRetry retried retries attempt else .fail x

/-- `MAX_RETRIES`. -/
def maxRetries : Nat := 3

/-- The transaction of `mintReward`. -/
def mintTransaction (recipientPublicKey : String) (amount : I128) : Transaction where
  contractId := config.tokenContractId
  function := "mint_reward"
  args := mintRewardArgs recipientPublicKey amount

def mintReward (retried : HttpException → Bool) (recipientPublicKey : String) (amount : I128) :
    Sending.Service String := do
  ensureSecretKeyConfigured config
  if config.tokenContractId = "" then .fail (.internal "TOKEN_CONTRACT_ID not configured")
  else
    let tx := mintTransaction config recipientPublicKey amount
    pRetry retried maxRetries (invokeContract config tx)

/-! ## What the network answers -/

namespace Attempt

/-- The network answers with an exception. -/
inductive Throws (a : Attempt) (x : HttpException) : Prop
  | account (h : a.getAccount = some x)
  | preparation (account : a.getAccount = none) (h : a.prepareTransaction = some x)
  | response (account : a.getAccount = none) (preparation : a.prepareTransaction = none)
      (applied : Bool) (h : a.sendTransaction = .lost x applied)

/-- A transaction is sent and applied, and its response is lost. -/
def lostApplied (a : Attempt) : Bool :=
  match a.getAccount, a.prepareTransaction, a.sendTransaction with
  | none, none, .lost _ applied => applied
  | _, _, _ => false

/-- A transaction is sent and accepted, and succeeds. -/
inductive Succeeds (a : Attempt) : Prop
  | accepted (hash : String) (account : a.getAccount = none)
      (preparation : a.prepareTransaction = none) (h : a.sendTransaction = .accepted hash true)

/-- A transaction is sent and there is a response to it, but it is refused or fails later. -/
inductive Fails (a : Attempt) : Prop
  | refused (hash : String) (account : a.getAccount = none)
      (preparation : a.prepareTransaction = none) (h : a.sendTransaction = .refused hash)
  | accepted (hash : String) (account : a.getAccount = none)
      (preparation : a.prepareTransaction = none) (h : a.sendTransaction = .accepted hash false)

theorem Throws.result_eq {a : Attempt} {x : HttpException} (h : a.Throws x) :
    a.result = .error x := by
  cases h with
  | account h => simp [result, h]
  | preparation account h => simp [result, account, h]
  | response account preparation applied h => simp [result, account, preparation, h]

/-- What throws is applied if its response is lost. -/
theorem Throws.applied_eq {a : Attempt} {x : HttpException} (h : a.Throws x) :
    a.applied = a.lostApplied := by
  cases h with
  | account h => simp [Attempt.applied, lostApplied, h]
  | preparation account h => simp [Attempt.applied, lostApplied, account, h]
  | response account preparation applied h =>
    simp [Attempt.applied, lostApplied, account, preparation, h]

theorem Succeeds.result_eq {a : Attempt} (h : a.Succeeds) :
    (∃ hash, a.result = .ok hash) ∧ a.applied = true := by
  obtain ⟨hash, account, preparation, h⟩ := h
  exact ⟨⟨hash, by simp [result, account, preparation, h]⟩,
    by simp [Attempt.applied, account, preparation, h]⟩

theorem Fails.result_eq {a : Attempt} (h : a.Fails) :
    (∃ hash, a.result = .ok hash) ∧ a.applied = false := by
  cases h with
  | refused hash account preparation h | accepted hash account preparation h =>
    exact ⟨⟨hash, by simp [result, account, preparation, h]⟩,
      by simp [Attempt.applied, account, preparation, h]⟩

/-- There is an exception, or else a response. -/
theorem answered (a : Attempt) : (∃ x, a.Throws x) ∨ a.Succeeds ∨ a.Fails := by
  cases account : a.getAccount with
  | some x => exact .inl ⟨x, .account account⟩
  | none =>
    cases preparation : a.prepareTransaction with
    | some x => exact .inl ⟨x, .preparation account preparation⟩
    | none =>
      cases sent : a.sendTransaction with
      | lost x applied => exact .inl ⟨x, .response account preparation applied sent⟩
      | refused hash => exact .inr (.inr (.refused hash account preparation sent))
      | accepted hash succeeds =>
        cases succeeds with
        | true => exact .inr (.inl (.accepted hash account preparation sent))
        | false => exact .inr (.inr (.accepted hash account preparation sent))

end Attempt

section Answers

variable (retried : HttpException → Bool) (attempts : Attempts)

/-- The network answers the first `n` attempts with exceptions that are retried. -/
def Reached (n : Nat) : Prop :=
  ∀ k < n, ∃ x, (attempts (k + 1)).Throws x ∧ retried x = true

/-- How many of the first `n` attempts have a transaction that is applied though its response is
lost. -/
def losses (n : Nat) : Nat :=
  ((List.range n).map fun k => attempts (k + 1)).countP Attempt.lostApplied

/-- Of the attempts that the network lets the call get to, at most `retries + 1`: where one has a
transaction that succeeds, none before it has been applied with its response lost; where one has a
response for a transaction that is not applied, exactly one before it has; and where one throws and
is not retried, neither it nor any before it has. -/
structure Consistent (retries : Nat) : Prop where
  succeeds : ∀ n ≤ retries, Reached retried attempts n → (attempts (n + 1)).Succeeds →
    losses attempts n = 0
  fails : ∀ n ≤ retries, Reached retried attempts n → (attempts (n + 1)).Fails →
    losses attempts n = 1
  throws : ∀ n ≤ retries, ∀ x, Reached retried attempts n → (attempts (n + 1)).Throws x →
    n = retries ∨ retried x = false → losses attempts (n + 1) = 0

variable {retried attempts}

theorem reached_succ {n : Nat} : Reached retried attempts (n + 1) ↔
    (∃ x, (attempts 1).Throws x ∧ retried x = true) ∧
      Reached retried (fun k => attempts (k + 1)) n :=
  Nat.forall_lt_succ_left

theorem losses_succ (n : Nat) : losses attempts (n + 1) =
    losses (fun k => attempts (k + 1)) n + if (attempts 1).lostApplied then 1 else 0 := by
  unfold losses
  rw [List.range_succ_eq_map, List.map_cons, List.map_map, List.countP_cons]
  rfl

/-- The call ends with the attempt after the first `n`. -/
def Ended (retried : HttpException → Bool) (attempts : Attempts) (retries n : Nat) : Prop :=
  n ≤ retries ∧ Reached retried attempts n ∧
    ∀ x, (attempts (n + 1)).Throws x → n = retries ∨ retried x = false

theorem Ended.not_lt {retries n n' : Nat} (h : Ended retried attempts retries n)
    (h' : Ended retried attempts retries n') : ¬ n < n' := by
  intro hlt
  obtain ⟨x, hthrows, hretried⟩ := h'.2.1 n hlt
  rcases h.2.2 x hthrows with heq | hnot
  · exact absurd h'.1 (Nat.not_le.mpr (heq ▸ hlt))
  · rw [hretried] at hnot
    cases hnot

theorem Ended.unique {retries n n' : Nat} (h : Ended retried attempts retries n)
    (h' : Ended retried attempts retries n') : n = n' :=
  Nat.le_antisymm (Nat.not_lt.mp (h'.not_lt h)) (Nat.not_lt.mp (h.not_lt h'))

/-- A response ends the call. -/
theorem ended_of_response {retries n : Nat} (hle : n ≤ retries)
    (hreached : Reached retried attempts n) {hash : String}
    (h : (attempts (n + 1)).result = .ok hash) : Ended retried attempts retries n := by
  refine ⟨hle, hreached, fun x hthrows => ?_⟩
  rw [hthrows.result_eq] at h
  cases h

/-- What the consistency of the answers says of the attempt that the call ends with. -/
theorem consistent_iff {retries n : Nat} (h : Ended retried attempts retries n) :
    Consistent retried attempts retries ↔
      ((attempts (n + 1)).Succeeds → losses attempts n = 0) ∧
      ((attempts (n + 1)).Fails → losses attempts n = 1) ∧
      ∀ x, (attempts (n + 1)).Throws x → losses attempts (n + 1) = 0 := by
  constructor
  · intro hc
    exact ⟨hc.succeeds n h.1 h.2.1, hc.fails n h.1 h.2.1,
      fun x hthrows => hc.throws n h.1 x h.2.1 hthrows (h.2.2 x hthrows)⟩
  · rintro ⟨hsucceeds, hfails, hthrows⟩
    refine ⟨fun n' hle hreached ha => ?_, fun n' hle hreached ha => ?_,
      fun n' hle x hreached ha hend => ?_⟩
    · obtain ⟨⟨hash, hresult⟩, -⟩ := ha.result_eq
      obtain rfl := h.unique (ended_of_response hle hreached hresult)
      exact hsucceeds ha
    · obtain ⟨⟨hash, hresult⟩, -⟩ := ha.result_eq
      obtain rfl := h.unique (ended_of_response hle hreached hresult)
      exact hfails ha
    · have hended : Ended retried attempts retries n' := by
        refine ⟨hle, hreached, fun y hy => ?_⟩
        have hsame := ha.result_eq
        rw [hy.result_eq] at hsame
        cases hsame
        exact hend
      obtain rfl := h.unique hended
      exact hthrows x ha

end Answers

/-! ## What an attempt does -/

section Attempts

variable {config} {attempts : Attempts} {tx : Transaction} {retried : HttpException → Bool}

/-- What is left of `invokeContract` once the account is loaded. -/
def prepareAndSend (tx : Transaction) : Sending.Service String :=
  .await (I := networkInterface) (.prepareTransaction tx) fun prepared =>
    Process.ofExcept prepared >>= fun _ =>
      .await (I := networkInterface) (.sendTransaction tx) fun result => Process.ofExcept result

theorem run_prepareAndSend (s : Network) :
    (prepareAndSend tx).run handle attempts s =
      match (attempts s.begun).prepareTransaction with
      | some x => (.error x, s)
      | none => handle attempts s (.sendTransaction tx) := by
  have hrun : (prepareAndSend tx).run handle attempts s =
      Process.run handle attempts s
        (Process.ofExcept (orElse (attempts s.begun).prepareTransaction ()) >>= fun _ =>
          .await (I := networkInterface) (.sendTransaction tx) fun result =>
            Process.ofExcept result) := rfl
  rw [hrun]
  cases (attempts s.begun).prepareTransaction with
  | some x => rfl
  | none => exact Process.run_ofExcept _

theorem run_invokeContract (hkey : config.secretKey ≠ "") (s : Network) :
    (invokeContract config tx).run handle attempts s =
      ((attempts (s.begun + 1)).result,
        ⟨s.begun + 1,
          if (attempts (s.begun + 1)).applied then tx :: s.applied else s.applied⟩) := by
  have hrun : (invokeContract config tx).run handle attempts s =
      Process.run handle attempts ⟨s.begun + 1, s.applied⟩
        (Process.ofExcept (orElse (attempts (s.begun + 1)).getAccount ()) >>= fun _ =>
          prepareAndSend tx) := by
    unfold invokeContract ensureSecretKeyConfigured
    rw [if_neg hkey]
    rfl
  rw [hrun]
  unfold Attempt.result Attempt.applied
  cases (attempts (s.begun + 1)).getAccount with
  | some x => rfl
  | none =>
    refine (run_prepareAndSend _).trans ?_
    dsimp only
    cases (attempts (s.begun + 1)).prepareTransaction with
    | some x => rfl
    | none =>
      simp only [handle]
      cases (attempts (s.begun + 1)).sendTransaction with
      | lost x applied => cases applied <;> rfl
      | refused hash => rfl
      | accepted hash succeeds => cases succeeds <;> rfl

/-- How many transactions an attempt applies. -/
def Attempt.effect (a : Attempt) : Nat := if a.applied then 1 else 0

theorem applied_eq (a : Attempt) (applied : List Transaction) :
    (if a.applied then tx :: applied else applied) = List.replicate a.effect tx ++ applied := by
  unfold Attempt.effect
  cases a.applied <;> rfl

variable (attempts tx retried) in
/-- A call through `pRetry` ends as its last attempt does, and leaves what that has applied and
what was applied before with its response lost. -/
theorem run_pRetry (hkey : config.secretKey ≠ "") (retries : Nat) (s : Network) :
    ∃ n, Ended retried (fun k => attempts (s.begun + k)) retries n ∧
      (pRetry retried retries (invokeContract config tx)).run handle attempts s =
        ((attempts (s.begun + (n + 1))).result,
          ⟨s.begun + (n + 1), List.replicate (losses (fun k => attempts (s.begun + k)) n +
            (attempts (s.begun + (n + 1))).effect) tx ++ s.applied⟩) := by
  have hfirst (s : Network) : losses (fun k => attempts (s.begun + k)) 0 +
      (attempts (s.begun + (0 + 1))).effect = (attempts (s.begun + 1)).effect := Nat.zero_add _
  induction retries generalizing s with
  | zero =>
    refine ⟨0, ⟨le_refl 0, nofun, fun x _ => .inl rfl⟩, ?_⟩
    rw [pRetry, run_invokeContract hkey, applied_eq, hfirst]
  | succ retries ih =>
    rw [pRetry, Process.run_tryCatch, run_invokeContract hkey, applied_eq]
    have hstop (hend : ∀ x, (attempts (s.begun + 1)).Throws x → retried x = false) :
        Ended retried (fun k => attempts (s.begun + k)) (retries + 1) 0 :=
      ⟨Nat.zero_le _, nofun, fun x hthrows => .inr (hend x hthrows)⟩
    rcases Attempt.answered (attempts (s.begun + 1)) with ⟨x, hthrows⟩ | hresponse
    · rw [hthrows.result_eq]
      by_cases hretried : retried x = true
      · -- The attempt may have been applied though it threw, and the next one starts from there.
        obtain ⟨n, ⟨hle, hreached, hend⟩, hrun⟩ := ih
          ⟨s.begun + 1, List.replicate (attempts (s.begun + 1)).effect tx ++ s.applied⟩
        have hnext : (fun k => attempts (s.begun + 1 + k)) =
            fun k => attempts (s.begun + (k + 1)) :=
          funext fun k => congrArg attempts (by omega)
        have hlast : s.begun + 1 + (n + 1) = s.begun + (n + 1 + 1) := by omega
        dsimp only at hreached hend hrun
        rw [hnext] at hreached hrun
        rw [hlast] at hend hrun
        refine ⟨n + 1, ⟨Nat.succ_le_succ hle, reached_succ.mpr ⟨⟨x, hthrows, hretried⟩, hreached⟩,
          fun y hy => (hend y hy).imp (congrArg Nat.succ) id⟩, ?_⟩
        dsimp only
        rw [if_pos hretried, hrun, losses_succ, ← List.append_assoc,
          List.replicate_append_replicate, Attempt.effect, Attempt.effect, hthrows.applied_eq,
          Nat.add_right_comm (losses _ n)]
      · dsimp only
        rw [if_neg hretried]
        refine ⟨0, hstop fun y hy => ?_, ?_⟩
        · have hsame := hy.result_eq
          rw [hthrows.result_eq] at hsame
          cases hsame
          exact Bool.eq_false_iff.mpr hretried
        · rw [hfirst, hthrows.result_eq]
          rfl
    · obtain ⟨hash, hresult⟩ : ∃ hash, (attempts (s.begun + 1)).result = .ok hash :=
        hresponse.elim (fun h => h.result_eq.1) fun h => h.result_eq.1
      rw [hresult]
      refine ⟨0, hstop fun y hy => ?_, ?_⟩
      · rw [hy.result_eq] at hresult
        cases hresult
      · rw [hfirst, hresult]

end Attempts

/-! ## Exactly once -/

/-- A call that resolves has had its transaction applied once, and one that rejects not at
all. -/
def ExactlyOnce (tx : Transaction) : Except HttpException String × Network → Prop
  | (.ok _, s) => s.applied = [tx]
  | (.error _, s) => s.applied = []

theorem replicate_eq_singleton {tx : Transaction} {n : Nat} :
    List.replicate n tx = [tx] ↔ n = 1 := by
  constructor
  · intro h
    have hlength := congrArg List.length h
    rwa [List.length_replicate] at hlength
  · rintro rfl
    rfl

theorem exactlyOnce_iff_consistent {retried : HttpException → Bool} {attempts : Attempts}
    {tx : Transaction} {begun retries n : Nat} (h : Ended retried attempts retries n) :
    ExactlyOnce tx ((attempts (n + 1)).result, ⟨begun,
        List.replicate (losses attempts n + (attempts (n + 1)).effect) tx⟩) ↔
      Consistent retried attempts retries := by
  rw [consistent_iff h]
  unfold Attempt.effect
  rcases Attempt.answered (attempts (n + 1)) with ⟨x, ha⟩ | ha | ha
  · have hlosses : losses attempts (n + 1) = losses attempts n +
        if (attempts (n + 1)).lostApplied then 1 else 0 := by
      unfold losses
      rw [List.range_succ, List.map_append, List.countP_append, List.map_singleton,
        List.countP_singleton]
    rw [ha.result_eq, ExactlyOnce, List.replicate_eq_nil_iff, ha.applied_eq, ← hlosses]
    refine ⟨fun hnone => ⟨fun hs => ?_, fun hf => ?_, fun _ _ => hnone⟩, fun h => h.2.2 x ha⟩
    · obtain ⟨⟨hash, hresult⟩, -⟩ := hs.result_eq
      rw [ha.result_eq] at hresult
      cases hresult
    · obtain ⟨⟨hash, hresult⟩, -⟩ := hf.result_eq
      rw [ha.result_eq] at hresult
      cases hresult
  · obtain ⟨⟨hash, hresult⟩, happlied⟩ := ha.result_eq
    rw [hresult, ExactlyOnce, replicate_eq_singleton, happlied]
    refine ⟨fun hone => ⟨fun _ => Nat.succ.inj hone, fun hf => ?_, fun x ht => ?_⟩,
      fun h => congrArg Nat.succ (h.1 ha)⟩
    · rw [hf.result_eq.2] at happlied
      cases happlied
    · rw [ht.result_eq] at hresult
      cases hresult
  · obtain ⟨⟨hash, hresult⟩, happlied⟩ := ha.result_eq
    rw [hresult, ExactlyOnce, replicate_eq_singleton, happlied]
    refine ⟨fun hone => ⟨fun hs => ?_, fun _ => hone, fun x ht => ?_⟩, fun h => h.2.1 ha⟩
    · rw [hs.result_eq.2] at happlied
      cases happlied
    · rw [ht.result_eq] at hresult
      cases hresult

/-- Whatever the network answers in each of the attempts: `mintReward` mints exactly once if it
resolves and not at all if it rejects, exactly when it is not configured or the answers are
consistent. -/
theorem mintReward_exactly_once_iff (config : Config) (retried : HttpException → Bool)
    (attempts : Attempts) (recipientPublicKey : String) (amount : I128) :
    ExactlyOnce (mintTransaction config recipientPublicKey amount)
        ((mintReward config retried recipientPublicKey amount).run handle attempts .fresh) ↔
      config.secretKey = "" ∨ config.tokenContractId = "" ∨
        Consistent retried attempts maxRetries := by
  unfold mintReward
  by_cases hkey : config.secretKey = ""
  · refine iff_of_true ?_ (.inl hkey)
    unfold ensureSecretKeyConfigured
    rw [if_pos hkey]
    rfl
  have hensure : ensureSecretKeyConfigured config = pure () := if_neg hkey
  rw [hensure]
  by_cases hcontract : config.tokenContractId = ""
  · refine iff_of_true ?_ (.inr (.inl hcontract))
    rw [if_pos hcontract]
    rfl
  rw [if_neg hcontract, Process.pure_eq, Process.ret_bind]
  obtain ⟨n, hended, hrun⟩ := run_pRetry attempts
    (mintTransaction config recipientPublicKey amount) retried hkey maxRetries .fresh
  have hall : (fun k => attempts (Network.fresh.begun + k)) = attempts :=
    funext fun k => congrArg attempts (Nat.zero_add k)
  have hlast : Network.fresh.begun + (n + 1) = n + 1 := Nat.zero_add _
  rw [hall] at hended
  rw [hrun, hall, hlast, Network.fresh, List.append_nil, exactlyOnce_iff_consistent hended]
  constructor
  · exact fun h => .inr (.inr h)
  · rintro (h | h | h)
    · exact absurd h hkey
    · exact absurd h hcontract
    · exact h

/-! ## A reward that is minted twice -/

def exampleConfig : Config := ⟨"S1", "C1"⟩

/-- The response to the first transaction is lost on its way; the second is accepted. Both are
applied. -/
def exampleLost : Attempts
  | 1 => ⟨none, none, .lost (.internal "socket hang up") true⟩
  | _ => ⟨none, none, .accepted "tx2" true⟩

/-- The only transaction is accepted, and fails later. -/
def exampleFailing : Attempts := fun _ => ⟨none, none, .accepted "tx1" false⟩

theorem reward_minted_twice :
    let tx := mintTransaction exampleConfig "G1" (.lit 100)
    let outcome (attempts : Attempts) :=
      (mintReward exampleConfig (fun _ => true) "G1" (.lit 100)).run handle attempts .fresh
    outcome exampleLost = (.ok "tx2", ⟨2, [tx, tx]⟩) ∧
      ¬ ExactlyOnce tx (outcome exampleLost) ∧
      outcome exampleFailing = (.ok "tx1", ⟨1, []⟩) ∧
      ¬ ExactlyOnce tx (outcome exampleFailing) := by
  have htwice : (mintReward exampleConfig (fun _ => true) "G1" (.lit 100)).run handle exampleLost
      .fresh = (.ok "tx2", ⟨2, [mintTransaction exampleConfig "G1" (.lit 100),
        mintTransaction exampleConfig "G1" (.lit 100)]⟩) := rfl
  have hnever : (mintReward exampleConfig (fun _ => true) "G1" (.lit 100)).run handle
      exampleFailing .fresh = (.ok "tx1", ⟨1, []⟩) := rfl
  refine ⟨htwice, ?_, hnever, ?_⟩
  · dsimp only
    rw [htwice, ExactlyOnce]
    simp
  · dsimp only
    rw [hnever, ExactlyOnce]
    simp

end Scoopdope.Stellar

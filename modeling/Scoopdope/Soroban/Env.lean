import Scoopdope.Soroban.BoundedInt

/-!
# The environment of a call

What a contract can ask the host about the call it is serving: the ledger, the
addresses that authorised the call, its own address. Published events are
topics and data made of host values.
-/

namespace Soroban

/-- `BytesN<32>`. -/
abbrev Bytes32 : Type := Vector UInt8 32

/-- The host's view of one call. -/
structure Env (Address : Type) where
  /-- `env.ledger().sequence()`. -/
  sequence : U32
  /-- `env.ledger().timestamp()`. -/
  timestamp : U64
  /-- The addresses that authorise the call. -/
  auths : List Address
  /-- `env.current_contract_address()`. -/
  currentContractAddress : Address

/-- The host values that events are made of. -/
inductive Val (Address : Type)
  | symbol (name : String)
  | bool (b : Bool)
  | u32 (n : U32)
  | u64 (n : U64)
  | i128 (n : I128)
  | bytes (b : List UInt8)
  | address (a : Address)
  /-- A unit variant of an enumeration. -/
  | variant (name : String)

/-- A published event. The data is a tuple; a single value is a tuple of one. -/
structure Event (Address : Type) where
  topics : List (Val Address)
  data : List (Val Address)

variable {Address : Type} [DecidableEq Address]

/-- `addr.require_auth()`: succeeds exactly for the addresses that authorise
the call. -/
def Env.requireAuth (env : Env Address) (addr : Address) : Outcome Unit :=
  if addr ∈ env.auths then .ok () else .error .unauthorized

@[simp] theorem Env.requireAuth_eq_ok {env : Env Address} {addr : Address} {u : Unit} :
    env.requireAuth addr = .ok u ↔ addr ∈ env.auths := by
  unfold Env.requireAuth
  split
  · next h => exact ⟨fun _ => h, fun _ => rfl⟩
  · next h => exact ⟨nofun, fun h' => absurd h' h⟩

@[simp] theorem Env.requireAuth_eq_error {env : Env Address} {addr : Address} {t : Trap} :
    env.requireAuth addr = .error t ↔ addr ∉ env.auths ∧ t = .unauthorized := by
  unfold Env.requireAuth
  split
  · next h => exact ⟨nofun, fun h' => absurd h h'.1⟩
  · next h => simp [h, eq_comm]

theorem Env.requireAuth_ne_divisionByZero {env : Env Address} {addr : Address} :
    env.requireAuth addr ≠ .error .divisionByZero := by
  intro h
  obtain ⟨_, ht⟩ := Env.requireAuth_eq_error.mp h
  cases ht

/-- An environment for tests. The contract itself is address 0. -/
def exampleEnv (sequence : U32) (auths : List Nat) : Env Nat where
  sequence := sequence
  timestamp := 0
  auths := auths
  currentContractAddress := 0

end Soroban

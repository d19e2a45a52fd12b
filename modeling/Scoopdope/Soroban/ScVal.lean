import Scoopdope.Soroban.BoundedInt

/-!
# Arguments of a call

A transaction passes the arguments of a call as a list of values, each tagged with its own
type. An entry point declares the types of its parameters; the host decodes the list at
these types, and a list of another length, a value of another type or a malformed symbol is
not decoded. A `Signature` is the list of declared types.

`length_of_decode`: what is decoded has one value for each parameter.
-/

namespace Soroban

abbrev I32 : Type := BoundedInt (-2147483648) 2147483647

variable {Address : Type}

inductive ScVal (Address : Type)
  | address (a : Address)
  | symbol (name : String)
  | string (s : String)
  | u32 (n : U32)
  | i32 (n : I32)
  | i128 (n : I128)
deriving DecidableEq

def isSymbolChar (c : Char) : Bool := c.isAlphanum || c == '_'

/-- At most 32 characters from `[A-Za-z0-9_]`. -/
def isSymbol (name : String) : Bool :=
  decide (name.toList.length ≤ 32) && name.toList.all isSymbolChar

abbrev SymbolName : Type := { name : String // isSymbol name = true }

/-- The type of a parameter. -/
inductive ParamType
  | address
  | symbol
  | string
  | u32
  | i128

/-- The values of a parameter. -/
abbrev ParamType.Value (Address : Type) : ParamType → Type
  | .address => Address
  | .symbol => SymbolName
  | .string => String
  | .u32 => U32
  | .i128 => I128

namespace ParamType

def decode : (t : ParamType) → ScVal Address → Option (t.Value Address)
  | .address, .address a => some a
  | .symbol, .symbol name => if h : isSymbol name = true then some ⟨name, h⟩ else none
  | .string, .string s => some s
  | .u32, .u32 n => some n
  | .i128, .i128 n => some n
  | _, _ => none

end ParamType

/-- The types of the parameters, in order. -/
abbrev Signature : Type := List ParamType

namespace Signature

/-- One value for each parameter. -/
abbrev Args (Address : Type) : Signature → Type
  | [] => Unit
  | t :: ts => t.Value Address × Args Address ts

def decode : (ts : Signature) → List (ScVal Address) → Option (ts.Args Address)
  | [], [] => some ()
  | t :: ts, v :: vs =>
    match t.decode v, decode ts vs with
    | some x, some xs => some (x, xs)
    | _, _ => none
  | _, _ => none

theorem length_of_decode {ts : Signature} {vs : List (ScVal Address)} {xs : ts.Args Address}
    (h : decode ts vs = some xs) : vs.length = ts.length := by
  induction ts generalizing vs with
  | nil =>
    cases vs with
    | nil => rfl
    | cons v vs => cases h
  | cons t ts ih =>
    cases vs with
    | nil => cases h
    | cons v vs =>
      unfold decode at h
      split at h
      · next hrest =>
        rw [List.length_cons, List.length_cons, ih hrest]
      · cases h

end Signature

end Soroban

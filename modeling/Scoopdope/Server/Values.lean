import Mathlib.Data.Rat.Defs
import Scoopdope.Server.Http

/-!
# Values

What a program reads of a parsed text: a value of JavaScript, or `undefined`, which is `none`. To
read a field of `null` or `undefined` throws.

A plain object that is used as a map has more names than those that are assigned to it: what it
inherits is found as well (`PlainObject.get`).
-/

namespace Scoopdope.Server

inductive Value
  | null
  | bool (b : Bool)
  | num (n : Rat)
  | nan
  | str (s : String)
  | arr (items : List Value)
  | obj (fields : List (String × Value))
  | function (name : String)

namespace Value

/-- `!!value` -/
def isTrue : Option Value → Bool
  | some (bool b) => b
  | some (num n) => decide (n ≠ 0)
  | some (str s) => decide (s ≠ "")
  | some (arr _) => true
  | some (obj _) => true
  | some (function _) => true
  | _ => false

/-- `value.key`, of a value other than `null`. -/
def field (value : Value) (key : String) : Option Value :=
  match value with
  | obj fields => (fields.find? fun entry => entry.1 = key).map Prod.snd
  | _ => none

/-- `value ?? undefined` -/
def present : Option Value → Option Value
  | some null => none
  | value => value

/-- `value?.key` -/
def optional (value : Option Value) (key : String) : Option Value :=
  (present value).bind fun value => value.field key

/-- `value.key` -/
def read (value : Option Value) (key : String) : Except HttpException (Option Value) :=
  match value with
  | none => .error (.internal ("Cannot read properties of undefined (reading '" ++ key ++ "')"))
  | some null => .error (.internal ("Cannot read properties of null (reading '" ++ key ++ "')"))
  | some value => .ok (value.field key)

/-- The items, if the value is an array. -/
def items : Option Value → Option (List Value)
  | some (arr items) => some items
  | _ => none

/-- `Array.isArray(value) ? value : value ? [value] : []` -/
def asList : Option Value → List Value
  | some (arr items) => items
  | some value => if isTrue (some value) then [value] else []
  | none => []

@[simp] theorem isTrue_str (s : String) : isTrue (some (str s)) = decide (s ≠ "") := rfl

@[simp] theorem read_obj (fields : List (String × Value)) (key : String) :
    read (some (obj fields)) key = .ok ((obj fields).field key) := rfl

@[simp] theorem optional_obj (fields : List (String × Value)) (key : String) :
    optional (some (obj fields)) key = (obj fields).field key := rfl

end Value

/-! ## Plain objects -/

/-- The names of the functions that every plain object inherits. -/
def inheritedFunctions : List String :=
  ["constructor", "hasOwnProperty", "isPrototypeOf", "propertyIsEnumerable", "toLocaleString",
    "toString", "valueOf", "__defineGetter__", "__defineSetter__", "__lookupGetter__",
    "__lookupSetter__"]

/-- `({})[name]`. Under `__proto__` is an object without fields of its own. -/
def inherited (name : String) : Option Value :=
  if name = "__proto__" then some (.obj [])
  else if name ∈ inheritedFunctions then some (.function name)
  else none

/-- A plain object with texts: what was assigned to it, the latest first. -/
abbrev PlainObject : Type := List (String × String)

namespace PlainObject

/-- `object[name] = text`, which changes nothing for the name `__proto__`. -/
def assign (object : PlainObject) (name text : String) : PlainObject :=
  if name = "__proto__" then object else (name, text) :: object

/-- `object[name]` -/
def get (object : PlainObject) (name : String) : Option Value :=
  match object.lookup name with
  | some text => some (.str text)
  | none => inherited name

end PlainObject

end Scoopdope.Server

import JarRefinery.Json.Value
import JarRefinery.Schema.Number

/-!
Checking documents against the form they should have. All violations are found, in the order of the
form's fields, each with the place of the value that is at fault.
-/
namespace JarRefinery.Schema

inductive ViolationKind where
  | missing
  | extraForbidden
  | modelType
  | listType
  | dictType
  | stringType
  | stringTooShort
  | intType
  | intParsing
  | intParsingSize
  | intFromFloat
  | finiteNumber
  | floatType
  | floatParsing
  | boolType
  | boolParsing
  | pathType
  | literalError
  | greaterThanEqual
  | greaterThan
deriving DecidableEq, Repr

def ViolationKind.name : ViolationKind → String
  | missing => "missing"
  | extraForbidden => "extra_forbidden"
  | modelType => "model_type"
  | listType => "list_type"
  | dictType => "dict_type"
  | stringType => "string_type"
  | stringTooShort => "string_too_short"
  | intType => "int_type"
  | intParsing => "int_parsing"
  | intParsingSize => "int_parsing_size"
  | intFromFloat => "int_from_float"
  | finiteNumber => "finite_number"
  | floatType => "float_type"
  | floatParsing => "float_parsing"
  | boolType => "bool_type"
  | boolParsing => "bool_parsing"
  | pathType => "path_type"
  | literalError => "literal_error"
  | greaterThanEqual => "greater_than_equal"
  | greaterThan => "greater_than"

structure Violation where
  place : List String
  kind : ViolationKind
deriving DecidableEq, Repr

/-- A value of the right form, or everything that is wrong with it. -/
def Checked (α : Type) := Except (List Violation) α

namespace Checked

instance : Applicative Checked where
  pure := Except.ok
  seq f x := match f, x () with
    | .ok f, .ok x => .ok (f x)
    | .ok _, .error violations => .error violations
    | .error violations, .ok _ => .error violations
    | .error first, .error second => .error (first ++ second)

def refuse {α : Type} (kind : ViolationKind) : Checked α :=
  .error [⟨[], kind⟩]

/-- Says of all violations that they are under `step`. -/
def under {α : Type} (step : String) : Checked α → Checked α
  | .ok a => .ok a
  | .error violations => .error (violations.map fun v => { v with place := step :: v.place })

def bind {α β : Type} (a : Checked α) (f : α → Checked β) : Checked β :=
  Except.bind a f

end Checked

open Checked

def text : Json → Checked String
  | .text value => .ok value
  | _ => refuse .stringType

def nonemptyText (json : Json) : Checked String :=
  (text json).bind fun value => if value.isEmpty then refuse .stringTooShort else .ok value

/-- The least number beyond 64 bits. -/
def wideLimit : Int := 0x8000000000000000

/-- A number that is an integer, but only within 64 bits. -/
def integerOfNumber (x : Binary64) : Checked Int :=
  match x with
  | .nan | .infinity _ => refuse .finiteNumber
  | x => match x.toInt? with
    | none => refuse .intFromFloat
    | some n => if -wideLimit < n ∧ n < wideLimit then .ok n else refuse .intParsingSize

def integer : Json → Checked Int
  | .integer n => .ok n
  | .bool value => .ok (if value then 1 else 0)
  | .number x => integerOfNumber x
  | .text value => match readInteger value with
    | .integer n => .ok n
    | .tooLong => refuse .intParsingSize
    | .malformed => refuse .intParsing
  | _ => refuse .intType

def integerAtLeast (least : Int) (json : Json) : Checked Int :=
  (integer json).bind fun n => if n < least then refuse .greaterThanEqual else .ok n

def trueWords : List String := ["1", "on", "t", "true", "y", "yes"]
def falseWords : List String := ["0", "off", "f", "false", "n", "no"]

def truth : Json → Checked Bool
  | .bool value => .ok value
  | .integer n => if n = 0 then .ok false else if n = 1 then .ok true else refuse .boolParsing
  | .number x =>
    if x.toInt? = some 0 then .ok false
    else if x.toInt? = some 1 then .ok true
    else refuse .boolType
  | .text value =>
    let word := lowerAscii value.toList
    if trueWords.contains word then .ok true
    else if falseWords.contains word then .ok false
    else refuse .boolParsing
  | _ => refuse .boolType

/-- An integer stands for the double next to it if there is a finite one. -/
def number : Json → Checked Binary64
  | .number x => .ok x
  | .integer n =>
    let x := Binary64.ofInt n
    if x.isInfinite then refuse .floatType else .ok x
  | .bool value => .ok (.ofInt (if value then 1 else 0))
  | .text value => match readNumber? value with
    | some x => .ok x
    | none => refuse .floatParsing
  | _ => refuse .floatType

/-- A number that is not zero or less; one that cannot be compared passes. -/
def positiveNumber (json : Json) : Checked Binary64 :=
  (number json).bind fun x =>
    if x.isPositive || x == .nan then .ok x else refuse .greaterThan

/-- Null stands for nothing. -/
def optional {α : Type} (check : Json → Checked α) : Json → Checked (Option α)
  | .null => .ok none
  | json => (check json).bind fun a => .ok (some a)

/-- All checks of a list of them. -/
def sequence {α : Type} : List (Checked α) → Checked (List α)
  | [] => pure []
  | first :: rest => List.cons <$> first <*> sequence rest

def list {α : Type} (check : Json → Checked α) : Json → Checked (List α)
  | .list items =>
    sequence (items.zipIdx.map fun (item, index) => under (toString index) (check item))
  | _ => refuse .listType

/-- An object with fields of any name. -/
def dictionary {α : Type} (check : Json → Checked α) : Json → Checked (List (String × α))
  | .object fields => sequence (fields.map fun (key, value) =>
      under key ((check value).bind fun a => .ok (key, a)))
  | _ => refuse .dictType

/-- An object with known fields. -/
def model {α : Type} (check : Json.Fields → Checked α) : Json → Checked α
  | .object fields => check fields
  | _ => refuse .modelType

def required {α : Type} (name : String) (check : Json → Checked α) (fields : Json.Fields) :
    Checked α :=
  match fields.get? name with
  | none => under name (refuse .missing)
  | some value => under name (check value)

/-- A field that may be left out. -/
def field {α : Type} (name : String) (check : Json → Checked α) (default : α)
    (fields : Json.Fields) : Checked α :=
  match fields.get? name with
  | none => .ok default
  | some value => under name (check value)

def optionalText (name : String) (fields : Json.Fields) : Checked (Option String) :=
  field name (optional text) none fields

/-- Refuses every field with another name. -/
def noExtras (names : List String) (fields : Json.Fields) : Checked Unit :=
  (sequence ((fields.filter fun f => !names.contains f.1).map fun f =>
    under f.1 (refuse (α := Unit) .extraForbidden))).bind fun _ => .ok ()

end JarRefinery.Schema

import StrongAuth.Calendar.Date.Text
import StrongAuth.Json.Tree
import StrongAuth.Text.Keyword
import StrongAuth.Text.Numeral

set_option autoImplicit false

namespace StrongAuth.Json
open StrongAuth.Calendar

def asString? : Json → Option String
  | .string s => s
  | _ => none

def asBool? : Json → Option Bool
  | .bool b => some b
  | _ => none

/-- A whole number without point or exponent between the bounds; minus zero is not one. -/
def asInt? (least greatest : Int) : Json → Option Int
  | .number ⟨negative, whole, none, none⟩ =>
    let magnitude := Text.numeralValue whole
    let n : Int := if negative then -magnitude else magnitude
    if (negative && magnitude == 0) || n < least || greatest < n then none else some n
  | _ => none

def asInt32? (v : Json) : Option Int := v.asInt? (-2147483648) 2147483647

def asDate? (v : Json) : Option Date := v.asString?.bind Date.ofText?

def asList? {α : Type} (item? : Json → Option α) : Json → Option (List α)
  | .array items => items.mapM item?
  | _ => none

/-- A value of a closed set: its name, or an object whose only member is the name with `null`. -/
def asNamed? {α : Type} [Named α] : Json → Option α
  | .string (some s) => Named.find? s
  | .object [(some s, .null)] => Named.find? s
  | _ => none

abbrev Fields := List (String × Json)

def fieldOf? (names : List String) : Option String × Json → Option (String × Json)
  | (some k, v) => if names.contains k then some (k, v) else none
  | (none, _) => none

/-- The members whose key is among the names. A damaged key or a repeated name spoils the object. -/
def known? (names : List String) (members : List (Option String × Json)) : Option Fields :=
  if members.all (·.1.isSome) then
    let found := members.filterMap (fieldOf? names)
    if (found.map (·.1)).Nodup then some found else none
  else none

/-- The fields of a record. An array has exactly as many items as there are names, or leaves out up
to `spare` of the last ones. -/
def fields? (names : List String) (spare : Nat) : Json → Option Fields
  | .object members => known? names members
  | .array items =>
    if items.length ≤ names.length ∧ names.length ≤ items.length + spare then
      some (names.zip items)
    else none
  | _ => none

namespace Fields

def find? (fields : Fields) (name : String) : Option Json :=
  (List.find? (fun p => p.1 == name) fields).map (·.2)

def required? {α : Type} (fields : Fields) (name : String) (decode? : Json → Option α) :
    Option α :=
  (fields.find? name).bind decode?

/-- A field that may be missing or `null`. -/
def optional? {α : Type} (fields : Fields) (name : String) (decode? : Json → Option α) :
    Option (Option α) :=
  match fields.find? name with
  | none | some .null => some none
  | some v => (decode? v).map some

/-- A field that may be missing, but not `null`. -/
def defaulted? {α : Type} (fields : Fields) (name : String) (default : α)
    (decode? : Json → Option α) : Option α :=
  match fields.find? name with
  | none => some default
  | some v => decode? v

end Fields

def orNull {α : Type} (encode : α → Json) : Option α → Json
  | some a => encode a
  | none => .null

def record (members : List (String × Json)) : Json :=
  .object (members.map fun (k, v) => (some k, v))

end StrongAuth.Json

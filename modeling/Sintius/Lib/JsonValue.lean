import Sintius.Lib.Double
import Sintius.Lib.NumberText

/-! What `JSON.parse` gives, and what `String` makes of it. An object's members have
different names. -/

namespace Js

inductive JsonValue where
  | null
  | bool (b : Bool)
  | number (n : Number)
  | string (s : String)
  | array (items : List JsonValue)
  | object (members : List (String × JsonValue))

/-- `String(n)` -/
def Number.string : Number → String
  | .nan => "NaN"
  | .infinity negative => if negative then "-Infinity" else "Infinity"
  | .finite d => String.ofList ((numberText d).map fun c => Char.ofNat c.val)

namespace JsonValue

/-- An own property of a value, where it is an object that has one. -/
def property (name : String) : JsonValue → Option JsonValue
  | .object members => members.lookup name
  | _ => none

mutual

/-- `String(value)`. An object with a `toString` of its own cannot be converted: the property is not
a function, and `valueOf` gives the object back. -/
def toText : JsonValue → Option String
  | .null => some "null"
  | .bool b => some (if b then "true" else "false")
  | .number n => some n.string
  | .string s => some s
  | .array items => (itemTexts items).map (String.intercalate ",")
  | .object members =>
    if members.any fun member => member.1 == "toString" then none else some "[object Object]"

/-- The items of `join`; `null` gives nothing. -/
def itemTexts : List JsonValue → Option (List String)
  | [] => some []
  | item :: items => do
    let text ← match item with
      | .null => some ""
      | item => toText item
    let texts ← itemTexts items
    some (text :: texts)

end

end JsonValue

end Js

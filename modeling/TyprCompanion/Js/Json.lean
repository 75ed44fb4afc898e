import TyprCompanion.Js.Text

/-!
# JSON values

What `JSON.parse` returns, and the tests the validators make on it.

* `JSNumber` — numbers, as far as `Number.isInteger` and comparisons with integers tell.
* `jsonString` — the literal `JSON.stringify` makes of a string.
* `Json` — values; `Json.record?` and `Json.field` are `isRecord` and property access.
-/

namespace Typr

/-! ## Numbers -/

/-- A number of the program, as far as `Number.isSafeInteger` tells. -/
inductive JSNumber where
  | integer (n : Int)
  /-- A fraction, an infinity or `NaN`. -/
  | other
  deriving DecidableEq

/-- `Number.MAX_SAFE_INTEGER` -/
def MAX_SAFE_INTEGER : Nat := 2 ^ 53 - 1

namespace JSNumber

/-- `Number.isSafeInteger(value) && value > 0`, with the value -/
def positiveSafeInteger? : JSNumber → Option Nat
  | .integer n => if 0 < n ∧ n ≤ MAX_SAFE_INTEGER then some n.toNat else none
  | .other => none

/-- `Number.isInteger(value) && value >= 0`, with the value -/
def nonNegativeInteger? : JSNumber → Option Nat
  | .integer n => if 0 ≤ n then some n.toNat else none
  | .other => none

theorem positiveSafeInteger?_pos {number : JSNumber} {n : Nat}
    (h : number.positiveSafeInteger? = some n) : 0 < n := by
  cases number with
  | integer m =>
      simp only [positiveSafeInteger?, Option.ite_none_right_eq_some, Option.some.injEq] at h
      omega
  | other => exact absurd h (by simp [positiveSafeInteger?])

end JSNumber

/-- A number in a template string. -/
def jsNat (n : Nat) : JSString := js (toString n)

/-! ## String literals -/

/-- A hexadecimal digit. -/
def jsonHexDigit (n : CodeUnit) : CodeUnit := if n < 10 then 0x30 + n else 0x57 + n

/-- A unit as it stands in a string literal; a surrogate stands alone here. -/
def jsonUnit (u : CodeUnit) : JSString :=
  if u = 0x22 ∨ u = 0x5C then [0x5C, u]
  else if u = 0x08 then js "\\b"
  else if u = 0x09 then js "\\t"
  else if u = 0x0A then js "\\n"
  else if u = 0x0C then js "\\f"
  else if u = 0x0D then js "\\r"
  else if u < 0x20 ∨ JSString.isHighSurrogate u = true ∨ JSString.isLowSurrogate u = true then
    js "\\u" ++ [u >>> 12, (u >>> 8) % 16, (u >>> 4) % 16, u % 16].map jsonHexDigit
  else [u]

/-- The units of a string literal. -/
def jsonUnits : JSString → JSString
  | [] => []
  | [u] => jsonUnit u
  | u :: v :: rest =>
      if JSString.isHighSurrogate u = true ∧ JSString.isLowSurrogate v = true then
        u :: v :: jsonUnits rest
      else jsonUnit u ++ jsonUnits (v :: rest)

/-- `JSON.stringify(value)` of a string -/
def jsonString (value : JSString) : JSString := 0x22 :: jsonUnits value ++ [0x22]

example : jsonString (js "/a \"\n") = js "\"/a \\\"\\n\"" := rfl

/-! ## Values -/

/-- A parsed value; a number comes with the text `String` makes of it.  Of two fields with one
name `JSON.parse` keeps the last. -/
inductive Json where
  | null
  | bool (b : Bool)
  | number (n : JSNumber) (text : JSString)
  | string (s : JSString)
  | array (items : List Json)
  | object (fields : List (JSString × Json))

namespace Json

/-- The fields of a value `isRecord` accepts. -/
def record? : Json → Option (List (JSString × Json))
  | .object fields => some fields
  | _ => none

/-- Property access on a record; `none` is `undefined`. -/
def field (fields : List (JSString × Json)) (name : JSString) : Option Json :=
  (fields.reverse.find? fun entry => entry.1 == name).map Prod.snd

/-- The string when `typeof value === "string"`. -/
def string? : Json → Option JSString
  | .string s => some s
  | _ => none

/-- The number when `typeof value === "number"`. -/
def number? : Json → Option JSNumber
  | .number n _ => some n
  | _ => none

/-- The items when `Array.isArray(value)`. -/
def array? : Json → Option (List Json)
  | .array items => some items
  | _ => none

mutual

/-- `String(value)` -/
def text : Json → JSString
  | .null => js "null"
  | .bool b => if b then js "true" else js "false"
  | .number _ text => text
  | .string s => s
  | .array items => JSString.join (unit ',') (itemTexts items)
  | .object _ => js "[object Object]"

/-- The items of an array in its text; `null` leaves nothing. -/
def itemTexts : List Json → List JSString
  | [] => []
  | .null :: rest => [] :: itemTexts rest
  | item :: rest => item.text :: itemTexts rest

end

end Json

end Typr

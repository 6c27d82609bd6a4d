import NestDdd.Shared.JsString

/-!
# Shared — `JSON.stringify`

The text of a value, `none` for `undefined`.  What `String` writes of a finite number is a
parameter.
-/

namespace NestDdd

open JsValue

/-- A character inside the quotes. -/
def escape (c : Char) : List Char :=
  if c = '"' then ['\\', '"']
  else if c = '\\' then ['\\', '\\']
  else if c.toNat = 8 then ['\\', 'b']
  else if c.toNat = 9 then ['\\', 't']
  else if c.toNat = 10 then ['\\', 'n']
  else if c.toNat = 12 then ['\\', 'f']
  else if c.toNat = 13 then ['\\', 'r']
  else if c.toNat < 32 then
    ['\\', 'u', '0', '0', hexDigit (c.toNat / 16), hexDigit (c.toNat % 16)]
  else [c]

def quote (s : String) : List Char := '"' :: s.toList.flatMap escape ++ ['"']

section Stringify

-- what `String(n)` writes of a finite number
variable (numberText : Rat → List Char)

mutual

/-- `JSON.stringify(v)`, `none` for `undefined`. -/
def stringify : JsValue → Option (List Char)
  | .undefined => none
  | .null | .number .nan | .number (.infinity _) => some ['n', 'u', 'l', 'l']
  | .bool true => some ['t', 'r', 'u', 'e']
  | .bool false => some ['f', 'a', 'l', 's', 'e']
  | .number .negativeZero => some ['0']
  | .number (.finite q) => some (numberText q)
  | .string s => some (quote s)
  | .array items => some ('[' :: [','].intercalate (stringifyItems items) ++ [']'])
  | .object fields => some ('{' :: [','].intercalate (stringifyFields fields) ++ ['}'])

def stringifyItems : List JsValue → List (List Char)
  | [] => []
  | item :: items => (stringify item).getD ['n', 'u', 'l', 'l'] :: stringifyItems items

def stringifyFields : List (String × JsValue) → List (List Char)
  | [] => []
  | (name, value) :: fields =>
      match stringify value with
      | none => stringifyFields fields
      | some text => (quote name ++ ':' :: text) :: stringifyFields fields

end

end Stringify

end NestDdd

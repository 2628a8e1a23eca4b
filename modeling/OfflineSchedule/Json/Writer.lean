import OfflineSchedule.Json.Value
/-!
# Compact JSON text

The text of a value without blanks, members in their order. In strings the quote, the backslash and
control characters are escaped, and nothing else.
-/

namespace OfflineSchedule.Json

/-- The digit of a number below 16. -/
def hexDigit (n : Nat) : Char := Char.ofNat (if n < 10 then '0'.toNat + n else 'a'.toNat + (n - 10))

/-- A character inside quotes. -/
def escape (c : Char) : List Char :=
  if c = '"' then ['\\', '"']
  else if c = '\\' then ['\\', '\\']
  else if c = '\x08' then ['\\', 'b']
  else if c = '\t' then ['\\', 't']
  else if c = '\n' then ['\\', 'n']
  else if c = '\x0c' then ['\\', 'f']
  else if c = '\r' then ['\\', 'r']
  else if c.toNat < 0x20 then
    ['\\', 'u', '0', '0', hexDigit (c.toNat / 16), hexDigit (c.toNat % 16)]
  else [c]

def quote (s : String) : List Char := '"' :: s.toList.flatMap escape ++ ['"']

/-- Puts a comma between the given texts. -/
def commas : List (List Char) → List Char
  | [] => []
  | [a] => a
  | a :: as => a ++ ',' :: commas as

namespace Value

mutual

def chars : Value → List Char
  | .null => ['n', 'u', 'l', 'l']
  | .bool true => ['t', 'r', 'u', 'e']
  | .bool false => ['f', 'a', 'l', 's', 'e']
  | .number n => n.chars
  | .string s => quote s
  | .array items => '[' :: commas (itemChars items) ++ [']']
  | .object members => '{' :: commas (memberChars members) ++ ['}']

def itemChars : List Value → List (List Char)
  | [] => []
  | v :: vs => chars v :: itemChars vs

def memberChars : List (String × Value) → List (List Char)
  | [] => []
  | (name, v) :: ms => (quote name ++ ':' :: chars v) :: memberChars ms

end

/-- The compact text. -/
def render (v : Value) : String := String.ofList v.chars

end Value

end OfflineSchedule.Json

import SymbolView.Json.Tree

/-!
# Writing JSON

`Json.print` writes every item and field on a line of its own, indented by two blanks for each list
or object around it.  Empty lists and objects are written without a line break.  In string literals
quotes, backslashes and the control characters below the blank are escaped; every other character
stands for itself.
-/

set_option autoImplicit false

namespace SymbolView
namespace Json

/-- A hexadecimal digit, in lower case. -/
def hexDigit (n : Nat) : Char := if n < 10 then Char.ofNat (0x30 + n) else Char.ofNat (0x57 + n)

/-- A character inside a string literal. -/
def escapeChar (c : Char) : List Char :=
  if c = '\x22' then ['\\', '\x22']
  else if c = '\\' then ['\\', '\\']
  else if c = '\x08' then ['\\', 'b']
  else if c = '\x0c' then ['\\', 'f']
  else if c = '\n' then ['\\', 'n']
  else if c = '\r' then ['\\', 'r']
  else if c = '\t' then ['\\', 't']
  else if c.toNat < 0x20 then
    ['\\', 'u', '0', '0', hexDigit (c.toNat / 16), hexDigit (c.toNat % 16)]
  else [c]

/-- A string literal.  One that stands for no text is written as half of a surrogate pair. -/
def quote : Option String → List Char
  | some s => '\x22' :: (s.toList.flatMap escapeChar ++ ['\x22'])
  | none => "\x22\\ud800\x22".toList

/-- A line break and the indentation of the next line. -/
def lineBreak (level : Nat) : List Char := '\n' :: List.replicate (2 * level) ' '

mutual

/-- A value inside so many lists and objects. -/
def printAt (level : Nat) : Json → List Char
  | .null => "null".toList
  | .bool true => "true".toList
  | .bool false => "false".toList
  | .natural n => Nat.toDigits 10 n
  | .number literal => literal
  | .string content => quote content
  | .array [] => "[]".toList
  | .array (item :: rest) =>
    '[' :: (lineBreak (level + 1) ++ printAt (level + 1) item ++ printItems (level + 1) rest
      ++ lineBreak level ++ [']'])
  | .object [] => ['\x7b', '\x7d']
  | .object (field :: rest) =>
    '\x7b' :: (lineBreak (level + 1) ++ printField (level + 1) field
      ++ printFields (level + 1) rest ++ lineBreak level ++ ['\x7d'])

/-- The items of a list after the first. -/
def printItems (level : Nat) : List Json → List Char
  | [] => []
  | item :: rest => ',' :: (lineBreak level ++ printAt level item ++ printItems level rest)

/-- A field of an object. -/
def printField (level : Nat) : JsonField → List Char
  | ⟨key, value⟩ => quote key ++ ':' :: ' ' :: printAt level value

/-- The fields of an object after the first. -/
def printFields (level : Nat) : List JsonField → List Char
  | [] => []
  | field :: rest => ',' :: (lineBreak level ++ printField level field ++ printFields level rest)

end

/-- A value as a text. -/
def print (j : Json) : String := String.ofList (printAt 0 j)

end Json
end SymbolView

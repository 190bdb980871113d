import SymbolView.Json.Tree

/-!
# Reading JSON

`Json.read?` reads a text that holds one JSON value, with blanks around it if need be, and nothing
else.

A string literal is first cut into units, which are characters or escaped code units of 16 bits, and
the units are then put together to characters; this fails if half of a surrogate pair stands alone.
-/

set_option autoImplicit false

namespace SymbolView
namespace Json

/-! ## String literals -/

/-- A part of a string literal. -/
inductive StringUnit where
  /-- A character, which may have been escaped by a letter or sign. -/
  | char (c : Char)
  /-- A code unit of 16 bits that was escaped by its number. -/
  | escaped (unit : Nat)
deriving DecidableEq

/-- The value of a hexadecimal digit. -/
def hexValue? (c : Char) : Option Nat :=
  if '0' ≤ c && c ≤ '9' then some (c.toNat - 0x30)
  else if 'a' ≤ c && c ≤ 'f' then some (c.toNat - 0x57)
  else if 'A' ≤ c && c ≤ 'F' then some (c.toNat - 0x37)
  else none

/-- The number written with four hexadecimal digits. -/
def hexValue4? (a b c d : Char) : Option Nat := do
  return (((← hexValue? a) * 16 + (← hexValue? b)) * 16 + (← hexValue? c)) * 16 + (← hexValue? d)

/-- The character that a letter or sign stands for after a backslash. -/
def unescape? : Char → Option Char
  | '\x22' => some '\x22'
  | '\\' => some '\\'
  | '/' => some '/'
  | 'b' => some '\x08'
  | 'f' => some '\x0c'
  | 'n' => some '\n'
  | 'r' => some '\r'
  | 't' => some '\t'
  | _ => none

/-- The units of a string literal whose opening quote has been read, and what follows it. -/
def units? : List Char → Option (List StringUnit × List Char)
  | [] => none
  | '\x22' :: rest => some ([], rest)
  | '\\' :: 'u' :: a :: b :: c :: d :: rest => do
    let unit ← hexValue4? a b c d
    let (units, after) ← units? rest
    return (.escaped unit :: units, after)
  | '\\' :: e :: rest => do
    let c ← unescape? e
    let (units, after) ← units? rest
    return (.char c :: units, after)
  | c :: rest =>
    if c.toNat < 0x20 || c == '\\' then none
    else do
      let (units, after) ← units? rest
      return (.char c :: units, after)

/-- Whether a code unit is the first half of a surrogate pair. -/
def isHighSurrogate (unit : Nat) : Bool := 0xd800 ≤ unit && unit < 0xdc00

/-- Whether a code unit is the second half of a surrogate pair. -/
def isLowSurrogate (unit : Nat) : Bool := 0xdc00 ≤ unit && unit < 0xe000

/-- The character of a surrogate pair. -/
def ofSurrogates (high low : Nat) : Char :=
  Char.ofNat (0x10000 + (high - 0xd800) * 0x400 + (low - 0xdc00))

/-- The characters that units stand for. -/
def chars? : List StringUnit → Option (List Char)
  | [] => some []
  | .char c :: rest => (c :: ·) <$> chars? rest
  | .escaped high :: .escaped low :: rest =>
    if isHighSurrogate high then
      if isLowSurrogate low then (ofSurrogates high low :: ·) <$> chars? rest else none
    else if isLowSurrogate high then none
    else (Char.ofNat high :: ·) <$> chars? (.escaped low :: rest)
  | .escaped unit :: rest =>
    if isHighSurrogate unit || isLowSurrogate unit then none
    else (Char.ofNat unit :: ·) <$> chars? rest

/-- The text of a string literal whose opening quote has been read, and what follows it. -/
def stringLiteral? (cs : List Char) : Option (Option String × List Char) := do
  let (units, rest) ← units? cs
  return ((chars? units).map String.ofList, rest)

/-! ## Numbers -/

/-- The number that decimal digits stand for. -/
def ofDigits (ds : List Char) : Nat := ds.foldl (fun n d ↦ n * 10 + (d.toNat - 0x30)) 0

/-- The digits at the front, of which there has to be one, and what follows. -/
def digits? (cs : List Char) : Option (List Char × List Char) :=
  match cs.takeWhile Char.isDigit with
  | [] => none
  | ds => some (ds, cs.dropWhile Char.isDigit)

/-- The digits of a whole number, which has no zero in front of other digits, and what follows. -/
def whole? (cs : List Char) : Option (List Char × List Char) :=
  match digits? cs with
  | some ('0' :: _ :: _, _) => none
  | other => other

/-- A decimal point with digits, if there is one, and what follows. -/
def fraction? : List Char → Option (List Char × List Char)
  | '.' :: rest => do
    let (ds, after) ← digits? rest
    return ('.' :: ds, after)
  | rest => some ([], rest)

/-- A sign from some signs, if there is one, and what follows. -/
def sign (signs : List Char) : List Char → List Char × List Char
  | [] => ([], [])
  | c :: rest => if c ∈ signs then ([c], rest) else ([], c :: rest)

/-- An exponent, if there is one, and what follows. -/
def exponent? : List Char → Option (List Char × List Char)
  | [] => some ([], [])
  | e :: rest =>
    if e = 'e' ∨ e = 'E' then do
      let (s, unsigned) := sign ['+', '-'] rest
      let (ds, after) ← digits? unsigned
      return (e :: (s ++ ds), after)
    else some ([], e :: rest)

/-- A number and what follows. -/
def number? (cs : List Char) : Option (Json × List Char) := do
  let (s, unsigned) := sign ['-'] cs
  let (whole, rest) ← whole? unsigned
  let (fraction, rest) ← fraction? rest
  let (exponent, rest) ← exponent? rest
  match s ++ fraction ++ exponent with
  | [] => return (.natural (ofDigits whole), rest)
  | _ => return (.number (s ++ whole ++ fraction ++ exponent), rest)

/-! ## Values -/

/-- Whether a character may stand between the parts of a JSON text. -/
def isSpace (c : Char) : Bool := c == ' ' || c == '\n' || c == '\t' || c == '\r'

/-- What follows the blanks at the front. -/
def skipSpace (cs : List Char) : List Char := cs.dropWhile isSpace

mutual

/-- A value and what follows.  The first argument bounds the recursion; the number of characters is
always enough. -/
def value? : Nat → List Char → Option (Json × List Char)
  | 0, _ => none
  | fuel + 1, cs =>
    match skipSpace cs with
    | 'n' :: 'u' :: 'l' :: 'l' :: rest => some (.null, rest)
    | 't' :: 'r' :: 'u' :: 'e' :: rest => some (.bool true, rest)
    | 'f' :: 'a' :: 'l' :: 's' :: 'e' :: rest => some (.bool false, rest)
    | '\x22' :: rest => do
      let (content, after) ← stringLiteral? rest
      return (.string content, after)
    | '[' :: rest =>
      match skipSpace rest with
      | ']' :: after => some (.array [], after)
      | _ => do
        let (item, rest) ← value? fuel rest
        let (items, after) ← items? fuel rest
        return (.array (item :: items), after)
    | '\x7b' :: rest =>
      match skipSpace rest with
      | '\x7d' :: after => some (.object [], after)
      | _ => do
        let (field, rest) ← field? fuel rest
        let (fields, after) ← fields? fuel rest
        return (.object (field :: fields), after)
    | other => number? other

/-- The items of a list after the first, with the closing bracket, and what follows. -/
def items? : Nat → List Char → Option (List Json × List Char)
  | 0, _ => none
  | fuel + 1, cs =>
    match skipSpace cs with
    | ']' :: after => some ([], after)
    | ',' :: rest => do
      let (item, rest) ← value? fuel rest
      let (items, after) ← items? fuel rest
      return (item :: items, after)
    | _ => none

/-- A field of an object and what follows. -/
def field? : Nat → List Char → Option (JsonField × List Char)
  | 0, _ => none
  | fuel + 1, cs =>
    match skipSpace cs with
    | '\x22' :: rest => do
      let (key, rest) ← stringLiteral? rest
      match skipSpace rest with
      | ':' :: rest => do
        let (value, after) ← value? fuel rest
        return (⟨key, value⟩, after)
      | _ => none
    | _ => none

/-- The fields of an object after the first, with the closing brace, and what follows. -/
def fields? : Nat → List Char → Option (List JsonField × List Char)
  | 0, _ => none
  | fuel + 1, cs =>
    match skipSpace cs with
    | '\x7d' :: after => some ([], after)
    | ',' :: rest => do
      let (field, rest) ← field? fuel rest
      let (fields, after) ← fields? fuel rest
      return (field :: fields, after)
    | _ => none

end

/-- The value that a text holds. -/
def read? (text : String) : Option Json := do
  let cs := text.toList
  let (j, rest) ← value? (cs.length + 1) cs
  if (skipSpace rest).isEmpty then some j else none

end Json
end SymbolView

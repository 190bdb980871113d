import SymbolView.Decimal.Notation

/-!
# Constants

`Constant` is the value of a literal in an annotation argument, `Constant.text` writes it the way
the literal is written in source code.  Quotes, backslashes, dollar signs and the three usual
control characters are escaped in character and string literals.

`Constant.same` compares two constants like the numbers they are: floating-point zeros are the same
whatever their sign, and what is not a number is not the same as anything.
-/

set_option autoImplicit false

namespace SymbolView

/-- The value of a literal.  Floating-point numbers are kept as the words that store them. -/
inductive Constant where
  | boolean (value : Bool)
  | char (value : Char)
  | byte (value : Int8)
  | short (value : Int16)
  | int (value : Int32)
  | long (value : Int64)
  | ubyte (value : UInt8)
  | ushort (value : UInt16)
  | uint (value : UInt32)
  | ulong (value : UInt64)
  | float (word : UInt32)
  | double (word : UInt64)
  | string (value : String)
  | null
deriving DecidableEq

namespace Constant

/-- A character inside a literal that is delimited by `quote`. -/
def escapeChar (quote : Char) (c : Char) : List Char :=
  if c = '\\' then ['\\', '\\']
  else if c = '\n' then ['\\', 'n']
  else if c = '\t' then ['\\', 't']
  else if c = '\r' then ['\\', 'r']
  else if c = '$' then ['\\', '$']
  else if c = quote then ['\\', quote]
  else [c]

/-- A literal with the given content, delimited by `quote`. -/
def quoted (quote : Char) (content : List Char) : String :=
  String.ofList (quote :: (content.flatMap (escapeChar quote) ++ [quote]))

/-- A constant as it is written in source code. -/
def text : Constant → String
  | boolean true => "true"
  | boolean false => "false"
  | char c => quoted '\x27' [c]
  | byte n => n.toInt.repr ++ ".toByte()"
  | short n => n.toInt.repr ++ ".toShort()"
  | int n => n.toInt.repr
  | long n => n.toInt.repr ++ "L"
  | ubyte n => n.toNat.repr ++ ".toUByte()"
  | ushort n => n.toNat.repr ++ ".toUShort()"
  | uint n => n.toNat.repr ++ "u"
  | ulong n => n.toNat.repr ++ "uL"
  | float word => Decimal.floatText .binary32 word.toNat ++ "f"
  | double word => Decimal.floatText .binary64 word.toNat
  | string s => quoted '\x22' s.toList
  | null => "null"

/-- Whether two floating-point words stand for the same number. -/
def sameFloat (format : Decimal.BinaryFormat) (a b : Nat) : Bool :=
  let (m, n) := (format.magnitude a, format.magnitude b)
  m ≤ format.infinity && n ≤ format.infinity && (a == b || m == 0 && n == 0)

/-- Whether two constants are of one kind and have the same value. -/
def same : Constant → Constant → Bool
  | float a, float b => sameFloat .binary32 a.toNat b.toNat
  | double a, double b => sameFloat .binary64 a.toNat b.toNat
  | a, b => a == b

end Constant
end SymbolView

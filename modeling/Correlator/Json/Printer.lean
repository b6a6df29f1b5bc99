import Correlator.Json.Document

/-!
# Writing JSON

A value is written without blanks, in the order it holds its members. Writing goes the way of
reading backwards: a value is said by a document (`Json.document`), a document is written by tokens
(`Document.tokens`), and `Token.write` spells each one.
-/

namespace Correlator

namespace Token

/-- The hexadecimal digits of a control character below `0x20`, four in number. -/
def unitDigits (n : Nat) : List Char :=
  ['0', '0', Nat.digitChar (n / 16), Nat.digitChar (n % 16)]

/-- A character inside a string: a quote, a reverse solidus and the control characters are
escaped, the common ones by a letter. -/
def writeChar (c : Char) : List Char :=
  if c = '"' then ['\\', '"']
  else if c = '\\' then ['\\', '\\']
  else if c = '\n' then ['\\', 'n']
  else if c = '\r' then ['\\', 'r']
  else if c = '\t' then ['\\', 't']
  else if c = '\x08' then ['\\', 'b']
  else if c = '\x0c' then ['\\', 'f']
  else if c < ' ' then '\\' :: 'u' :: unitDigits c.toNat
  else [c]

def writeString (s : String) : List Char :=
  '"' :: s.toList.flatMap writeChar ++ ['"']

def writeInt (n : Int) : List Char :=
  if n < 0 then '-' :: Nat.toDigits 10 n.natAbs else Nat.toDigits 10 n.natAbs

/-- A numeral in the spelling that gives it back. -/
def writeNumeral : Numeral → List Char
  | .whole negative magnitude => (if negative then ['-'] else []) ++ Nat.toDigits 10 magnitude
  | .scaled negative significand exponent =>
    (if negative then ['-'] else []) ++ Nat.toDigits 10 significand ++ 'e' :: writeInt exponent

/-- The spelling of a token. A string token that names no string is spelled as half of a surrogate
pair. -/
def write : Token → List Char
  | .openBrace => ['\x7b']
  | .closeBrace => ['\x7d']
  | .openBracket => ['[']
  | .closeBracket => [']']
  | .comma => [',']
  | .colon => [':']
  | .null => ['n', 'u', 'l', 'l']
  | .bool true => ['t', 'r', 'u', 'e']
  | .bool false => ['f', 'a', 'l', 's', 'e']
  | .number n => writeNumeral n
  | .string (some s) => writeString s
  | .string none => ['"', '\\', 'u', 'd', '8', '0', '0', '"']

end Token

namespace Document

mutual

/-- The tokens that write a document. -/
def tokens : Document → List Token
  | .null => [.null]
  | .bool b => [.bool b]
  | .number n => [.number n]
  | .string s => [.string s]
  | .array [] => [.openBracket, .closeBracket]
  | .array (d :: rest) => .openBracket :: (tokens d ++ moreItems rest)
  | .object [] => [.openBrace, .closeBrace]
  | .object ((name, d) :: rest) =>
    .openBrace :: .string name :: .colon :: (tokens d ++ moreMembers rest)

/-- The rest of an array, behind an item. -/
def moreItems : List Document → List Token
  | [] => [.closeBracket]
  | d :: rest => .comma :: (tokens d ++ moreItems rest)

/-- The rest of an object, behind a member. -/
def moreMembers : List (Option String × Document) → List Token
  | [] => [.closeBrace]
  | (name, d) :: rest => .comma :: .string name :: .colon :: (tokens d ++ moreMembers rest)

end

def render (d : Document) : String :=
  String.ofList (d.tokens.flatMap Token.write)

end Document

namespace Json

/-- The numeral of a whole number. -/
def wholeNumeral (n : Int) : Numeral := .whole (n < 0) n.natAbs

mutual

/-- The document that says a value. Of the many that do it is the plain one: members in the order
of the value, and numbers without a point. -/
def document : Json → Document
  | .null => .null
  | .bool b => .bool b
  | .integer n => .number (wholeNumeral n)
  | .real significand exponent =>
    .number (.scaled (significand < 0) significand.natAbs exponent)
  | .string s => .string s
  | .array items => .array (itemDocuments items)
  | .object members => .object (memberDocuments members)

def itemDocuments : List Json → List Document
  | [] => []
  | v :: rest => document v :: itemDocuments rest

def memberDocuments : List (String × Json) → List (Option String × Document)
  | [] => []
  | (name, v) :: rest => (name, document v) :: memberDocuments rest

end

def render (v : Json) : String := v.document.render

end Json

end Correlator

import Correlator.Json.Token
import Correlator.Json.Value

/-!
# JSON documents

A document is the tree that a text writes, kept as written: members in their order, repeated names
included, numbers in their spelling. Decoders read it (`Json.Decoder`); `Document.value?` turns a
part that is only passed along into a `Json`.

The tree is built by one pass over the tokens with the containers that are still open, so a text
is accepted exactly when the pass ends with nothing open.

* `Document.build` : tokens to tree. `Document.parse` : text to tree.
* `Reading.run_append` : a pass over two stretches of tokens is one pass over both.
* `Numeral.leading_lt`, `Numeral.div_pow_eq_leading` : what is read of a long number.
-/

namespace Correlator

inductive Document where
  | null
  | bool (b : Bool)
  | number (n : Numeral)
  | string (s : Option String)
  | array (items : List Document)
  | object (members : List (Option String × Document))
  deriving Inhabited

/-- A container that is still open, with what it holds so far, the latest first. An open object
also remembers the name whose value comes next. -/
inductive OpenContainer where
  | array (items : List Document)
  | object (members : List (Option String × Document)) (name : Option String)
  deriving Inhabited

/-- Where a pass over the tokens stands, between two tokens; `outer` are the open containers,
the innermost first. -/
inductive Reading where
  | value (outer : List OpenContainer)
  /-- Behind `[`: a value or `]`. -/
  | firstItem (outer : List OpenContainer)
  /-- Behind a value of an array: `,` or `]`. -/
  | afterItem (items : List Document) (outer : List OpenContainer)
  /-- Behind an opening brace: a name or the closing brace. -/
  | firstName (outer : List OpenContainer)
  /-- Behind `,` in an object: a name. -/
  | nextName (members : List (Option String × Document)) (outer : List OpenContainer)
  /-- Behind a name: `:`. -/
  | colon (members : List (Option String × Document)) (name : Option String)
      (outer : List OpenContainer)
  /-- Behind a value of an object: `,` or the closing brace. -/
  | afterMember (members : List (Option String × Document)) (outer : List OpenContainer)
  | complete (document : Document)
  deriving Inhabited

namespace Reading

/-- Puts a finished value into the innermost open container. -/
def place (d : Document) : List OpenContainer → Reading
  | [] => .complete d
  | .array items :: outer => .afterItem (d :: items) outer
  | .object members name :: outer => .afterMember ((name, d) :: members) outer

/-- Takes up a token where a value must come. -/
def start (outer : List OpenContainer) : Token → Option Reading
  | .null => some (place .null outer)
  | .bool b => some (place (.bool b) outer)
  | .number n => some (place (.number n) outer)
  | .string s => some (place (.string s) outer)
  | .openBracket => some (.firstItem outer)
  | .openBrace => some (.firstName outer)
  | _ => none

/-- Takes up the next token. Every state names what it can go on with; a token that is not listed
for the state is a syntax error, also a comma before a closing bracket. -/
def step : Reading → Token → Option Reading
  | .value outer, t => start outer t
  | .firstItem outer, .closeBracket => some (place (.array []) outer)
  | .firstItem outer, t => start (.array [] :: outer) t
  | .afterItem items outer, .comma => some (.value (.array items :: outer))
  | .afterItem items outer, .closeBracket => some (place (.array items.reverse) outer)
  | .firstName outer, .closeBrace => some (place (.object []) outer)
  | .firstName outer, .string s => some (.colon [] s outer)
  | .nextName members outer, .string s => some (.colon members s outer)
  | .colon members name outer, .colon => some (.value (.object members name :: outer))
  | .afterMember members outer, .comma => some (.nextName members outer)
  | .afterMember members outer, .closeBrace => some (place (.object members.reverse) outer)
  | _, _ => none

def run (r : Reading) (tokens : List Token) : Option Reading :=
  tokens.foldlM step r

theorem run_append (r : Reading) (ts us : List Token) :
    r.run (ts ++ us) = (r.run ts).bind fun r' => r'.run us := by
  simp [run, List.foldlM_append]

def result? : Reading → Option Document
  | .complete d => some d
  | _ => none

end Reading

namespace Document

/-- The tree that the tokens write; `none` if they are not one value. -/
def build (tokens : List Token) : Option Document :=
  ((Reading.value []).run tokens).bind Reading.result?

/-- The tree that a text writes: strict JSON with nothing behind it but blanks. -/
def parse (text : String) : Option Document :=
  (Token.lex text.toList).bind build

end Document

/-! ## Values that are passed along -/

namespace Numeral

/-- The whole numbers kept exactly: signed or unsigned 64-bit words. -/
def inWordRange (n : Int) : Bool :=
  Int64.minValue.toInt ≤ n && n < UInt64.size

/-- The nearest number with at most 53 binary digits; of two as near, the one whose last of them is
even. -/
def roundToDouble (n : Nat) : Nat :=
  let unit := 1 <<< (n.log2 + 1 - 53)
  let below := n / unit
  let rest := 2 * (n % unit)
  if unit < rest || (rest = unit && below % 2 = 1) then (below + 1) * unit else below * unit

/-- The leading decimal digits of a number, as far as they fit an unsigned 64-bit word, and how many
digits follow them. -/
def leading (n : Nat) : Nat × Nat :=
  if n < UInt64.size then (n, 0)
  else
    let (digits, dropped) := leading (n / 10)
    (digits, dropped + 1)
termination_by n
decreasing_by
  have hlarge : UInt64.size ≤ n := Nat.le_of_not_lt ‹_›
  rw [UInt64.size] at hlarge
  omega

theorem leading_lt (n : Nat) : (leading n).1 < UInt64.size := by
  fun_induction leading n with
  | case1 n h => exact h
  | case2 n h digits dropped hl ih => simpa [hl] using ih

/-- The digits that follow are those that were left off. -/
theorem div_pow_eq_leading (n : Nat) : n / Nat.pow 10 (leading n).2 = (leading n).1 := by
  fun_induction leading n with
  | case1 n h => simp
  | case2 n h digits dropped hl ih =>
    rw [hl] at ih
    simp only at ih ⊢
    show n / (Nat.pow 10 dropped * 10) = digits
    rw [Nat.mul_comm, ← Nat.div_div_eq_div_mul, ih]

/-- A number from here on rounds to infinity as a double. -/
def doubleBound : Nat := (1 <<< 1024) - (1 <<< 970)

/-- The largest power of ten that a double can hold. -/
def maxPower : Nat := 308

/-- Whether `significand * 10 ^ exponent` can be brought to a finite double: the leading digits and
the power of ten are rounded each, and then their product is. -/
def isFinite (significand : Nat) (exponent : Int) : Bool :=
  let (digits, dropped) := leading significand
  let exponent := exponent + dropped
  digits = 0 || exponent < 0 ||
    (exponent ≤ maxPower &&
      roundToDouble digits * roundToDouble (Nat.pow 10 exponent.toNat) < doubleBound)

/-- The value of a number that is passed along: a whole number of word size as it is, any other
as a scaled one, which must not be too large for a double. -/
def value? : Numeral → Option Json
  | .whole negative magnitude =>
    let n : Int := if negative then -magnitude else magnitude
    if inWordRange n && !(negative && magnitude = 0) then some (.integer n)
    else if isFinite magnitude 0 then some (.real n 0)
    else none
  | .scaled negative significand exponent =>
    if isFinite significand exponent then
      some (.real (if negative then -significand else significand) exponent)
    else none

end Numeral

namespace Document

mutual

/-- The value of a document whose containers nest at most `levels` deep and whose strings hold no
half of a surrogate pair. Of members with the same name the last one counts. -/
def value? (levels : Nat) : Document → Option Json
  | .null => some .null
  | .bool b => some (.bool b)
  | .number n => n.value?
  | .string s => s.map .string
  | .array items =>
    match levels with
    | 0 => none
    | inner + 1 => (itemValues? inner items).map .array
  | .object members =>
    match levels with
    | 0 => none
    | inner + 1 => (memberValues? inner members).map fun ms => .object (Members.ofList ms)

def itemValues? (levels : Nat) : List Document → Option (List Json)
  | [] => some []
  | d :: rest => do
    let v ← value? levels d
    let vs ← itemValues? levels rest
    return v :: vs

def memberValues? (levels : Nat) : List (Option String × Document) → Option (List (String × Json))
  | [] => some []
  | (name, d) :: rest => do
    let name ← name
    let v ← value? levels d
    let vs ← memberValues? levels rest
    return (name, v) :: vs

end

end Document

end Correlator

/-!
# Tokens of a JSON text

Reading goes in two stages. This module cuts a text into tokens; `Json.Document` builds the tree.
Blanks between tokens are a space, a tab, a line feed and a carriage return.

A string may name characters by their UTF-16 units. Its parts are first collected as written, then
paired: a text whose halves do not pair names no string, and its token says so instead of failing,
because a value that nobody reads is allowed to hold one.

* `readParts_length`, `readNumber_length`, `next?_length` : every token uses up some text.
-/

namespace Correlator

/-- A number as written: digits alone, or digits with a point or a power of ten. -/
inductive Numeral where
  | whole (negative : Bool) (magnitude : Nat)
  | scaled (negative : Bool) (significand : Nat) (exponent : Int)
  deriving DecidableEq, Inhabited

/-- A token; a string token holds `none` when it has half of a surrogate pair. -/
inductive Token where
  | openBrace
  | closeBrace
  | openBracket
  | closeBracket
  | comma
  | colon
  | null
  | bool (b : Bool)
  | number (n : Numeral)
  | string (s : Option String)
  deriving DecidableEq, Inhabited

namespace Token

/-! ## Blanks and digits -/

/-- The characters that may stand between tokens. -/
def isBlank (c : Char) : Bool :=
  c = ' ' || c = '\t' || c = '\n' || c = '\r'

def decimalValue (digits : List Char) : Nat :=
  digits.foldl (fun n c => 10 * n + (c.toNat - '0'.toNat)) 0

/-- The value of a hexadecimal digit of either case. -/
def hexDigit? (c : Char) : Option Nat :=
  if '0' ≤ c ∧ c ≤ '9' then some (c.toNat - '0'.toNat)
  else if 'a' ≤ c ∧ c ≤ 'f' then some (c.toNat - 'a'.toNat + 10)
  else if 'A' ≤ c ∧ c ≤ 'F' then some (c.toNat - 'A'.toNat + 10)
  else none

/-- The UTF-16 unit that four hexadecimal digits write. -/
def hexUnit? (a b c d : Char) : Option Nat := do
  let a ← hexDigit? a
  let b ← hexDigit? b
  let c ← hexDigit? c
  let d ← hexDigit? d
  return ((a * 16 + b) * 16 + c) * 16 + d

/-! ## Strings -/

/-- A part of a string as written: a character, or a UTF-16 unit given by its number. -/
inductive Part where
  | char (c : Char)
  | unit (n : Nat)
  deriving DecidableEq, Inhabited

/-- The character that a two-character escape stands for. -/
def escaped? : Char → Option Char
  | '"' => some '"'
  | '\\' => some '\\'
  | '/' => some '/'
  | 'b' => some '\x08'
  | 'f' => some '\x0c'
  | 'n' => some '\n'
  | 'r' => some '\r'
  | 't' => some '\t'
  | _ => none

/-- Reads the parts of a string up to its closing quote; control characters must be escaped. -/
def readParts : List Char → Option (List Part × List Char)
  | [] => none
  | '"' :: rest => some ([], rest)
  | '\\' :: 'u' :: a :: b :: c :: d :: rest =>
    match hexUnit? a b c d, readParts rest with
    | some n, some (parts, rest) => some (.unit n :: parts, rest)
    | _, _ => none
  | '\\' :: e :: rest =>
    match escaped? e, readParts rest with
    | some c, some (parts, rest) => some (.char c :: parts, rest)
    | _, _ => none
  | c :: rest =>
    if c < ' ' ∨ c = '\\' then none
    else match readParts rest with
      | some (parts, rest) => some (.char c :: parts, rest)
      | none => none

/-- Units `0xD800`-`0xDBFF` open a pair. -/
def isHighSurrogate (n : Nat) : Bool := 0xD800 ≤ n && n < 0xDC00

/-- Units `0xDC00`-`0xDFFF` close a pair. -/
def isLowSurrogate (n : Nat) : Bool := 0xDC00 ≤ n && n < 0xE000

/-- The characters that the parts name; `none` if a surrogate stands without its other half. -/
def assemble : List Part → Option (List Char)
  | [] => some []
  | .char c :: rest => (assemble rest).map (c :: ·)
  | .unit n :: .unit m :: rest =>
    if isHighSurrogate n then
      if isLowSurrogate m then
        (assemble rest).map (Char.ofNat (0x10000 + (n - 0xD800) * 0x400 + (m - 0xDC00)) :: ·)
      else none
    else if isLowSurrogate n then none
    else (assemble (.unit m :: rest)).map (Char.ofNat n :: ·)
  | .unit n :: rest =>
    if isHighSurrogate n || isLowSurrogate n then none
    else (assemble rest).map (Char.ofNat n :: ·)

/-! ## Numbers -/

def readDigits (cs : List Char) : Option (List Char × List Char) :=
  if cs.takeWhile Char.isDigit = [] then none
  else some (cs.takeWhile Char.isDigit, cs.dropWhile Char.isDigit)

/-- Reads the fraction of a number, if there is one: a point and at least one digit. -/
def readFraction : List Char → Option (List Char × List Char)
  | '.' :: rest => readDigits rest
  | cs => some ([], cs)

/-- Reads the sign of a power of ten: `true` for a minus. -/
def readSign : List Char → Bool × List Char
  | '-' :: rest => (true, rest)
  | '+' :: rest => (false, rest)
  | cs => (false, cs)

/-- Reads the power of ten of a number, if there is one: a letter, a sign and digits. -/
def readPower : List Char → Option (Option Int × List Char)
  | 'e' :: rest | 'E' :: rest =>
    (readDigits (readSign rest).2).map fun (digits, after) =>
      (some (if (readSign rest).1 then -(decimalValue digits : Int) else decimalValue digits),
        after)
  | cs => some (none, cs)

/-- Reads a number behind its sign. Its whole part is not empty, and starts with a zero only if
it is that zero. -/
def readNumber (negative : Bool) (cs : List Char) : Option (Numeral × List Char) := do
  let (whole, cs) ← readDigits cs
  if whole.head? = some '0' ∧ whole.length ≠ 1 then none
  else do
    let (fraction, cs) ← readFraction cs
    let (power, cs) ← readPower cs
    match fraction, power with
    | [], none => return (.whole negative (decimalValue whole), cs)
    | _, _ =>
      return (.scaled negative (decimalValue (whole ++ fraction))
        (power.getD 0 - fraction.length), cs)

/-! ## The next token -/

/-- The token that `cs` starts with, and the text behind it. -/
def next? : List Char → Option (Token × List Char)
  | '{' :: rest => some (.openBrace, rest)
  | '}' :: rest => some (.closeBrace, rest)
  | '[' :: rest => some (.openBracket, rest)
  | ']' :: rest => some (.closeBracket, rest)
  | ',' :: rest => some (.comma, rest)
  | ':' :: rest => some (.colon, rest)
  | '"' :: rest =>
    (readParts rest).map fun (parts, rest) => (.string ((assemble parts).map String.ofList), rest)
  | 'n' :: 'u' :: 'l' :: 'l' :: rest => some (.null, rest)
  | 't' :: 'r' :: 'u' :: 'e' :: rest => some (.bool true, rest)
  | 'f' :: 'a' :: 'l' :: 's' :: 'e' :: rest => some (.bool false, rest)
  | '-' :: rest => (readNumber true rest).map fun (n, rest) => (.number n, rest)
  | cs => (readNumber false cs).map fun (n, rest) => (.number n, rest)

/-! ## Every token uses up some text -/

theorem readParts_length {cs rest : List Char} {parts : List Part}
    (h : readParts cs = some (parts, rest)) : rest.length < cs.length := by
  fun_induction readParts cs generalizing parts rest with
  | case1 => simp at h
  | case2 => grind
  | case3 a b c d tail n parts' rest' hparts _ ih =>
    have := ih hparts
    simp only [Option.some.injEq, Prod.mk.injEq] at h
    simp only [List.length_cons, ← h.2]
    omega
  | case4 => simp at h
  | case5 e tail _ c parts' rest' hparts _ ih =>
    have := ih hparts
    simp only [Option.some.injEq, Prod.mk.injEq] at h
    simp only [List.length_cons, ← h.2]
    omega
  | case6 => simp at h
  | case7 => simp at h
  | case8 => grind
  | case9 => simp at h

theorem length_dropWhile_le (p : Char → Bool) (cs : List Char) :
    (cs.dropWhile p).length ≤ cs.length :=
  (List.dropWhile_suffix p).length_le

theorem readDigits_length {cs digits rest : List Char} (h : readDigits cs = some (digits, rest)) :
    rest.length < cs.length := by
  have hsplit : (cs.takeWhile Char.isDigit ++ cs.dropWhile Char.isDigit).length = cs.length := by
    rw [List.takeWhile_append_dropWhile]
  rw [readDigits] at h
  split at h
  · simp at h
  · rename_i hne
    have := List.length_pos_iff.2 hne
    simp only [Option.some.injEq, Prod.mk.injEq] at h
    simp only [List.length_append, h.2] at hsplit
    omega

theorem readFraction_length {cs digits rest : List Char}
    (h : readFraction cs = some (digits, rest)) : rest.length ≤ cs.length := by
  unfold readFraction at h
  split at h
  · have := readDigits_length h
    simp only [List.length_cons]
    omega
  · simp_all

theorem readSign_length (cs : List Char) : (readSign cs).2.length ≤ cs.length := by
  unfold readSign
  split <;> simp

theorem readPower_length {cs rest : List Char} {power : Option Int}
    (h : readPower cs = some (power, rest)) : rest.length ≤ cs.length := by
  unfold readPower at h
  split at h
  case h_3 => simp_all
  all_goals
    obtain ⟨⟨digits, after⟩, hd, h⟩ := Option.map_eq_some_iff.1 h
    have := Nat.lt_of_lt_of_le (readDigits_length hd) (readSign_length _)
    simp only [Prod.mk.injEq] at h
    simp only [List.length_cons, ← h.2]
    omega

theorem readNumber_length {negative : Bool} {cs rest : List Char} {n : Numeral}
    (h : readNumber negative cs = some (n, rest)) : rest.length < cs.length := by
  obtain ⟨⟨whole, cs₁⟩, h₁, h⟩ := Option.bind_eq_some_iff.1 h
  dsimp only at h
  split at h
  · simp at h
  obtain ⟨⟨fraction, cs₂⟩, h₂, h⟩ := Option.bind_eq_some_iff.1 h
  obtain ⟨⟨power, cs₃⟩, h₃, h⟩ := Option.bind_eq_some_iff.1 h
  have : cs₁.length < cs.length := readDigits_length h₁
  have : cs₂.length ≤ cs₁.length := readFraction_length h₂
  have : cs₃.length ≤ cs₂.length := readPower_length h₃
  have hrest : cs₃ = rest := by
    dsimp only at h
    split at h <;> simp_all
  rw [← hrest]
  omega

theorem next?_length {cs rest : List Char} {t : Token} (h : next? cs = some (t, rest)) :
    rest.length < cs.length := by
  unfold next? at h
  split at h
  case h_7 =>
    obtain ⟨⟨parts, after⟩, hp, h⟩ := Option.map_eq_some_iff.1 h
    have := readParts_length hp
    grind
  case h_11 =>
    obtain ⟨⟨n, after⟩, hn, h⟩ := Option.map_eq_some_iff.1 h
    have := readNumber_length hn
    grind
  case h_12 =>
    obtain ⟨⟨n, after⟩, hn, h⟩ := Option.map_eq_some_iff.1 h
    have := readNumber_length hn
    grind
  all_goals
    simp only [Option.some.injEq, Prod.mk.injEq] at h
    simp only [List.length_cons, ← h.2]
    omega

/-! ## The whole text -/

/-- Cuts a text into its tokens; `none` if some part of it is no token. -/
def lex (cs : List Char) : Option (List Token) :=
  match _hcs : cs.dropWhile isBlank with
  | [] => some []
  | c :: cs' =>
    match _hnext : next? (c :: cs') with
    | none => none
    | some (t, rest) => (lex rest).map (t :: ·)
termination_by cs.length
decreasing_by
  have hle := length_dropWhile_le isBlank cs
  rw [_hcs] at hle
  exact Nat.lt_of_lt_of_le (next?_length _hnext) hle

end Token

end Correlator

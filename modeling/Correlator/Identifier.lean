/-!
# Generated identifiers

Identifiers that an engine generates look like random ones, but they are numbered: different
numbers have different identifiers, and the numbers of a block share all but the last group of
digits. Whoever runs an engine on texts of its own starts the numbering at a block that none of the
texts mentions (`unusedBlock`), so that no identifier turns out to be one of them.
-/

namespace Correlator

/-- The last `width` hexadecimal digits of a number. -/
def hexDigits (width n : Nat) : String :=
  String.ofList ((List.range width).reverse.map fun i => Nat.digitChar (n / Nat.pow 16 i % 16))

/-- How many identifiers share all but the last group of digits. -/
def blockSize : Nat := Nat.pow 16 12

/-- What the identifiers of a block begin with: a number spread over the groups of a random
identifier, around the digits for its version and variant. -/
def blockStem (block : Nat) : String :=
  let first := String.ofList ((Nat.toDigits 16 (block / Nat.pow 16 10)).leftpad 8 '0')
  first ++ "-" ++ hexDigits 4 (block / Nat.pow 16 6) ++ "-4" ++
    hexDigits 3 (block / Nat.pow 16 3) ++ "-8" ++ hexDigits 3 block ++ "-"

/-- The identifier with a number. -/
def uuidText (n : Nat) : String := blockStem (n / blockSize) ++ hexDigits 12 n

/-- The first block from `block` on, among the next `fuel` ones, that none of the texts mentions. -/
def unusedBlockFrom (texts : List String) : (fuel block : Nat) → Nat
  | 0, block => block
  | fuel + 1, block =>
    if texts.any (·.contains (blockStem block)) then unusedBlockFrom texts fuel (block + 1)
    else block

/-- The first block that none of the texts mentions. They cannot mention more blocks than they
have characters. -/
def unusedBlock (texts : List String) : Nat :=
  unusedBlockFrom texts (texts.foldl (fun n text => n + text.length) 0) 0

end Correlator

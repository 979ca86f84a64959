import TwinLedger.Data.Hex

/-!
# The parts of a JSON text

Blanks, words, strings and numbers. Every reader gives what it read and what is behind it.

A string whose escapes hold half of a surrogate pair is sound, but it has no text. A number has a
value if it is written in plain digits; of all others it is only known that they are numbers.
-/

namespace TwinLedger.Lexeme

/-- Goes past spaces, tabs and line ends. -/
def skipBlank : List Char → List Char
  | [] => []
  | c :: rest =>
    if c = ' ' ∨ c = '\n' ∨ c = '\t' ∨ c = '\r' then skipBlank rest else c :: rest

/-- Goes past a given word. -/
def skipWord : List Char → List Char → Option (List Char)
  | [], rest => some rest
  | _ :: _, [] => none
  | w :: word, c :: rest => if w = c then skipWord word rest else none

/-- The number of four hexadecimal digits. -/
def hexQuad? (a b c d : Char) : Option Nat := do
  let a ← Hex.value? a
  let b ← Hex.value? b
  let c ← Hex.value? c
  let d ← Hex.value? d
  pure (((16 * a + b) * 16 + c) * 16 + d)

/-- The character of an escape of one letter. -/
def shortEscape? (c : Char) : Option Char :=
  if c = '"' ∨ c = '\\' ∨ c = '/' then some c
  else if c = 'b' then some (Char.ofNat 8)
  else if c = 'f' then some (Char.ofNat 12)
  else if c = 'n' then some '\n'
  else if c = 'r' then some '\r'
  else if c = 't' then some '\t'
  else none

/-- A unit of a string: a character, or half of a surrogate pair. -/
inductive Piece where
  | char (c : Char)
  | high (unit : Nat)
  | low (unit : Nat)

/-- The unit of an escape of four digits. -/
def Piece.ofUnit (n : Nat) : Piece :=
  if 0xd800 ≤ n ∧ n < 0xdc00 then .high n
  else if 0xdc00 ≤ n ∧ n < 0xe000 then .low n
  else .char (Char.ofNat n)

/-- The units of a string behind its opening quote, up to its closing quote, and what is behind
it. -/
def readPieces : List Char → Option (List Piece × List Char)
  | [] => none
  | '"' :: rest => some ([], rest)
  | '\\' :: 'u' :: a :: b :: c :: d :: rest => do
    let n ← hexQuad? a b c d
    let (pieces, back) ← readPieces rest
    pure (Piece.ofUnit n :: pieces, back)
  | '\\' :: e :: rest => do
    let c ← shortEscape? e
    let (pieces, back) ← readPieces rest
    pure (.char c :: pieces, back)
  | c :: rest =>
    if c = '\\' ∨ c.toNat < 32 then none
    else do
      let (pieces, back) ← readPieces rest
      pure (.char c :: pieces, back)

/-- The characters of some units, if every half of a pair meets the other half. -/
def join? : List Piece → Option (List Char)
  | [] => some []
  | .char c :: rest => (join? rest).map (c :: ·)
  | .high h :: .low l :: rest =>
    (join? rest).map (Char.ofNat (0x10000 + (h - 0xd800) * 0x400 + (l - 0xdc00)) :: ·)
  | _ => none

/-- A string behind its opening quote, and what is behind it. -/
def readText (chars : List Char) : Option (Option String × List Char) :=
  (readPieces chars).map fun (pieces, rest) => ((join? pieces).map String.ofList, rest)

/-- The digits in front, and what is behind them. -/
def readDigits (chars : List Char) : List Char × List Char :=
  (chars.takeWhile Char.isDigit, chars.dropWhile Char.isDigit)

/-- The value of decimal digits. -/
def decimal (digits : List Char) : Nat := digits.foldl (fun n c => 10 * n + (c.toNat - 48)) 0

/-- Goes past the part of a number behind its point, if there is one, and says whether there
was. -/
def skipFraction : List Char → Option (Bool × List Char)
  | '.' :: rest =>
    match readDigits rest with
    | ([], _) => none
    | (_, back) => some (true, back)
  | rest => some (false, rest)

/-- Goes past an exponent, if there is one, and says whether there was. -/
def skipExponent : List Char → Option (Bool × List Char)
  | [] => some (false, [])
  | c :: rest =>
    if c = 'e' ∨ c = 'E' then
      let unsigned := match rest with
        | '+' :: digits | '-' :: digits => digits
        | digits => digits
      match readDigits unsigned with
      | ([], _) => none
      | (_, back) => some (true, back)
    else some (false, c :: rest)

/-- A number, which has a value if it is natural and in plain digits, and what is behind it. No
digit may follow a zero in front. -/
def readNumber (chars : List Char) : Option (Option Nat × List Char) := do
  let (negative, unsigned) := match chars with
    | '-' :: rest => (true, rest)
    | rest => (false, rest)
  let (digits, rest) := readDigits unsigned
  if digits.isEmpty || (digits.head? == some '0' && decide (1 < digits.length)) then none
  else
    let (fraction, rest) ← skipFraction rest
    let (exponent, rest) ← skipExponent rest
    pure (if negative || fraction || exponent then none else some (decimal digits), rest)

end TwinLedger.Lexeme

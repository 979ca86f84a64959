import TwinLedger.Json.Lexeme

/-!
# The end of an array of bytes

An array that stands for a string of fixed size holds that many bytes. Behind the last of them one
more byte is tried. The trial has to fail, and it does not matter why: the array ends if its
bracket stands where the trial stopped.

A trial goes through the text as UTF-8, byte by byte, and stops as soon as it knows that it fails,
behind the byte that told it. A value that is sound but no byte is gone through to its end; arrays
and objects are not even entered. Where a trial stops inside a character no bracket can follow.
-/

namespace TwinLedger

open Lexeme

namespace Trial

/-- Goes past a number of bytes; none where that ends inside a character. -/
def pastBytes : Nat → List Char → Option (List Char)
  | 0, rest => some rest
  | _ + 1, [] => none
  | n + 1, c :: rest => if c.utf8Size ≤ n + 1 then pastBytes (n + 1 - c.utf8Size) rest else none

/-- Behind a word, or behind the first byte that differs from it. -/
def afterWord : List Char → List Char → Option (List Char)
  | [], rest => some rest
  | _ :: _, [] => none
  | w :: word, c :: rest => if w = c then afterWord word rest else pastBytes 1 (c :: rest)

/-- Behind a string whose opening quote is gone past, or behind its first fault: a control
character, an escape that is none, or half of a surrogate pair where the other half has to
follow, or where it cannot stand. The first argument says whether the second half of a pair has
to follow. -/
def afterText : Bool → List Char → Option (List Char)
  | _, [] => none
  | pending, '\\' :: 'u' :: a :: b :: c :: d :: rest =>
    match hexQuad? a b c d with
    | none => pastBytes 4 (a :: b :: c :: d :: rest)
    | some n =>
      match pending, Piece.ofUnit n with
      | false, .char _ => afterText false rest
      | false, .high _ => afterText true rest
      | true, .low _ => afterText false rest
      | _, _ => some rest
  | _, '\\' :: 'u' :: rest => pastBytes 4 rest
  | pending, '\\' :: e :: rest =>
    if !pending && (shortEscape? e).isSome then afterText false rest else pastBytes 1 (e :: rest)
  | pending, c :: rest =>
    if pending then pastBytes 1 (c :: rest)
    else if c = '"' ∨ c.toNat < 32 then some rest
    else afterText false rest

/-- The greatest exponent that is still read as a number. -/
def greatestExponent : Nat := 2147483647

/-- Behind the digits of an exponent, or behind the first that makes it too great. -/
def afterGrowing : Nat → List Char → List Char
  | _, [] => []
  | n, c :: rest =>
    if c.isDigit then
      let n := 10 * n + (c.toNat - 48)
      if greatestExponent < n then rest else afterGrowing n rest
    else c :: rest

/-- Behind an exponent, if there is one. It may be of any size if it is negative or the number in
front of it is zero. -/
def afterExponent (isZero : Bool) : List Char → Option (List Char)
  | [] => none
  | c :: rest =>
    if c = 'e' ∨ c = 'E' then
      let (negative, digits) := match rest with
        | '-' :: digits => (true, digits)
        | '+' :: digits => (false, digits)
        | digits => (false, digits)
      match readDigits digits with
      | ([], _) => pastBytes 1 digits
      | (_, back) => some (if negative || isZero then back else afterGrowing 0 digits)
    else some (c :: rest)

/-- Behind a number whose sign is gone past, or behind its first fault. -/
def afterNumber (chars : List Char) : Option (List Char) :=
  match readDigits chars with
  | ([], _) => pastBytes 1 chars
  | ('0' :: second :: digits, rest) => some (second :: digits ++ rest)
  | (digits, '.' :: rest) =>
    match readDigits rest with
    | ([], _) => some rest
    | (fraction, back) => afterExponent ((digits ++ fraction).all (· == '0')) back
  | (digits, rest) => afterExponent (digits.all (· == '0')) rest

/-- Where the trial of a byte stops, if it fails. -/
def stop? : List Char → Option (List Char)
  | [] => none
  | '"' :: rest => afterText false rest
  | 'n' :: rest => afterWord ['u', 'l', 'l'] rest
  | 't' :: rest => afterWord ['r', 'u', 'e'] rest
  | 'f' :: rest => afterWord ['a', 'l', 's', 'e'] rest
  | '-' :: rest => afterNumber rest
  | c :: rest =>
    if c.isDigit then
      match readNumber (c :: rest) with
      | some (some n, back) => if n < 256 then none else some back
      | _ => afterNumber (c :: rest)
    else some (c :: rest)

/-- Goes past a bracket that closes. -/
def closing? (chars : List Char) : Option (List Char) :=
  match skipBlank chars with
  | ']' :: back => some back
  | _ => none

/-- What is behind an array, all of whose bytes have been read. -/
def close? (chars : List Char) : Option (List Char) :=
  match skipBlank chars with
  | ',' :: rest =>
    match skipBlank rest with
    | ']' :: back => some back
    | rest => (stop? rest).bind closing?
  | rest => closing? rest

end Trial

/-- A byte in plain digits, and what is behind it. -/
def readByte (chars : List Char) : Option (UInt8 × List Char) := do
  match ← readNumber (skipBlank chars) with
  | (some n, rest) => if n < 256 then some (UInt8.ofNat n, rest) else none
  | (none, _) => none

/-- Goes past a comma. -/
def skipComma? (chars : List Char) : Option (List Char) :=
  match skipBlank chars with
  | ',' :: rest => some rest
  | _ => none

/-- An array of a given number of bytes whose opening bracket is gone past, and what is behind
it. -/
def readBytes : Nat → List Char → Option (Bytes × List Char)
  | 0, chars => (Trial.close? chars).map ([], ·)
  | n + 1, chars => do
    let (b, rest) ← readByte chars
    let (bytes, back) ← readBytes n (← if n = 0 then some rest else skipComma? rest)
    pure (b :: bytes, back)

end TwinLedger

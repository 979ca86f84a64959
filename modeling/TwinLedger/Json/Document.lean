import TwinLedger.Json.Shape
import TwinLedger.Json.Trial

/-!
# Reading JSON text

A document keeps what the forms of the ledger need: natural numbers written as plain digits have
their value, all others are only known to be numbers, and a string whose escapes hold half of a
surrogate pair has no text. Such strings and numbers of any size are sound JSON as long as no
form asks for them.

Reading is by descent, and the shape goes down with it. The grammar has no depth limit, and the
length of the text bounds the descent.
-/

namespace TwinLedger

open Lexeme

/-- A JSON text that has been read. -/
inductive Document where
  | null
  | bool (b : Bool)
  | natural (n : Nat)
  | otherNumber
  /-- A string; it has no text where an escape names no character. -/
  | text (s : Option String)
  /-- An array that was read as a string of fixed size. -/
  | bytes (b : Bytes)
  | array (items : List Document)
  | object (members : List (Option String × Document))

namespace Document

/-- A number as a document. -/
def ofNumber : Option Nat → Document
  | some n => .natural n
  | none => .otherNumber

mutual

/-- A value, and what is behind it. -/
def readValue : Nat → Shape → List Char → Option (Document × List Char)
  | 0, _, _ => none
  | fuel + 1, shape, chars =>
    match skipBlank chars with
    | [] => none
    | '"' :: rest => (readText rest).map fun (s, back) => (.text s, back)
    | '[' :: rest =>
      match shape with
      | .bytes size => (readBytes size rest).map fun (b, back) => (.bytes b, back)
      | shape =>
        match skipBlank rest with
        | ']' :: back => some (.array [], back)
        | rest => (readItems fuel shape rest).map fun (items, back) => (.array items, back)
    | '\x7b' :: rest =>
      match skipBlank rest with
      | '\x7d' :: back => some (.object [], back)
      | rest =>
        (readMembers fuel shape rest).map fun (members, back) => (.object members, back)
    | 'n' :: rest => (skipWord ['u', 'l', 'l'] rest).map (.null, ·)
    | 't' :: rest => (skipWord ['r', 'u', 'e'] rest).map (.bool true, ·)
    | 'f' :: rest => (skipWord ['a', 'l', 's', 'e'] rest).map (.bool false, ·)
    | rest => (readNumber rest).map fun (n, back) => (.ofNumber n, back)

/-- The items of an array up to its closing bracket, at least one. -/
def readItems : Nat → Shape → List Char → Option (List Document × List Char)
  | 0, _, _ => none
  | fuel + 1, shape, chars => do
    let (item, rest) ← readValue fuel shape.first chars
    match skipBlank rest with
    | ',' :: rest => do
      let (items, back) ← readItems fuel shape.others rest
      pure (item :: items, back)
    | ']' :: back => some ([item], back)
    | _ => none

/-- The members of an object up to its closing brace, at least one. -/
def readMembers :
    Nat → Shape → List Char → Option (List (Option String × Document) × List Char)
  | 0, _, _ => none
  | fuel + 1, shape, chars =>
    match skipBlank chars with
    | '"' :: rest => do
      let (key, rest) ← readText rest
      match skipBlank rest with
      | ':' :: rest => do
        let (value, rest) ← readValue fuel (shape.member key) rest
        match skipBlank rest with
        | ',' :: rest => do
          let (members, back) ← readMembers fuel shape rest
          pure ((key, value) :: members, back)
        | '\x7d' :: back => some ([(key, value)], back)
        | _ => none
      | _ => none
    | _ => none

end

/-- Reads a text that is one JSON value, expected to be of a shape, and blanks around it. -/
def parse? (shape : Shape) (s : String) : Option Document := do
  let chars := s.toList
  let (document, rest) ← readValue (2 * chars.length + 2) shape chars
  if (skipBlank rest).isEmpty then some document else none

end Document

end TwinLedger

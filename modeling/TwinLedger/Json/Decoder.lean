import TwinLedger.Json.Document

/-!
# From documents to values

Decoders for words, bytes, options, lists, records and choices. A decoder knows the shape of its
documents, so it also says how their texts are read.

* Numbers are plain digits in range. A 256-bit number may also be text: decimal, or behind `0x`,
  `0o` or `0b` in that base, where underscores do not count and no digits at all are zero.
* Bytes are hexadecimal text or an array of numbers. Where their number is fixed, such an array
  may end as `Trial` says.
* A record is an object, in which unknown members are passed over and known ones stand once, or
  an array of its fields in order.
* A choice is its name, or an object with the name as its only member.
-/

namespace TwinLedger

/-- Takes a value from a document, if the document has the right form. -/
structure Decoder (α : Type) where
  /-- What a text has to be read as. -/
  shape : Shape := .any
  decode? : Document → Option α

namespace Decoder

/-- The value that a text stands for. -/
def parse? {α : Type} (decoder : Decoder α) (s : String) : Option α :=
  (Document.parse? decoder.shape s).bind decoder.decode?

instance : Functor Decoder where
  map f decoder := { decoder with decode? := fun d => (decoder.decode? d).map f }

/-- A decoder of what has a meaning. -/
def filterMap {α β : Type} (f : α → Option β) (decoder : Decoder α) : Decoder β :=
  { decoder with decode? := fun d => (decoder.decode? d).bind f }

/-! ## Numbers and text -/

def natural : Decoder Nat where
  decode?
    | .natural n => some n
    | _ => none

def bool : Decoder Bool where
  decode?
    | .bool b => some b
    | _ => none

def text : Decoder String where
  decode?
    | .text s => s
    | _ => none

def u64 : Decoder U64 := natural.filterMap Word.ofNat?

/-- The value of digits in a base of at most sixteen, behind those already read. -/
def digits (base : Nat) : Nat → List Char → Option Nat
  | n, [] => some n
  | n, c :: rest =>
    if c = '_' then digits base n rest
    else
      match Hex.value? c with
      | some d => if d < base then digits base (base * n + d) rest else none
      | none => none

/-- A number in the base that its first two characters name. -/
def numeral : List Char → Option Nat
  | '0' :: 'x' :: rest | '0' :: 'X' :: rest => digits 16 0 rest
  | '0' :: 'o' :: rest | '0' :: 'O' :: rest => digits 8 0 rest
  | '0' :: 'b' :: rest | '0' :: 'B' :: rest => digits 2 0 rest
  | rest => digits 10 0 rest

def u256 : Decoder U256 where
  decode?
    | .natural n => (Word.ofNat? n : Option U64).map Word.widen
    | .text (some s) => (numeral s.toList).bind Word.ofNat?
    | _ => none

/-! ## Bytes -/

def byte : Decoder UInt8 :=
  natural.filterMap fun n => if n < 256 then some (UInt8.ofNat n) else none

def bytes : Decoder Bytes where
  decode?
    | .text (some s) => Hex.ofString? s
    | .array items => items.mapM byte.decode?
    | _ => none

/-- A string of fixed size. -/
def fixed (size : Nat) : Decoder (FixedBytes size) where
  shape := .bytes size
  decode?
    | .text (some s) => (Hex.ofString? s).bind FixedBytes.ofBytes?
    | .bytes b => FixedBytes.ofBytes? b
    | _ => none

/-! ## Options and lists -/

variable {α : Type}

def option (decoder : Decoder α) : Decoder (Option α) where
  shape := decoder.shape
  decode?
    | .null => some none
    | d => (decoder.decode? d).map some

def list (decoder : Decoder α) : Decoder (List α) where
  shape := .list decoder.shape
  decode?
    | .array items => items.mapM decoder.decode?
    | _ => none

end Decoder

/-! ## Records -/

/-- Takes a value from the fields of a record, which are found by their names. -/
structure Fields (α : Type) where
  shapes : List (String × Shape)
  decode? : (String → Option Document) → Option α

namespace Fields

instance : Applicative Fields where
  pure a := ⟨[], fun _ => some a⟩
  seq f a :=
    ⟨f.shapes ++ (a ()).shapes, fun find => do
      let g ← f.decode? find
      let x ← (a ()).decode? find
      pure (g x)⟩

/-- A field that must be there. -/
def required {α : Type} (name : String) (decoder : Decoder α) : Fields α :=
  ⟨[(name, decoder.shape)], fun find => (find name).bind decoder.decode?⟩

/-- A field that may be absent or null. -/
def optional {α : Type} (name : String) (decoder : Decoder α) : Fields (Option α) :=
  ⟨[(name, decoder.shape)], fun find =>
    match find name with
    | none => some none
    | some d => decoder.option.decode? d⟩

def names {α : Type} (fields : Fields α) : List String := fields.shapes.map (·.1)

end Fields

namespace Decoder

variable {α : Type}

/-- How the fields of a record are found by their names. No name stands twice among the members
of an object, and every key has a text. The items of an array are at least so many as said, and
none is without a name. -/
def lookup? (names : List String) (least : Nat) : Document → Option (String → Option Document)
  | .object members =>
    if members.any (·.1.isNone) || names.any fun name =>
        decide (1 < members.countP (·.1 == some name)) then none
    else some fun name => (members.find? (·.1 == some name)).map (·.2)
  | .array items =>
    if least ≤ items.length ∧ items.length ≤ names.length then
      some fun name => (names.zip items).lookup name
    else none
  | _ => none

/-- A record that an array may leave before its end, once it has the least number of fields. -/
def recordFrom (least : Nat) (fields : Fields α) : Decoder α where
  shape := .record fields.shapes
  decode? d := (lookup? fields.names least d).bind fields.decode?

/-- A record none of whose fields an array leaves out. -/
def record (fields : Fields α) : Decoder α := recordFrom fields.names.length fields

/-! ## Choices -/

/-- A choice between names with nothing else to them. -/
def named (values : List (String × α)) : Decoder α where
  decode?
    | .text (some name) | .object [(some name, .null)] => values.lookup name
    | _ => none

/-- A choice between names, each of which comes with a value. -/
def tagged (cases : List (String × Decoder α)) : Decoder α where
  shape := .record (cases.map fun c => (c.1, c.2.shape))
  decode?
    | .object [(some name, d)] => (cases.lookup name).bind (·.decode? d)
    | _ => none

end Decoder

end TwinLedger

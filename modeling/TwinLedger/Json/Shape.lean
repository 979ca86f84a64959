/-!
# Shapes

What a reader has to know about a text before it reads it. Nearly every JSON text reads the same
whatever it stands for. Only an array that stands for a string of fixed size is read by a rule of
its own, so a shape says where such strings are, and on the way to them which lists and records.
-/

namespace TwinLedger

/-- What a text is expected to be. A text that is something else reads as if nothing were
expected. -/
inductive Shape where
  | any
  /-- A string of a fixed number of bytes. -/
  | bytes (size : Nat)
  | list (item : Shape)
  /-- An object with these members, or an array of them. -/
  | record (fields : List (String × Shape))

namespace Shape

/-- The shape of the first item of an array. -/
def first : Shape → Shape
  | .list item => item
  | .record (field :: _) => field.2
  | _ => .any

/-- The shape of an array of the items behind the first. -/
def others : Shape → Shape
  | .record (_ :: fields) => .record fields
  | shape => shape

/-- The shape of a member. A key without a text names none. -/
def member (shape : Shape) (key : Option String) : Shape :=
  match shape with
  | .record fields =>
    match fields.find? fun field => key == some field.1 with
    | some field => field.2
    | none => .any
  | _ => .any

end Shape

end TwinLedger

import TwinLedger.Data.Hex

/-!
# JSON values and their text

The values that the ledger writes: numbers are natural, and the members of an object keep their
order. A value has two texts: a compact one without any blanks, and an indented one with two
spaces for each level.
-/

namespace TwinLedger

/-- A JSON value to be written. -/
inductive Json where
  | null
  | bool (b : Bool)
  | natural (n : Nat)
  | string (s : String)
  | array (items : List Json)
  | object (members : List (String × Json))

namespace Json

/-- Four hexadecimal digits of a character below a space. -/
def controlEscape (c : Char) : String :=
  "\\u00" ++ String.ofList (Hex.digits [UInt8.ofNat c.toNat])

/-- A character as it stands inside quotes. -/
def escape (c : Char) : String :=
  if c = '"' then "\\\""
  else if c = '\\' then "\\\\"
  else if c = '\n' then "\\n"
  else if c = '\r' then "\\r"
  else if c = '\t' then "\\t"
  else if c.toNat = 8 then "\\b"
  else if c.toNat = 12 then "\\f"
  else if c.toNat < 32 then controlEscape c
  else String.singleton c

/-- A string in quotes. -/
def quote (s : String) : String :=
  s.toList.foldl (fun text c => text ++ escape c) "\"" ++ "\""

mutual

/-- The text without blanks. -/
def compact : Json → String
  | .null => "null"
  | .bool b => if b then "true" else "false"
  | .natural n => toString n
  | .string s => quote s
  | .array items => "[" ++ compactItems true items ++ "]"
  | .object members => "\x7b" ++ compactMembers true members ++ "\x7d"

/-- The texts of some items; all but the first have a comma in front. -/
def compactItems : Bool → List Json → String
  | _, [] => ""
  | first, item :: rest =>
    (if first then "" else ",") ++ compact item ++ compactItems false rest

/-- The texts of some members; all but the first have a comma in front. -/
def compactMembers : Bool → List (String × Json) → String
  | _, [] => ""
  | first, (key, value) :: rest =>
    (if first then "" else ",") ++ quote key ++ ":" ++ compact value ++ compactMembers false rest

end

/-- A new line at the given level. -/
def newLine (level : Nat) : String := "\n" ++ String.ofList (List.replicate (2 * level) ' ')

mutual

/-- The indented text of a value that starts at the given level. -/
def indented (level : Nat) : Json → String
  | .null => "null"
  | .bool b => if b then "true" else "false"
  | .natural n => toString n
  | .string s => quote s
  | .array [] => "[]"
  | .array (item :: rest) =>
    "[" ++ newLine (level + 1) ++ indented (level + 1) item ++
      indentedItems (level + 1) rest ++ newLine level ++ "]"
  | .object [] => "\x7b\x7d"
  | .object ((key, value) :: rest) =>
    "\x7b" ++ newLine (level + 1) ++ quote key ++ ": " ++ indented (level + 1) value ++
      indentedMembers (level + 1) rest ++ newLine level ++ "\x7d"

/-- The items behind the first. -/
def indentedItems (level : Nat) : List Json → String
  | [] => ""
  | item :: rest => "," ++ newLine level ++ indented level item ++ indentedItems level rest

/-- The members behind the first. -/
def indentedMembers (level : Nat) : List (String × Json) → String
  | [] => ""
  | (key, value) :: rest =>
    "," ++ newLine level ++ quote key ++ ": " ++ indented level value ++
      indentedMembers level rest

end

/-- The text with two spaces for each level and no line end behind it. -/
def pretty (j : Json) : String := indented 0 j

end Json

end TwinLedger

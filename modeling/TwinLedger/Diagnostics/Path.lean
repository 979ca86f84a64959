/-!
# Paths

Paths are text. Joining puts one slash between two parts unless the first is empty or has one at
its end, and a second part that starts with a slash stands for itself. What a path names is found
part by part: an empty part and `.` stay where they are, `..` goes up, and any other goes down to
what has this name.
-/

namespace TwinLedger.Path

/-- The path of `part` seen from `path`. -/
def join (path part : String) : String :=
  if part.toList.head? = some '/' then part
  else if path.isEmpty || path.toList.getLast? = some '/' then path ++ part
  else path ++ "/" ++ part

/-- The parts of a text between slashes. -/
def parts : List Char → List (List Char)
  | [] => [[]]
  | c :: rest =>
    if c = '/' then [] :: parts rest
    else
      match parts rest with
      | [] => [[c]]
      | p :: ps => (c :: p) :: ps

/-- The place that a part leads to. A place is known by the names on the way to it. -/
def step (place : List String) : List Char → List String
  | [] | ['.'] => place
  | ['.', '.'] => place.dropLast
  | name => place ++ [String.ofList name]

/-- The places that some parts lead to, one after the other. -/
def placesFrom (place : List String) : List (List Char) → List (List String)
  | [] => []
  | p :: rest => step place p :: placesFrom (step place p) rest

/-- The places that a path passes, the one that it names at the end. -/
def places (path : String) : List (List String) := placesFrom [] (parts path.toList)

/-- The names on the way to what a path names. -/
def components (path : String) : List String := (parts path.toList).foldl step []

/-- The most bytes that a name may have. -/
def nameLimit : Nat := 255

/-- The most bytes that a path may have. -/
def limit : Nat := 4095

/-- Whether something may have this path: it is not too long, nor is a part of it, and it holds
no zero character. -/
def isSound (path : String) : Bool :=
  decide (path.utf8ByteSize ≤ limit) && path.toList.all (·.toNat != 0) &&
    (parts path.toList).all fun p => decide ((String.ofList p).utf8ByteSize ≤ nameLimit)

end TwinLedger.Path

import TwinLedger.Diagnostics.Path

/-!
# Disks

A disk holds texts and directories, each at the components of its path. A directory is there as
soon as something in it is. Nothing is made under a path that is not sound or that passes a text,
and a text is not made where a directory stands.
-/

namespace TwinLedger

/-- Texts in the order of their making, and directories. -/
structure Disk where
  files : List (List String × String) := []
  directories : List (List String) := []
  deriving DecidableEq

namespace Disk

/-- Whether the components lead to a directory. -/
def isDirectory (d : Disk) (names : List String) : Bool :=
  d.directories.any names.isPrefixOf

/-- Whether a text stands in one of some places. -/
def isBlocked (d : Disk) (places : List (List String)) : Bool :=
  d.files.any fun f => places.contains f.1

/-- Makes a directory with all on the way to it. -/
def makeDirectory? (d : Disk) (path : String) : Option Disk :=
  let places := Path.places path
  if !Path.isSound path || d.isBlocked places then none
  else some { d with directories := d.directories ++ places }

/-- Makes a text, in the place of one that is there. -/
def makeFile? (d : Disk) (path text : String) : Option Disk :=
  let names := Path.components path
  if !Path.isSound path || d.isBlocked (Path.places path).dropLast || d.isDirectory names then none
  else some { d with files := d.files.filter (·.1 != names) ++ [(names, text)] }

/-- The texts under a directory, each with its path from there. -/
def filesUnder (d : Disk) (home : String) : List (String × String) :=
  let names := Path.components home
  d.files.filterMap fun f =>
    if names.isPrefixOf f.1 then some ("/".intercalate (f.1.drop names.length), f.2) else none

end Disk

end TwinLedger

import ChipEight.Machine.Rom

/-!
# Opening files in a folder

A folder holds files and nothing else. A path is followed name by name from it: a dot
stays where it is, two dots lead out of the folder to where nothing else is known, and
a name behind a file leads nowhere. Opening succeeds for a file and for a folder; it
is reading the folder that fails.
-/

namespace ChipEight.Session

/-- Files by their names. -/
structure Folder where
  files : List (String × Array UInt8)

/-- Where a path has led so far. -/
inductive Place where
  | inside
  /-- Some folder around it. -/
  | outside
  | file (bytes : Array UInt8)

namespace Folder

def nameLimit : Nat := 255

/-- The fewest bytes that are too many for a path. -/
def pathLimit : Nat := 4096

def enter (folder : Folder) (place : Place) (name : String) : Except FileProblem Place :=
  match place with
  | .file _ => .error .notDirectory
  | .inside | .outside =>
    if name = "" ∨ name = "." then .ok place
    else if name = ".." then .ok .outside
    else if nameLimit < name.utf8ByteSize then .error .nameTooLong
    else
      match place, folder.files.lookup name with
      | .inside, some bytes => .ok (.file bytes)
      | _, _ => .error .noSuchFile

def openPath (folder : Folder) (path : String) : Except FileProblem RomSource :=
  if path.contains '\x00' then .error .zeroByteInName
  else if path = "" then .error .noSuchFile
  else if pathLimit ≤ path.utf8ByteSize then .error .nameTooLong
  else
    let beginning := if path.startsWith "/" then Place.outside else Place.inside
    match (path.splitOn "/").foldlM folder.enter beginning with
    | .error problem => .error problem
    | .ok (.file bytes) => .ok (.complete bytes)
    | .ok _ => .ok (.broken #[] .isDirectory)

end Folder

end ChipEight.Session

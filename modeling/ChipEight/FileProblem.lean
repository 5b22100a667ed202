/-!
# File problems

Why a file could not be opened or read.
-/

namespace ChipEight

/-- A reason for which a file cannot be opened or read. -/
inductive FileProblem where
  | noSuchFile
  | notDirectory
  | isDirectory
  | nameTooLong
  | zeroByteInName
  | other (description : String)
  deriving DecidableEq, Repr

/-- The reason in words, with the system's number for it where it has one. -/
def FileProblem.message : FileProblem → String
  | .noSuchFile => "No such file or directory (os error 2)"
  | .notDirectory => "Not a directory (os error 20)"
  | .isDirectory => "Is a directory (os error 21)"
  | .nameTooLong => "File name too long (os error 36)"
  | .zeroByteInName => "file name contained an unexpected NUL byte"
  | .other description => description

end ChipEight

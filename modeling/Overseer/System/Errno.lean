/-!
# Faults of the file system
-/

namespace Overseer

/-- The error numbers that file operations answer with. -/
inductive Errno where
  | noEntry
  | busy
  | alreadyThere
  | notDirectory
  | isDirectory
  | invalid
  | nameTooLong
  | notEmpty
  | tooManyLinks
deriving DecidableEq, Repr

namespace Errno

def number : Errno → Nat
  | noEntry => 2
  | busy => 16
  | alreadyThere => 17
  | notDirectory => 20
  | isDirectory => 21
  | invalid => 22
  | nameTooLong => 36
  | notEmpty => 39
  | tooManyLinks => 40

def text : Errno → String
  | noEntry => "No such file or directory"
  | busy => "Device or resource busy"
  | alreadyThere => "File exists"
  | notDirectory => "Not a directory"
  | isDirectory => "Is a directory"
  | invalid => "Invalid argument"
  | nameTooLong => "File name too long"
  | notEmpty => "Directory not empty"
  | tooManyLinks => "Too many levels of symbolic links"

end Errno

/-- Why a file operation failed. -/
inductive FileFault where
  | os (e : Errno)
  /-- A path holds a character that no file name can hold. -/
  | nul
  | emptyPath
  /-- A file that was to be text is none. -/
  | notText
deriving DecidableEq, Repr

namespace FileFault

def message : FileFault → String
  | os e => e.text ++ " (os error " ++ toString e.number ++ ")"
  | nul => "file name contained an unexpected NUL byte"
  | emptyPath => "cannot make an empty path absolute"
  | notText => "stream did not contain valid UTF-8"

end FileFault

end Overseer

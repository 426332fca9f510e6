/-!
# Faults of the file system

Why an operation on files or programs fails, in the words of the operating system, with the number
that it gives to the reason where it has one.
-/

namespace ClientRegen

/-- Why an operation on files or programs fails. -/
inductive FileFault where
  /-- An entry does not exist. -/
  | notFound
  /-- The program file has no format that can be run. -/
  | notRunnable
  /-- The program or its interpreter may not be run. -/
  | permissionDenied
  /-- An entry exists already. -/
  | alreadyExists
  /-- A directory is needed where something else is. -/
  | notDirectory
  /-- A directory is where something else is needed. -/
  | isDirectory
  /-- A directory that has to be empty is not. -/
  | notEmpty
  /-- A name or a path is too long. -/
  | nameTooLong
  /-- Links lead to one another without end. -/
  | tooManyLinks
  /-- A path holds a NUL character. -/
  | nulInPath
  /-- An argument of a program holds a NUL character. -/
  | nulInArgument
  /-- The bytes of a file are not UTF-8. -/
  | notText
  /-- What is to be copied is no regular file. -/
  | notRegular
deriving DecidableEq, Repr

namespace FileFault

/-- The reason in words. -/
def reason : FileFault → String
  | notFound => "No such file or directory"
  | notRunnable => "Exec format error"
  | permissionDenied => "Permission denied"
  | alreadyExists => "File exists"
  | notDirectory => "Not a directory"
  | isDirectory => "Is a directory"
  | notEmpty => "Directory not empty"
  | nameTooLong => "File name too long"
  | tooManyLinks => "Too many levels of symbolic links"
  | nulInPath => "file name contained an unexpected NUL byte"
  | nulInArgument => "nul byte found in provided data"
  | notText => "stream did not contain valid UTF-8"
  | notRegular => "the source path is neither a regular file nor a symlink to a regular file"

/-- The operating system's number of the reason. -/
def number? : FileFault → Option Nat
  | notFound => some 2
  | notRunnable => some 8
  | permissionDenied => some 13
  | alreadyExists => some 17
  | notDirectory => some 20
  | isDirectory => some 21
  | notEmpty => some 39
  | nameTooLong => some 36
  | tooManyLinks => some 40
  | nulInPath => none
  | nulInArgument => none
  | notText => none
  | notRegular => none

/-- The text of a fault. -/
def message (f : FileFault) : String :=
  match f.number? with
  | some n => f.reason ++ " (os error " ++ toString n ++ ")"
  | none => f.reason

end FileFault
end ClientRegen

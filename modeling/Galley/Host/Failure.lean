/-!
# Failures of the host

The host has a wording and, for most failures, a number, which its messages give too.
-/
namespace Galley.Host

/-- Why the host could not do what it was asked for. -/
inductive Failure where
  | notFound
  | permissionDenied
  | alreadyExists
  | notDirectory
  | isDirectory
  | notEmpty
  | nameTooLong
  /-- The bytes of a file are no text. -/
  | invalidText
  /-- An empty path has no place that it could be seen from. -/
  | emptyPath
  /-- A path holds the character that ends names. -/
  | zeroInPath
  /-- A word of a command holds that character. -/
  | zeroInWord
  | other (text : String)
deriving DecidableEq, Repr

namespace Failure

def text : Failure → String
  | .notFound => "No such file or directory"
  | .permissionDenied => "Permission denied"
  | .alreadyExists => "File exists"
  | .notDirectory => "Not a directory"
  | .isDirectory => "Is a directory"
  | .notEmpty => "Directory not empty"
  | .nameTooLong => "File name too long"
  | .invalidText => "stream did not contain valid UTF-8"
  | .emptyPath => "cannot make an empty path absolute"
  | .zeroInPath => "file name contained an unexpected NUL byte"
  | .zeroInWord => "nul byte found in provided data"
  | .other text => text

def number? : Failure → Option Nat
  | .notFound => some 2
  | .permissionDenied => some 13
  | .alreadyExists => some 17
  | .notDirectory => some 20
  | .isDirectory => some 21
  | .nameTooLong => some 36
  | .notEmpty => some 39
  | _ => none

def message (failure : Failure) : String :=
  match failure.number? with
  | some number => failure.text ++ " (os error " ++ toString number ++ ")"
  | none => failure.text

end Failure
end Galley.Host

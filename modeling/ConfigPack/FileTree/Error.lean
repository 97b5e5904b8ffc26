import ConfigPack.Text.Quoted

/-!
# File errors

The causes for which a file operation is refused, and their words.
-/

namespace ConfigPack

/-- Why a file operation was refused. -/
inductive IoError where
  | notFound
  | busy
  | exists
  | notDirectory
  | isDirectory
  | invalidArgument
  | nameTooLong
  | linkLoop
  | notText
  | nulInName
  /-- All names that were tried for a file in between are taken. -/
  | tooManyTemporaries
  /-- Another cause, in the words of the system. -/
  | other (words : String)
  /-- An error with the path at which it came up. -/
  | atPath (path : String) (error : IoError)
deriving DecidableEq, Repr

/-- The words for a file error. -/
def IoError.message : IoError → String
  | notFound => "No such file or directory (os error 2)"
  | busy => "Device or resource busy (os error 16)"
  | .exists => "File exists (os error 17)"
  | notDirectory => "Not a directory (os error 20)"
  | isDirectory => "Is a directory (os error 21)"
  | invalidArgument => "Invalid argument (os error 22)"
  | nameTooLong => "File name too long (os error 36)"
  | linkLoop => "Too many levels of symbolic links (os error 40)"
  | notText => "stream did not contain valid UTF-8"
  | nulInName => "file name contained an unexpected NUL byte"
  | tooManyTemporaries => "too many temporary files exist"
  | other words => words
  | atPath path error => s!"{error.message} at path {Text.quotedPath path}"

end ConfigPack

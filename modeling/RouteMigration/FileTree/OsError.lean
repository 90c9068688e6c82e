/-! What the file system answers when it refuses. -/

namespace RouteMigration

inductive OsError where
  | notFound
  | alreadyExists
  | notDirectory
  | isDirectory
  | nameTooLong
  | noSpace
  /-- A device has no content that could be set. A write to it goes through all the same. -/
  | noContent
  /-- The path holds a NUL, so the system never gets to see it. -/
  | nulInPath
  /-- The content of the file is no text. -/
  | notText
  deriving DecidableEq, Repr

def OsError.message : OsError → String
  | notFound => "No such file or directory (os error 2)"
  | alreadyExists => "File exists (os error 17)"
  | notDirectory => "Not a directory (os error 20)"
  | isDirectory => "Is a directory (os error 21)"
  | nameTooLong => "File name too long (os error 36)"
  | noSpace => "No space left on device (os error 28)"
  | noContent => "Invalid argument (os error 22)"
  | nulInPath => "file name contained an unexpected NUL byte"
  | notText => "stream did not contain valid UTF-8"

end RouteMigration

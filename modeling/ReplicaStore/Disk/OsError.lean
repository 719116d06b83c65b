/-! # Errors of the operating system

    What a call to the operating system can refuse, with the system's own wording. -/

namespace ReplicaStore

/-- Why a call to the operating system failed. -/
inductive OsError where
  /-- A name on the way is missing. -/
  | notFound
  /-- What is to be made is there. -/
  | alreadyExists
  /-- A name on the way is no directory. -/
  | notDirectory
  /-- A directory stands where a file is needed. -/
  | isDirectory
  /-- A name is longer than a disk can hold. -/
  | nameTooLong
  /-- The path holds a character that ends it. -/
  | nulInPath
  /-- A file that is read as text is none. -/
  | notText
  /-- Another failure, in the words of who reports it. -/
  | other (text : String)
deriving DecidableEq, Repr

def OsError.message : OsError → String
  | .notFound => "No such file or directory (os error 2)"
  | .alreadyExists => "File exists (os error 17)"
  | .notDirectory => "Not a directory (os error 20)"
  | .isDirectory => "Is a directory (os error 21)"
  | .nameTooLong => "File name too long (os error 36)"
  | .nulInPath => "file name contained an unexpected NUL byte"
  | .notText => "stream did not contain valid UTF-8"
  | .other text => text

end ReplicaStore

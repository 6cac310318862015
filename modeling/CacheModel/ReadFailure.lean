/-!
# Failures to read a file
-/

namespace CacheModel

/-- Why the bytes of a file, or the text in them, cannot be had. -/
inductive ReadFailure where
  | absent
  | directory
  /-- The path leads through a file. -/
  | notDirectory
  /-- The bytes are not the encoding of a text. -/
  | notText
  | other (reason : String)
  deriving Repr, DecidableEq

/-- The wording of a failure. -/
def ReadFailure.message : ReadFailure → String
  | absent => "No such file or directory (os error 2)"
  | directory => "Is a directory (os error 21)"
  | notDirectory => "Not a directory (os error 20)"
  | notText => "stream did not contain valid UTF-8"
  | other reason => reason

end CacheModel

import CacheModel.CommandLine

/-!
# The executable

Reads files and the standard input, and writes what a run returns.
-/

namespace CacheModel.Main

/-- Everything that a stream still holds. -/
partial def readAll (stream : IO.FS.Stream) (sofar : ByteArray) : IO ByteArray := do
  let chunk ← stream.read 65536
  if chunk.isEmpty then return sofar else readAll stream (sofar ++ chunk)

/-- The failure that an error of the system stands for. -/
def failure : IO.Error → ReadFailure
  | .noFileOrDirectory .. => .absent
  | .inappropriateType _ code _ => if code == 20 then .notDirectory else .directory
  | error => .other (toString error)

/-- Files of the system. -/
def files : CommandLine.Files IO where
  read name := do
    try
      return .ok (← IO.FS.readBinFile name)
    catch error =>
      return .error (failure error)
  standardInput := do
    try
      return .ok (← readAll (← IO.getStdin) .empty)
    catch error =>
      return .error (failure error)

end CacheModel.Main

/-- Runs the program and ends with its status. -/
def main (arguments : List String) : IO UInt32 := do
  let files := CacheModel.Main.files
  match ← CacheModel.CommandLine.run files (← IO.getEnv "RUST_LOG") arguments with
  | .finished output =>
    IO.eprint output.log
    IO.print output.out
    return output.status.toUInt32
  | .stopped log =>
    IO.eprint log
    throw (IO.userError "capacity overflow")

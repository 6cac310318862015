import CacheModel.ReadFailure
import CacheModel.Trace.Line

/-!
# Traces

A trace is a stream of bytes that is read line by line, lines being ended by a line feed.  Each
line is first checked to be text and then read; the first line with a problem decides, and lines
are counted from one, those that name nothing included.  A carriage return at the end of a line is
a blank like any other.
-/

namespace CacheModel

/-- Why a trace is refused. -/
inductive TraceError where
  | unreadable (failure : ReadFailure)
  | badLine (number : Nat) (error : Trace.LineError)
  deriving Repr, DecidableEq

/-- The sentence shown for a refused trace. -/
def TraceError.message : TraceError → String
  | unreadable failure => "cannot read trace: " ++ failure.message
  | badLine number error => s!"trace line {number}: " ++ error.message

namespace Trace

/-- The byte that ends a line. -/
def lineFeed : UInt8 := 10

/-- Reads one line, given as bytes with its number. -/
def readLine : List UInt8 × Nat → Except TraceError (Option Access)
  | (bytes, number) =>
    match String.fromUTF8? (ByteArray.mk bytes.toArray) with
    | none => .error (.unreadable .notText)
    | some line =>
      match ofLine line with
      | .ok access => .ok access
      | .error error => .error (.badLine number error)

/-- Reads the references of a trace, in order. -/
def read (bytes : List UInt8) : Except TraceError (List Access) :=
  (((Text.splitBy (· == lineFeed) bytes).zipIdx 1).mapM readLine).map (·.filterMap id)

/-- Reads the references of a trace that may itself be unreadable. -/
def readFrom : Except ReadFailure ByteArray → Except TraceError (List Access)
  | .error failure => .error (.unreadable failure)
  | .ok bytes => read bytes.data.toList

end Trace

end CacheModel

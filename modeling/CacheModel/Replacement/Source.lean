/-!
# Draws for random replacement

Random replacement takes its draws from a source of words of 32 bits.  The usual source is a
shift register with feedback, so that runs can be repeated; any fixed stream of draws will do as
well, and then the draws already taken are counted.
-/

namespace CacheModel

/-- A shift register of 32 bits that feeds its lowest bit back into several places. -/
structure Lfsr where
  reg : UInt32
  deriving Repr, DecidableEq

namespace Lfsr

/-- The bits that the lowest bit is fed back into. -/
def taps : UInt32 := 0xd0000001

/-- The register started with `seed`.  Zero would never change, so it is taken as one. -/
def ofSeed (seed : UInt32) : Lfsr :=
  { reg := if seed = 0 then 1 else seed }

/-- The usual register is started with one. -/
instance : Inhabited Lfsr := ⟨ofSeed 1⟩

/-- The register after one step: shifted down by one, with the taps turned when the bit that fell
out was set. -/
def advance (g : Lfsr) : Lfsr :=
  { reg := (g.reg >>> 1) ^^^ ((0 - (g.reg &&& 1)) &&& taps) }

/-- The draws of `n` steps, in order. -/
def draws : Nat → Lfsr → List UInt32
  | 0, _ => []
  | n + 1, g => g.advance.reg :: draws n g.advance

@[simp] theorem length_draws (n : Nat) (g : Lfsr) : (draws n g).length = n := by
  induction n generalizing g with
  | zero => rfl
  | succ n ih => simp [draws, ih]

end Lfsr

/-- Where draws come from. -/
inductive Source where
  | register (state : Lfsr)
  /-- A fixed stream of draws, of which the first `taken` are spent. -/
  | stream (draw : Nat → UInt32) (taken : Nat)

namespace Source

/-- The usual source is a shift register. -/
instance : Inhabited Source := ⟨register default⟩

/-- The stream that repeats the given draws for ever; without draws it is zero throughout. -/
def cycle (draws : List UInt32) : Source :=
  stream (fun k => draws.getD (k % draws.length) 0) 0

/-- The next draw, and the source after it. -/
def next : Source → UInt32 × Source
  | register state => (state.advance.reg, register state.advance)
  | stream draw taken => (draw taken, stream draw (taken + 1))

/-- How many draws of a fixed stream are spent. -/
def taken : Source → Nat
  | register _ => 0
  | stream _ taken => taken

end Source

end CacheModel

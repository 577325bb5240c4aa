/-!
# Random bytes

A source of random bytes is a fixed stream and the number of bytes already taken from it, so that a
machine's run is a function of its stream. `RandomSource.cycle` repeats a list of bytes, and
`RandomSource.seeded` computes its bytes from a seed.
-/

namespace Chip8

/-- A stream of bytes, and how many of them have been drawn. -/
structure RandomSource where
  stream : Nat → UInt8
  drawn : Nat

namespace RandomSource

/-- A source that goes through `bytes` again and again; without bytes it gives zeros. -/
def cycle (bytes : List UInt8) : RandomSource :=
  ⟨fun n => bytes.getD (n % bytes.length) 0, 0⟩

/-- Spreads the bits of a word over the whole word. -/
def scramble (z : UInt64) : UInt64 :=
  let z := (z ^^^ (z >>> 30)) * 0xBF58476D1CE4E5B9
  let z := (z ^^^ (z >>> 27)) * 0x94D049BB133111EB
  z ^^^ (z >>> 31)

/-- A source whose `n`-th byte is computed from a seed and `n`. -/
def seeded (seed : UInt64) : RandomSource :=
  ⟨fun n => (scramble (seed + UInt64.ofNat (n + 1) * 0x9E3779B97F4A7C15) >>> 56).toUInt8, 0⟩

/-- The next byte. -/
def next (r : RandomSource) : UInt8 := r.stream r.drawn

/-- The source after its next byte. -/
def advance (r : RandomSource) : RandomSource := { r with drawn := r.drawn + 1 }

/-- The bytes still to come. -/
def rest (r : RandomSource) (n : Nat) : UInt8 := r.stream (r.drawn + n)

end RandomSource

end Chip8

import KeyVault.Bytes

/-!
# Entropy

A stream of random bytes and the place up to which it has been used.

## Main definitions

- `Entropy` — the stream and the place
- `Entropy.draw` — the next bytes of the stream

## Main statements

- `Entropy.bytes_draw` — what is drawn are the bytes of the stream that come next
- `Entropy.position_draw` — drawing uses exactly the bytes that it gives
-/

namespace KeyVault

/-- A stream of random bytes and the place up to which it has been used. -/
structure Entropy where
  /-- The byte at each place. -/
  stream : Nat → UInt8
  /-- The bytes before this place have been used. -/
  position : Nat

namespace Entropy

/-- The bytes from a place on. -/
def window (stream : Nat → UInt8) (start n : Nat) : Octets n where
  bytes := (List.range' start n).map stream
  length_bytes := by simp

/-- The next `n` bytes. -/
def draw (e : Entropy) (n : Nat) : Octets n × Entropy :=
  (window e.stream e.position n, { e with position := e.position + n })

/-- What is drawn are the bytes of the stream from the place up to which it has been used. -/
theorem bytes_draw (e : Entropy) (n : Nat) :
    (e.draw n).1.bytes = (List.range' e.position n).map e.stream := rfl

/-- Drawing uses exactly the bytes that it gives. -/
@[simp]
theorem position_draw (e : Entropy) (n : Nat) : (e.draw n).2.position = e.position + n := rfl

end Entropy

end KeyVault

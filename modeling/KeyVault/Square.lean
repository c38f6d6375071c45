/-!
# Squares of words

Sixteen words as a square of four by four. ChaCha20 and BLAKE2b scramble such a square by mixing
four of its words at a time: first those of each column, then those of each diagonal.

## Main definitions

- `Quad` — four words that are mixed together
- `Square` — sixteen words, row after row
- `Square.scramble` — mixes the columns, then the diagonals
-/

namespace KeyVault

/-- Four words that are mixed together. -/
structure Quad (α : Type) where
  a : α
  b : α
  c : α
  d : α

/-- Sixteen words, row after row. -/
abbrev Square (α : Type) := Vector α 16

namespace Square

variable {α : Type}

/-- Mixes the words at four places. -/
def mixAt (s : Square α) (i j k l : Fin 16) (mix : Quad α → Quad α) : Square α :=
  let q := mix ⟨s[i], s[j], s[k], s[l]⟩
  (((s.set i q.a).set j q.b).set k q.c).set l q.d

/-- Mixes the words of each column, then those of each diagonal. The mixing function is told which
of the eight it works on. -/
def scramble (mix : Fin 8 → Quad α → Quad α) (s : Square α) : Square α :=
  let s := s.mixAt 0 4 8 12 (mix 0)
  let s := s.mixAt 1 5 9 13 (mix 1)
  let s := s.mixAt 2 6 10 14 (mix 2)
  let s := s.mixAt 3 7 11 15 (mix 3)
  let s := s.mixAt 0 5 10 15 (mix 4)
  let s := s.mixAt 1 6 11 12 (mix 5)
  let s := s.mixAt 2 7 8 13 (mix 6)
  s.mixAt 3 4 9 14 (mix 7)

end Square

end KeyVault

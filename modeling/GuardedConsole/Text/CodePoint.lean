/-!
# Code points

A code point is a character or half of a surrogate pair. Escapes in a text name code units of
sixteen bits, two of which may make up one character, so that a text read from them may hold a half
that stands alone. Code points are numbered: `ofNat_toNat` and `toNat_ofNat` say that each has one
number below 0x110000 and each such number is that of one code point. `Text.inRuns` tells the classes
of characters outside ASCII by their numbers.
-/

namespace GuardedConsole

/-- A character, or the first or the second half of a surrogate pair. -/
inductive CodePoint where
  | char (c : Char)
  | high (k : Fin 0x400)
  | low (k : Fin 0x400)
deriving DecidableEq

namespace CodePoint

instance : Coe Char CodePoint := ⟨.char⟩

def toNat : CodePoint → Nat
  | .char c => c.toNat
  | .high k => 0xd800 + k
  | .low k => 0xdc00 + k

def ofNat (n : Nat) : CodePoint :=
  if h : 0xd800 ≤ n ∧ n < 0xdc00 then .high ⟨n - 0xd800, by omega⟩
  else if h : 0xdc00 ≤ n ∧ n < 0xe000 then .low ⟨n - 0xdc00, by omega⟩
  else .char (Char.ofNat n)

def toUpper : CodePoint → CodePoint
  | .char c => .char c.toUpper
  | c => c

def toLower : CodePoint → CodePoint
  | .char c => .char c.toLower
  | c => c

def isHalf : CodePoint → Bool
  | .char _ => false
  | .high _ | .low _ => true

def paired (first second : Fin 0x400) : CodePoint :=
  .ofNat (0x10000 + first * 0x400 + second)

theorem toNat_lt (c : CodePoint) : c.toNat < 0x110000 := by
  cases c with
  | char c =>
    have valid : c.toNat.isValidChar := c.valid
    simp only [Nat.isValidChar] at valid
    simp only [toNat]
    omega
  | high k => simp only [toNat]; omega
  | low k => simp only [toNat]; omega

theorem ofNat_toNat (c : CodePoint) : ofNat c.toNat = c := by
  cases c with
  | char c =>
    have valid : c.toNat.isValidChar := c.valid
    simp only [Nat.isValidChar] at valid
    rw [toNat, ofNat, dif_neg (by omega), dif_neg (by omega), Char.ofNat_toNat]
  | high k =>
    rw [toNat, ofNat, dif_pos (by omega)]
    simp
  | low k =>
    rw [toNat, ofNat, dif_neg (by omega), dif_pos (by omega)]
    simp

theorem toNat_ofNat {n : Nat} (h : n < 0x110000) : (ofNat n).toNat = n := by
  rw [ofNat]
  split
  · simp only [toNat]; omega
  · split
    · simp only [toNat]; omega
    · have valid : n.isValidChar := by simp only [Nat.isValidChar]; omega
      have made : Char.ofNat n = Char.ofNatAux n valid := dif_pos valid
      rw [made]
      rfl

end CodePoint

/-- Is `n` inside one of the half-open runs `[a, b)` listed as `a, b, a, b, …`? A class of characters
is written as the increasing list of the numbers at which membership changes. -/
def Text.inRuns (n : Nat) : List Nat → Bool
  | a :: b :: rest => if n < a then false else n < b || inRuns n rest
  | _ => false

end GuardedConsole

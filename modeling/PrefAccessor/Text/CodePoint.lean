/-!
# Code points

The members of a text: characters, and the halves of surrogate pairs, which an escape can bring into
a text one by one. A half on its own is no character and has no encoded form.
-/

namespace PrefAccessor

set_option autoImplicit false

inductive CodePoint where
  | char (c : Char)
  /-- U+D800 plus `half`. -/
  | surrogate (half : Fin 0x800)
  deriving DecidableEq, Repr

export CodePoint (char)

instance : Coe Char CodePoint := ⟨.char⟩

namespace CodePoint

instance : Inhabited CodePoint := ⟨'a'⟩

def toNat : CodePoint → Nat
  | .char c => c.toNat
  | .surrogate half => 0xd800 + half

/-- The code point of a number; a number that is none counts as zero. -/
def ofNat (n : Nat) : CodePoint :=
  if h : 0xd800 ≤ n ∧ n < 0xe000 then .surrogate ⟨n - 0xd800, by omega⟩ else .char (Char.ofNat n)

instance : LE CodePoint := ⟨fun c d => c.toNat ≤ d.toNat⟩

instance (c d : CodePoint) : Decidable (c ≤ d) :=
  inferInstanceAs (Decidable (c.toNat ≤ d.toNat))

def toLower : CodePoint → CodePoint
  | .char c => .char c.toLower
  | c => c

def toUpper : CodePoint → CodePoint
  | .char c => .char c.toUpper
  | c => c

@[simp] theorem toNat_char (c : Char) : (char c).toNat = c.toNat := rfl

theorem toNat_char_lt (c : Char) : c.toNat < 0xd800 ∨ 0xe000 ≤ c.toNat := by
  have hvalid := c.valid
  change c.toNat < 0xd800 ∨ 0xdfff < c.toNat ∧ c.toNat < 0x110000 at hvalid
  omega

theorem toNat_lt (c : CodePoint) : c.toNat < 0x110000 := by
  cases c with
  | char c =>
    have hvalid := c.valid
    change c.toNat < 0xd800 ∨ 0xdfff < c.toNat ∧ c.toNat < 0x110000 at hvalid
    rw [toNat_char]
    omega
  | surrogate half =>
    rw [toNat]
    omega

@[simp] theorem ofNat_toNat (c : CodePoint) : ofNat c.toNat = c := by
  cases c with
  | char c =>
    have hnot : ¬ (0xd800 ≤ c.toNat ∧ c.toNat < 0xe000) := by
      have := toNat_char_lt c
      omega
    rw [toNat_char, ofNat, dif_neg hnot, Char.ofNat_toNat]
  | surrogate half =>
    have hhalf : 0xd800 ≤ 0xd800 + half.val ∧ 0xd800 + half.val < 0xe000 := by omega
    rw [toNat, ofNat, dif_pos hhalf]
    simp only [Nat.add_sub_cancel_left]

theorem toNat_inj {c d : CodePoint} : c.toNat = d.toNat ↔ c = d := by
  refine ⟨fun h => ?_, fun h => h ▸ rfl⟩
  rw [← ofNat_toNat c, h, ofNat_toNat]

end CodePoint

end PrefAccessor

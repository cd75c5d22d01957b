import PrefAccessor.Text.Basic

/-!
# Texts as file names

The name of a file is a row of bytes. A byte that is part of no character stands in a text as half of
a surrogate pair, from U+DC80 on; other halves have no place in a name. Two texts may so be one name.
-/

namespace PrefAccessor

set_option autoImplicit false

namespace CodePoint

/-- The bytes of a code point in a file name. -/
def nameBytes? : CodePoint → Option (List UInt8)
  | .char c => some (String.utf8EncodeChar c)
  | .surrogate half =>
    if 0x480 ≤ half.val ∧ half.val < 0x500 then some [UInt8.ofNat (half - 0x400)] else none

/-- What stands for a byte that is part of no character. -/
def ofByte (b : UInt8) : CodePoint :=
  CodePoint.ofNat (0xdc00 + b.toNat)

end CodePoint

namespace Text

/-- The character that begins a row of bytes, and the bytes behind it. -/
def firstChar? (bytes : List UInt8) : Option (CodePoint × List UInt8) :=
  [1, 2, 3, 4].findSome? fun n =>
    match String.fromUTF8? ⟨(bytes.take n).toArray⟩ with
    | some s =>
      match s.toList with
      | [c] => some (.char c, bytes.drop n)
      | _ => none
    | none => none

/-- The code points that bytes stand for, at most `count` of them. -/
def ofBytes : Nat → List UInt8 → List CodePoint
  | 0, _ => []
  | _ + 1, [] => []
  | count + 1, b :: bytes =>
    match firstChar? (b :: bytes) with
    | some (c, rest) => c :: ofBytes count rest
    | none => .ofByte b :: ofBytes count bytes

/-- The bytes of a file name. -/
def nameBytes? (cs : List CodePoint) : Option (List UInt8) :=
  (cs.mapM CodePoint.nameBytes?).map List.flatten

/-- The one text among those of a file name that shows each of its characters. -/
def fileName? : Text → Option Text
  | .plain s => some (.plain s)
  | .broken cs _ => (nameBytes? cs).map fun bytes => Text.ofList (ofBytes bytes.length bytes)

/-- The text that a file name is known by. -/
def fileName (t : Text) : Text :=
  t.fileName?.getD t

/-- The length of a file name in bytes. -/
def nameSize : Text → Nat
  | .plain s => s.utf8ByteSize
  | .broken cs _ => (cs.flatMap fun c => c.nameBytes?.getD []).length

end Text

end PrefAccessor

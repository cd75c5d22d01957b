import PrefAccessor.Text.PrintableTable

/-!
# Printable characters

Whether a character can be shown as itself. Of the separators only the plain space counts.
-/

namespace PrefAccessor.Text

set_option autoImplicit false

def isPrintable (c : CodePoint) : Bool :=
  if c.toNat < 0x7f then decide (0x20 ≤ c.toNat) else inRanges printableRanges c

end PrefAccessor.Text

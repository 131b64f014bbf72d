import Mathlib.Data.List.Basic

/-!
# UTF-16

The code units of a text: one for a character of the basic plane, and a surrogate pair for any
other.
-/

namespace Utf16

/-- A text as its code units. -/
abbrev Units := List (BitVec 16)

/-- The code units of a character. -/
def charUnits (c : Char) : Units :=
  if c.toNat < 0x10000 then [BitVec.ofNat 16 c.toNat]
  else
    [BitVec.ofNat 16 (0xD800 + (c.toNat - 0x10000) / 0x400),
      BitVec.ofNat 16 (0xDC00 + (c.toNat - 0x10000) % 0x400)]

/-- The code units of a string. -/
def units (s : String) : Units := s.toList.flatMap charUnits

end Utf16

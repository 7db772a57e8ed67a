/-!
# Ignorable characters

* `isIgnorable` : may a character be shown as nothing at all?

These are the characters with the Unicode property `Default_Ignorable_Code_Point`: joiners, fillers,
variation selectors and controls of direction.  The fillers among them count as letters, so the
general category alone does not tell that they leave no ink.  The ranges are those of Unicode 17.
-/

namespace JobFile.Text

/-- Ranges of code points of the ignorable characters, in ascending order. -/
def ignorableRanges : Array (Nat × Nat) :=
  #[(0xad, 0xad), (0x34f, 0x34f), (0x61c, 0x61c), (0x115f, 0x1160), (0x17b4, 0x17b5),
    (0x180b, 0x180f), (0x200b, 0x200f), (0x202a, 0x202e), (0x2060, 0x206f), (0x3164, 0x3164),
    (0xfe00, 0xfe0f), (0xfeff, 0xfeff), (0xffa0, 0xffa0), (0xfff0, 0xfff8), (0x1bca0, 0x1bca3),
    (0x1d173, 0x1d17a), (0xe0000, 0xe0fff)]

/-- May the character be shown as nothing at all? -/
def isIgnorable (c : Char) : Bool :=
  ignorableRanges.any fun (first, last) => first ≤ c.toNat && c.toNat ≤ last

end JobFile.Text

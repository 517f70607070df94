import Lox.Text.Extender
import Lox.Text.Unassigned

/-!
Characters beyond ASCII that a text does not show on their own: unassigned ones, those without an
image, and those that are drawn onto the character before them.
-/

namespace Lox.Text

/-- The ranges of controls, formats, separators and private use, in ascending order. -/
def imagelessRanges : List (Nat × Nat) :=
  [(0x80, 0xa0), (0xad, 0xad), (0x600, 0x605), (0x61c, 0x61c), (0x6dd, 0x6dd), (0x70f, 0x70f),
    (0x890, 0x891), (0x8e2, 0x8e2), (0x1680, 0x1680), (0x180e, 0x180e), (0x2000, 0x200f),
    (0x2028, 0x202f), (0x205f, 0x2064), (0x2066, 0x206f), (0x3000, 0x3000), (0xe000, 0xf8ff),
    (0xfeff, 0xfeff), (0xfff9, 0xfffb), (0x110bd, 0x110bd), (0x110cd, 0x110cd), (0x13430, 0x1343f),
    (0x1bca0, 0x1bca3), (0x1d173, 0x1d17a), (0xe0001, 0xe0001), (0xe0020, 0xe007f),
    (0xf0000, 0xffffd), (0x100000, 0x10fffd)]

/-- The letters that fill an empty place in a Korean syllable. -/
def fillerRanges : List (Nat × Nat) :=
  [(0x115f, 0x1160), (0x3164, 0x3164), (0xffa0, 0xffa0)]

/-- The halfwidth voicing marks, which extend a character but stand beside it. -/
def voicingMarkRanges : List (Nat × Nat) :=
  [(0xff9e, 0xff9f)]

/-- Whether a character beyond ASCII is not shown on its own. -/
def isHidden (char : Char) : Bool :=
  inRanges imagelessRanges char || inRanges fillerRanges char ||
    (isExtender char && !inRanges voicingMarkRanges char) || isUnassigned char

end Lox.Text

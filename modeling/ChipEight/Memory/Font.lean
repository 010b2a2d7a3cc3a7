/-!
# The font

Sixteen glyphs, one for each hexadecimal digit, five rows of pixels each. They stand at the
beginning of memory, glyph after glyph, so the address of a glyph is a multiple of its height.
-/

namespace ChipEight.Memory.Font

/-- The number of rows of a glyph. -/
def glyphHeight : Nat := 5

/-- The rows of the sixteen glyphs. -/
def bytes : List UInt8 :=
  [0xF0, 0x90, 0x90, 0x90, 0xF0,
    0x20, 0x60, 0x20, 0x20, 0x70,
    0xF0, 0x10, 0xF0, 0x80, 0xF0,
    0xF0, 0x10, 0xF0, 0x10, 0xF0,
    0x90, 0x90, 0xF0, 0x10, 0x10,
    0xF0, 0x80, 0xF0, 0x10, 0xF0,
    0xF0, 0x80, 0xF0, 0x90, 0xF0,
    0xF0, 0x10, 0x20, 0x40, 0x40,
    0xF0, 0x90, 0xF0, 0x90, 0xF0,
    0xF0, 0x90, 0xF0, 0x10, 0xF0,
    0xF0, 0x90, 0xF0, 0x90, 0x90,
    0xE0, 0x90, 0xE0, 0x90, 0xE0,
    0xF0, 0x80, 0x80, 0x80, 0xF0,
    0xE0, 0x90, 0x90, 0x90, 0xE0,
    0xF0, 0x80, 0xF0, 0x80, 0xF0,
    0xF0, 0x80, 0xF0, 0x80, 0x80]

/-- The address of the glyph of a digit. -/
def glyphAddress (digit : Int) : Int :=
  digit * glyphHeight

/-- The font is as long as sixteen glyphs. -/
theorem length_bytes : bytes.length = 16 * glyphHeight := by
  decide

end ChipEight.Memory.Font

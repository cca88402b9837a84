/-!
# Characters of words

Letters and digits, of any alphabet. Beyond ASCII every character counts as one unless it stands in
a block of punctuation, symbols or private characters.
-/

namespace MetricLedger.Text

/-- Blocks without letters and digits, by their first and last characters. -/
def symbolBlocks : List (Nat × Nat) :=
  [(0x80, 0xA9), (0xAB, 0xB1), (0xB4, 0xB4), (0xB6, 0xB8), (0xBB, 0xBB), (0xBF, 0xBF), (0xD7, 0xD7),
    (0xF7, 0xF7), (0x2C2, 0x2C5), (0x2D2, 0x2DF), (0x300, 0x344), (0x2000, 0x206F),
    (0x207A, 0x207E), (0x208A, 0x208F), (0x20A0, 0x20FF), (0x2190, 0x245F), (0x249C, 0x24B5),
    (0x2500, 0x2775), (0x2794, 0x2BFF), (0x3000, 0x3004), (0x3008, 0x3020), (0x3030, 0x3030),
    (0xD800, 0xF8FF), (0xFE00, 0xFE6F), (0xFEFF, 0xFF0F), (0xFF1A, 0xFF20), (0xFF3B, 0xFF40),
    (0xFF5B, 0xFF65), (0xFFE0, 0xFFFF), (0x1F000, 0x1F0FF), (0x1F10D, 0x1F12F),
    (0x1F1E6, 0x1FAFF), (0xE0000, 0x10FFFF)]

def isWordChar (c : Char) : Bool :=
  if c.toNat < 0x80 then c.isAlphanum
  else !symbolBlocks.any fun (first, last) => first ≤ c.toNat && c.toNat ≤ last

end MetricLedger.Text

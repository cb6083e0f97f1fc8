import IntervalCalc.Unicode.RangeTable

/-! The white space of Unicode 17, property White_Space. -/

namespace IntervalCalc.Unicode

/-- The blanks, the tabulator and the line and paragraph ends. -/
def blankRanges : RangeTable :=
  [(0x0009, 0x000D), (0x0020, 0x0020), (0x0085, 0x0085), (0x00A0, 0x00A0), (0x1680, 0x1680),
   (0x2000, 0x200A), (0x2028, 0x2029), (0x202F, 0x202F), (0x205F, 0x205F), (0x3000, 0x3000)]

example : blankRanges.ascending = true := by decide +kernel

example : blankRanges.size = 25 := by decide +kernel

def isBlank (c : Char) : Bool :=
  blankRanges.contains c.toNat

end IntervalCalc.Unicode

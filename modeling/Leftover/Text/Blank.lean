/-
# White space

* `isBlank` : the white space characters of Unicode
* `isBlankOrSeparator` : these and the separators of data fields
-/
import Leftover.Text

namespace Leftover

/-- The code point is white space. -/
def isBlank (p : CodePoint) : Bool :=
  let n := p.val
  (9 ≤ n && n ≤ 13) || n = 32 || n = 0x85 || n = 0xa0 || n = 0x1680 || (0x2000 ≤ n && n ≤ 0x200a)
    || n = 0x2028 || n = 0x2029 || n = 0x202f || n = 0x205f || n = 0x3000

/-- The code point is white space or separates data fields. -/
def isBlankOrSeparator (p : CodePoint) : Bool := isBlank p || (28 ≤ p.val && p.val ≤ 31)

end Leftover

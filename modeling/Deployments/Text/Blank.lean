import Deployments.Text

/-!
Blank characters and trimming. `isBlank` is the white space of the Unicode standard; `isSpace`
counts the four information separators too.
-/

namespace Deployments.Text

def isBlank (c : Char) : Bool :=
  let n := c.toNat
  decide (0x9 ≤ n) && decide (n ≤ 0xd) || n == 0x20 || n == 0x85 || n == 0xa0 || n == 0x1680 ||
    decide (0x2000 ≤ n) && decide (n ≤ 0x200a) || n == 0x2028 || n == 0x2029 || n == 0x202f ||
    n == 0x205f || n == 0x3000

/-- White space, or one of the information separators. -/
def isSpace (c : Char) : Bool :=
  isBlank c || decide (0x1c ≤ c.toNat) && decide (c.toNat ≤ 0x1f)

/-- The items left when those of class `p` are taken off both ends. -/
def trimBy {α : Type} (p : α → Bool) (s : List α) : List α :=
  ((s.dropWhile p).reverse.dropWhile p).reverse

/-- The text without the spaces at its ends. -/
def strip (s : Text) : Text := ofList (trimBy (Point.is isSpace) s.toList)

theorem strip_toList (s : Text) : (strip s).toList = trimBy (Point.is isSpace) s.toList := rfl

end Deployments.Text

/-!
# White space

* `Text.isSpace` : the characters with the Unicode property White_Space, as a table;
* `Text.isBlank` : a text of such characters only, the empty text included;
* `Text.trimStart` : the text after its leading white space.
-/

namespace NetGraph.Text

/-- The property White_Space: 25 characters, six of them in ASCII. -/
def isSpace (c : Char) : Bool :=
  let n := c.toNat
  (0x9 ≤ n && n ≤ 0xD) || n == 0x20 || n == 0x85 || n == 0xA0 || n == 0x1680
    || (0x2000 ≤ n && n ≤ 0x200A) || n == 0x2028 || n == 0x2029 || n == 0x202F
    || n == 0x205F || n == 0x3000

/-- Nothing but white space. -/
def isBlank (s : String) : Bool := s.toList.all isSpace

/-- The characters after the leading white space. -/
def trimStart (cs : List Char) : List Char := cs.dropWhile isSpace

end NetGraph.Text

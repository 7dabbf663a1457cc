/-!
# Letter case

* `Text.equalsIgnoringCase` : equality up to the case of ASCII letters;
* `Text.lowerAscii` : the lower case of a character as far as it holds ASCII characters, everything
  else kept as a stand-in outside ASCII.
-/

namespace NetGraph.Text

/-- Equal once the ASCII letters of both are in lower case. -/
def equalsIgnoringCase (a b : String) : Bool :=
  a.toList.map Char.toLower == b.toList.map Char.toLower

/--
The Unicode lower case of `c`, exact in its ASCII characters. Of all characters outside ASCII only
two have an ASCII letter in their lower case: the dotted capital I becomes `i` and a combining dot,
and the Kelvin sign becomes `k`. Every other one becomes a single character outside ASCII, for
which `c` itself stands here.
-/
def lowerAscii (c : Char) : List Char :=
  if c.toNat = 0x130 then ['i', Char.ofNat 0x307]
  else if c.toNat = 0x212A then ['k']
  else [c.toLower]

end NetGraph.Text

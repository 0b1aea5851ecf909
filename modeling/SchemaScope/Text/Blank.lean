/-
**White space.**

White space here is the Unicode property of that name.

Main definitions:

* `isWhiteSpace` — the class;
* `trim` — a text without white space at either end.
-/

set_option autoImplicit false

namespace SchemaScope.Text

/-- White space. -/
def isWhiteSpace (c : Char) : Bool :=
  let n := c.toNat
  (9 ≤ n && n ≤ 13) || n == 0x20 || n == 0x85 || n == 0xA0 || n == 0x1680 ||
    (0x2000 ≤ n && n ≤ 0x200A) || n == 0x2028 || n == 0x2029 || n == 0x202F || n == 0x205F ||
    n == 0x3000

/-- Characters without white space at either end. -/
def trimChars (cs : List Char) : List Char :=
  ((cs.dropWhile isWhiteSpace).reverse.dropWhile isWhiteSpace).reverse

/-- A text without white space at either end. -/
def trim (text : String) : String := String.ofList (trimChars text.toList)

end SchemaScope.Text

/-!
White space as Unicode has it, with the four information separators, and the text inside it.
-/
namespace JarRefinery.Text

def isBlank (c : Char) : Bool :=
  let n := c.toNat
  (0x09 ≤ n && n ≤ 0x0d) || (0x1c ≤ n && n ≤ 0x20) || n == 0x85 || n == 0xa0 || n == 0x1680 ||
    (0x2000 ≤ n && n ≤ 0x200a) || n == 0x2028 || n == 0x2029 || n == 0x202f || n == 0x205f ||
    n == 0x3000

/-- The characters left when `p` is taken off both ends. -/
def stripWhile (p : Char → Bool) (chars : List Char) : List Char :=
  ((chars.dropWhile p).reverse.dropWhile p).reverse

/-- A text without the white space around it. -/
def strip (text : String) : String :=
  String.ofList (stripWhile isBlank text.toList)

/-- A text without the characters satisfying `p` at its end. -/
def stripEnd (p : Char → Bool) (text : String) : String :=
  String.ofList (text.toList.reverse.dropWhile p).reverse

end JarRefinery.Text

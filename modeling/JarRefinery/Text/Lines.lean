/-!
Lines of a text. A line ends at any of the line and page separators of Unicode; a carriage return
and the line feed after it are one end. The last line needs no end, and no empty line follows one.
-/
namespace JarRefinery.Text

def isLineEnd (c : Char) : Bool :=
  let n := c.toNat
  (0x0a ≤ n && n ≤ 0x0d) || (0x1c ≤ n && n ≤ 0x1e) || n == 0x85 || n == 0x2028 || n == 0x2029

/-- Puts `c` in front of the first line. -/
def consLine (c : Char) : List (List Char) → List (List Char)
  | [] => [[c]]
  | line :: lines => (c :: line) :: lines

def splitLines : List Char → List (List Char)
  | [] => []
  | '\r' :: '\n' :: rest => [] :: splitLines rest
  | c :: rest => if isLineEnd c then [] :: splitLines rest else consLine c (splitLines rest)

def lines (text : String) : List String :=
  (splitLines text.toList).map String.ofList

/-- Every line end of the three common kinds becomes a line feed. -/
def unifyLineEnds : List Char → List Char
  | [] => []
  | '\r' :: '\n' :: rest => '\n' :: unifyLineEnds rest
  | '\r' :: rest => '\n' :: unifyLineEnds rest
  | c :: rest => c :: unifyLineEnds rest

def withUnifiedLineEnds (text : String) : String :=
  String.ofList (unifyLineEnds text.toList)

/-- The last `count` lines; a count of zero keeps all, a negative one leaves out that many of the
first. -/
def lastLines (count : Int) (text : String) : List String :=
  let all := lines text
  if 0 < count then all.drop (all.length - count.toNat) else all.drop (-count).toNat

end JarRefinery.Text

/-
  Lines of text. A line ends at any of ten characters, of which a carriage return and the line
  feed behind it count as one end.
-/

namespace StakeLedger.Text

/-- The characters that end a line. -/
def lineEnds : List Char :=
  ['\n', '\x0b', '\x0c', '\r', '\x1c', '\x1d', '\x1e', '\x85', '\u2028', '\u2029']

/-- The last line of a text to which a line feed is added. -/
def lastLine (s : String) : String :=
  let reversed := match s.toList.reverse with
    | '\r' :: rest => rest
    | cs => cs
  String.ofList (reversed.takeWhile (!lineEnds.contains ·)).reverse

end StakeLedger.Text

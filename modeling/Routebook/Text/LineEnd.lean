/-
  Routebook.Text.LineEnd

  Line ends: a carriage return, a line feed and the two together all end a
  line, and texts are read with a single line feed for each.
-/

namespace Routebook.Text

/-- Every line end as a single line feed. -/
def singleLineEnds : List Char → List Char
  | '\r' :: '\n' :: rest => '\n' :: singleLineEnds rest
  | '\r' :: rest => '\n' :: singleLineEnds rest
  | c :: rest => c :: singleLineEnds rest
  | [] => []

end Routebook.Text

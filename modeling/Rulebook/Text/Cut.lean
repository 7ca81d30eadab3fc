/-!
# Cutting texts

Small ways of taking a text apart.
-/

namespace Rulebook.Text

/-- What follows `start`, if the text begins with it. -/
def dropStart? : (start text : List Char) → Option (List Char)
  | [], text => some text
  | c :: start, d :: text => if c = d then dropStart? start text else none
  | _ :: _, [] => none

end Rulebook.Text

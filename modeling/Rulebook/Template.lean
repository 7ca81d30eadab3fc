/-!
# Templates

The text of a node in an editor comes from a template, in which names of
parameters stand in braces. An opening brace pairs with the next closing one,
whatever lies between; one that finds no partner is an ordinary character, and
so is everything after it.
-/

namespace Rulebook

/-- A part of a template. -/
inductive TemplatePart where
  /-- Text to be shown as it is. -/
  | verbatim (text : List Char)
  /-- What stands between a pair of braces. -/
  | braced (name : List Char)
deriving DecidableEq, Repr

namespace TemplatePart

mutual

/-- The parts of the rest of a template, where `text` was read since the last closing brace,
listed from its end. -/
def outside (text : List Char) : List Char → List TemplatePart
  | [] => [verbatim text.reverse]
  | c :: rest => if c = '{' then inside text [] rest else outside (c :: text) rest

/-- The parts of the rest of a template, where `name` was read since an opening brace and
`text` before it, both listed from their ends. -/
def inside (text name : List Char) : List Char → List TemplatePart
  | [] => [verbatim (text.reverse ++ '{' :: name.reverse)]
  | c :: rest =>
    if c = '}' then verbatim text.reverse :: braced name.reverse :: outside [] rest
    else inside text (c :: name) rest

end

/-- The parts of a template, left to right. -/
def parse (template : List Char) : List TemplatePart := outside [] template

end TemplatePart

end Rulebook

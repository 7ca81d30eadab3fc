import Rulebook.Text.Quoted
import Std.Data.ExtTreeMap

/-!
# Resource keys

Block and item types are named by keys such as `core:stone`: two halves joined
by a colon. The halves are never empty and hold only ASCII letters, digits and
`_ - . /`, so the first colon is the only one and a key splits in one way.
-/

namespace Rulebook

/-- Whether the character may stand in one half of a key. -/
def isKeyChar (c : Char) : Bool :=
  c.isAlphanum || c == '_' || c == '-' || c == '.' || c == '/'

/-- Whether the text may be one half of a key. -/
def isKeyPart (part : List Char) : Bool := !part.isEmpty && part.all isKeyChar

/-- The name of a block or item type. -/
structure ResourceKey where
  /-- The half before the colon, `core` in `core:stone`. -/
  space : String
  /-- The half after the colon. -/
  path : String
  space_ok : isKeyPart space.toList = true
  path_ok : isKeyPart path.toList = true
deriving DecidableEq

namespace ResourceKey

/-- The key of two halves, if both are allowed. -/
def ofParts? (space path : String) : Option ResourceKey :=
  if hs : isKeyPart space.toList = true then
    if hp : isKeyPart path.toList = true then some ⟨space, path, hs, hp⟩ else none
  else none

/-- Reads a key, splitting at the first colon. -/
def parse? (text : String) : Option ResourceKey :=
  match text.toList.span (· ≠ ':') with
  | (space, _ :: path) => ofParts? (String.ofList space) (String.ofList path)
  | (_, []) => none

/-- The key as it is written. -/
def text (key : ResourceKey) : String := key.space ++ ":" ++ key.path

/-- The complaint about a text that is not a key. -/
def malformed (text : String) : String := "malformed resource key " ++ Text.quoted text

/-- Keys stand in the order of their first halves, and those that share one in the order of their
second. -/
def order : ResourceKey → ResourceKey → Ordering :=
  compareLex (compareOn ResourceKey.space) (compareOn ResourceKey.path)

instance : Ord ResourceKey := ⟨order⟩

instance : Std.TransOrd ResourceKey :=
  inferInstanceAs
    (Std.TransCmp (compareLex (compareOn ResourceKey.space) (compareOn ResourceKey.path)))

instance : Std.LawfulEqOrd ResourceKey where
  eq_of_compare {a b} h := by
    obtain ⟨hs, hp⟩ := Ordering.then_eq_eq.1 h
    cases a; cases b
    cases Std.LawfulEqOrd.eq_of_compare hs
    cases Std.LawfulEqOrd.eq_of_compare hp
    rfl

end ResourceKey

end Rulebook

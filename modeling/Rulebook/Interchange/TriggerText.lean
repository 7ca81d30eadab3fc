import Rulebook.Interchange.Decoding
import Rulebook.Interchange.Encoding

/-!
# Whole triggers

A trigger is written as a header with its name, a line that says so if it is
disabled, and a section for each root: `@event`, `@condition` or `@action`
followed by the entries of the tree. Reading one back is all or nothing: after
a fault the scenario is the one before, numbering included.
-/

namespace Rulebook

namespace TriggerText

/-- What the header begins with. -/
def nameMark : List Char := "@trigger ".toList

/-- What the line about being enabled begins with. -/
def enabledMark : List Char := "@enabled ".toList

/-- The line before a root of a list. -/
def sectionLine (clause : Clause) : List Char := '@' :: clause.name.toList

/-- The list whose roots stand after a line. -/
def clauseOf? (line : List Char) : Option Clause :=
  Clause.all.find? fun clause => sectionLine clause == line

/-- A root of a list, as it was found in a text. -/
structure Part where
  /-- The number of the line before the root. -/
  line : Nat
  clause : Clause
  body : List (Nat × List Char)

/-- Cuts lines before every line that begins with `@`: the lines before the first such line,
and each such line with what follows it. -/
def cutAtHeaders : List (Nat × List Char) →
    List (Nat × List Char) × List ((Nat × List Char) × List (Nat × List Char))
  | [] => ([], [])
  | line :: rest =>
    let (body, others) := cutAtHeaders rest
    if line.2.head? = some '@' then ([], (line, body) :: others) else (line :: body, others)

/-- Reads the line before a root. -/
def partOf (header : Nat × List Char) (body : List (Nat × List Char)) :
    Except InterchangeError Part :=
  match clauseOf? header.2 with
  | some clause => .ok ⟨header.1, clause, body⟩
  | none => .error (.malformed header.1 .sectionHeader)

/-- Finds the roots in the lines after the header. -/
def parts (lines : List (Nat × List Char)) : Except InterchangeError (List Part) :=
  match cutAtHeaders lines with
  | ([], sections) => sections.mapM fun (header, body) => partOf header body
  | (line :: _, _) => .error (.malformed line.1 .sectionHeader)

/-- Reads the header. -/
def readName (line : Nat × List Char) : Except InterchangeError String :=
  match (Text.dropStart? nameMark line.2).bind Text.unescape? with
  | some name => .ok (String.ofList name)
  | none => .error (.malformed line.1 .triggerHeader)

/-- Reads the line about being enabled, if there is one, and yields the lines after it. -/
def readEnabled : List (Nat × List Char) → Except InterchangeError (Bool × List (Nat × List Char))
  | [] => .ok (true, [])
  | line :: rest =>
    match Text.dropStart? enabledMark line.2 with
    | none => .ok (true, line :: rest)
    | some flag =>
      if flag = "true".toList then .ok (true, rest)
      else if flag = "false".toList then .ok (false, rest)
      else .error (.malformed line.1 .enabledFlag)

/-- What a text says about a trigger. -/
structure Outline where
  name : String
  enabled : Bool
  parts : List Part

/-- Reads a text as far as its header lines go. -/
def outline (text : List Char) : Except InterchangeError Outline := do
  match (Text.numberedLines text).filter fun line => !line.2.isEmpty with
  | [] => throw .empty
  | header :: rest => do
    let name ← readName header
    let (enabled, rest) ← readEnabled rest
    return ⟨name, enabled, ← parts rest⟩

/-- A section without entries is a fault of its header line. -/
def blameHeader (line : Nat) : InterchangeError → InterchangeError
  | .empty => .malformed line .emptySection
  | fault => fault

end TriggerText

namespace Scenario

/-- The lines of a root of a list. -/
def partLines (scenario : Scenario) (registry : Registry) (clause : Clause) (root : NodeId) :
    Except InterchangeError (List String) := do
  return String.ofList (TriggerText.sectionLine clause) :: (← scenario.encode registry root)

/-- Writes a trigger and everything below its lists. -/
def exportTrigger (scenario : Scenario) (registry : Registry) (id : TriggerId) :
    Except InterchangeError String := do
  match scenario.trigger? id with
  | none => throw (.rejected 0 (.unknownTrigger id))
  | some trigger => do
    let header := String.ofList (TriggerText.nameMark ++ Text.escape trigger.name.toList)
    let flag :=
      if trigger.enabled then []
      else [String.ofList (TriggerText.enabledMark ++ "false".toList)]
    let roots := Clause.all.flatMap fun clause => (trigger.roots clause).map fun root => (clause, root)
    let parts ← roots.mapM fun (clause, root) => scenario.partLines registry clause root
    return String.intercalate "\n" (header :: flag ++ parts.flatten)

/-- Builds a root and appends it to its list. -/
def importPart {σ : Type} [Services σ] (registry : Registry) (services : σ) (id : TriggerId)
    (part : TriggerText.Part) : Import Unit := do
  let root ← (decodeLines registry services part.body).mapError (TriggerText.blameHeader part.line)
  (attach id part.clause root).mapError (.rejected part.line)

/-- Builds roots one after the other. -/
def importParts {σ : Type} [Services σ] (registry : Registry) (services : σ) (id : TriggerId) :
    List TriggerText.Part → Import Unit
  | [] => return ()
  | part :: rest => do
    importPart registry services id part
    importParts registry services id rest

/-- Builds a trigger from its outline. -/
def importOutline {σ : Type} [Services σ] (registry : Registry) (services : σ)
    (outline : TriggerText.Outline) : Import TriggerId := do
  let id ← (addTrigger outline.name).mapError (.rejected 0)
  importParts registry services id outline.parts
  (setTriggerEnabled id outline.enabled).mapError (.rejected 0)
  return id

/-- Appends a trigger that is read from a text. After a fault the scenario is the one
before. -/
def importTrigger {σ : Type} [Services σ] (registry : Registry) (services : σ) (text : String) :
    Import TriggerId := do
  let before ← get
  let outline ← TriggerText.outline text.toList
  (importOutline registry services outline).onFailure fun _ => before

end Scenario

end Rulebook

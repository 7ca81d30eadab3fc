import Rulebook.Proofs.Interchange.Reading
import Rulebook.Proofs.Text.Numbering

/-!
# Other numbers for the same lines

Reading asks a line for its characters only. The number of a line is noted when a
definition has to wait for its value line, and is given back in a fault; nothing is
decided by it. So a text whose lines have other numbers is read like this one, with
the same nodes and the same triggers, and a fault differs in its number alone.

A definition that waits is the one place where a number is kept, so while a tree is
read the two readings differ there: `Progress.renumber`.
-/

namespace Rulebook

open Attempt

/-- The number of the line at which the fault shows. -/
def InterchangeError.line? : InterchangeError → Option Nat
  | empty => none
  | malformed line _ => some line
  | unknownVariant line _ => some line
  | orphanLine line _ => some line
  | duplicatePath line _ => some line
  | invalidLiteral line _ _ => some line
  | missingLiteral line _ => some line
  | unresolvedReference line _ => some line
  | rejected line _ => some line
  | unknownNode _ => none

/-- The fault with another number for its line. -/
def InterchangeError.renumber (f : Nat → Nat) : InterchangeError → InterchangeError
  | empty => empty
  | malformed line how => malformed (f line) how
  | unknownVariant line name => unknownVariant (f line) name
  | orphanLine line path => orphanLine (f line) path
  | duplicatePath line path => duplicatePath (f line) path
  | invalidLiteral line variant text => invalidLiteral (f line) variant text
  | missingLiteral line variant => missingLiteral (f line) variant
  | unresolvedReference line reference => unresolvedReference (f line) reference
  | rejected line cause => rejected (f line) cause
  | unknownNode node => unknownNode node

/-- The state of a reading that has counted the lines in another way. -/
def Progress.renumber (f : Nat → Nat) (progress : Progress) : Progress :=
  { progress with
    pending := progress.pending.map fun pending => { pending with line := f pending.line } }

theorem Progress.placed_renumber (f : Nat → Nat) (progress : Progress) :
    (progress.renumber f).placed = progress.placed := rfl

/-- Lines with other numbers. -/
def renumbered (f : Nat → Nat) (lines : List (Nat × List Char)) : List (Nat × List Char) :=
  lines.map (Prod.map f id)

variable {f : Nat → Nat}

namespace Reading

/-- The steps do the same, but for the numbers of the lines. -/
abbrev Renumbers {α : Type} (f : Nat → Nat) (step twin : Reading α) : Prop :=
  Mirrors (Progress.renumber f) (InterchangeError.renumber f) step twin

variable {registry : Registry} {line : Nat} {path : Path} {id : NodeId}

theorem edit_renumbers {α : Type} (step : Forest.Edit α) :
    Renumbers f (edit line step) (edit (f line) step) := by
  intro progress
  rw [edit_runOn, edit_runOn]
  show (((step.runOn progress.forest).1.mapError _), _) = _
  cases (step.runOn progress.forest).1 <;> rfl

theorem make_renumbers (step : Forest.Edit NodeId) :
    Renumbers f (make line step) (make (f line) step) :=
  .bind (edit_renumbers step) fun _ => .bind (.modify fun _ => rfl) fun _ => .pure _

theorem place_renumbers :
    Renumbers f (place registry line path id) (place registry (f line) path id) := by
  unfold place
  cases path.split? with
  | none => exact .bind (.modify fun _ => rfl) fun _ => .modify fun _ => rfl
  | some split =>
      refine .get fun progress => ?_
      dsimp only
      rw [Progress.placed_renumber]
      cases progress.placed.find? split.1 with
      | none => exact .throw _
      | some parent => exact .bind (edit_renumbers _) fun _ => .modify fun _ => rfl

theorem define_renumbers {name : String} :
    Renumbers f (define registry line path name) (define registry (f line) path name) := by
  unfold define
  refine .get fun progress => .ite (.throw _) ?_
  cases registry.get? name with
  | some variant =>
      cases path.split? with
      | none => exact .pure _
      | some split => exact .ite (.pure _) (.throw _)
  | none =>
      cases path.split? with
      | none => exact .throw _
      | some split => exact .ite (.throw _) (.throw _)

theorem readDefinition_renumbers {entry : Entry} :
    Renumbers f (readDefinition registry line entry) (readDefinition registry (f line) entry) := by
  unfold readDefinition
  refine .get fun progress => ?_
  obtain ⟨forest, placed, created, root, pending⟩ := progress
  cases pending with
  | some pending => exact .throw _
  | none =>
      refine .bind define_renumbers fun variant => ?_
      cases variant.literal with
      | some type => exact .modify fun _ => rfl
      | none => exact .bind (make_renumbers _) fun _ => place_renumbers

variable {σ : Type} [Services σ] {scene : ReadingScene σ}

theorem readValue_renumbers {entry : Entry} :
    Renumbers f (readValue scene line entry) (readValue scene (f line) entry) := by
  unfold readValue
  refine .get fun progress => ?_
  obtain ⟨forest, placed, created, root, pending⟩ := progress
  cases pending with
  | none => exact .throw _
  | some pending =>
      have hliteral : Check.Mirrors id (InterchangeError.renumber f)
          ((LiteralText.read scene.scenario scene.services pending.type entry.payload).mapError
            (literalFault line pending.variant.id (String.ofList entry.payload)))
          ((LiteralText.read scene.scenario scene.services pending.type entry.payload).mapError
            (literalFault (f line) pending.variant.id (String.ofList entry.payload))) :=
        .worded _ fun fault => by cases fault <;> rfl
      refine .ite ?_ (.throw _)
      refine .bind (.modify fun _ => rfl) fun _ => .checked hliteral fun literal => ?_
      exact .bind (make_renumbers _) fun _ => place_renumbers

theorem readLine_renumbers {text : List Char} :
    Renumbers f (readLine scene line text) (readLine scene (f line) text) := by
  have hentry : Check.Mirrors id (InterchangeError.renumber f)
      ((Entry.parse text).mapError (.malformed line))
      ((Entry.parse text).mapError (.malformed (f line))) := .worded _ fun _ => rfl
  unfold readLine
  refine .checked hentry fun entry => ?_
  obtain ⟨path, marker, payload⟩ := entry
  cases marker with
  | definition => exact readDefinition_renumbers
  | value => exact readValue_renumbers

theorem readLines_renumbers (lines : List (Nat × List Char)) :
    Renumbers f (readLines scene lines) (readLines scene (renumbered f lines)) := by
  induction lines with
  | nil =>
      refine .get fun progress => ?_
      obtain ⟨forest, placed, created, root, pending⟩ := progress
      cases pending with
      | some pending => exact .throw _
      | none =>
          cases root with
          | some root => exact .pure _
          | none => exact .throw _
  | cons line rest ih =>
      exact .ite ih (.bind readLine_renumbers fun _ => ih)

end Reading

/-! ## The header lines of a trigger -/

namespace TriggerText

/-- A section whose lines have other numbers. -/
def Part.renumber (f : Nat → Nat) (part : Part) : Part :=
  { part with line := f part.line, body := renumbered f part.body }

/-- An outline whose lines have other numbers. -/
def Outline.renumber (f : Nat → Nat) (outline : Outline) : Outline :=
  { outline with parts := outline.parts.map (Part.renumber f) }

theorem cutAtHeaders_renumbered (f : Nat → Nat) (lines : List (Nat × List Char)) :
    cutAtHeaders (renumbered f lines) = (renumbered f (cutAtHeaders lines).1,
      (cutAtHeaders lines).2.map (Prod.map (Prod.map f id) (renumbered f))) := by
  induction lines with
  | nil => rfl
  | cons line rest ih =>
      show cutAtHeaders (Prod.map f id line :: renumbered f rest) = _
      rw [cutAtHeaders, ih, cutAtHeaders]
      dsimp only [Prod.map_snd, id_eq]
      split <;> rfl

theorem partOf_renumbers (header : Nat × List Char) (body : List (Nat × List Char)) :
    Check.Mirrors (Part.renumber f) (InterchangeError.renumber f) (partOf header body)
      (partOf (Prod.map f id header) (renumbered f body)) := by
  unfold partOf
  rw [Prod.map_snd, id_eq]
  cases clauseOf? header.2 <;> rfl

theorem parts_renumbers (lines : List (Nat × List Char)) :
    Check.Mirrors (List.map (Part.renumber f)) (InterchangeError.renumber f) (parts lines)
      (parts (renumbered f lines)) := by
  unfold parts
  rw [cutAtHeaders_renumbered]
  cases cutAtHeaders lines with
  | mk before sections =>
      cases before with
      | nil => exact .mapM (fun found => partOf_renumbers found.1 found.2) sections
      | cons line rest => rfl

theorem readName_renumbers (line : Nat × List Char) :
    Check.Mirrors id (InterchangeError.renumber f) (readName line)
      (readName (Prod.map f id line)) := by
  unfold readName
  rw [Prod.map_snd, id_eq]
  cases (Text.dropStart? nameMark line.2).bind Text.unescape? <;> rfl

theorem readEnabled_renumbers (lines : List (Nat × List Char)) :
    Check.Mirrors (Prod.map id (renumbered f)) (InterchangeError.renumber f) (readEnabled lines)
      (readEnabled (renumbered f lines)) := by
  cases lines with
  | nil => rfl
  | cons line rest =>
      show Check.Mirrors _ _ _ (readEnabled (Prod.map f id line :: renumbered f rest))
      unfold readEnabled
      dsimp only [Prod.map_snd, id_eq]
      cases Text.dropStart? enabledMark line.2 with
      | none => rfl
      | some flag =>
          dsimp only
          split
          · rfl
          · split <;> rfl

/-- **The outline of a text with other numbers** is the outline with other numbers. -/
theorem outline_renumbers {text other : List Char}
    (h : Text.filledLines other = renumbered f (Text.filledLines text)) :
    Check.Mirrors (Outline.renumber f) (InterchangeError.renumber f) (outline text)
      (outline other) := by
  unfold outline
  rw [← Text.filledLines, ← Text.filledLines, h]
  cases Text.filledLines text with
  | nil => rfl
  | cons header rest =>
      refine .bind (readName_renumbers header) fun name => ?_
      refine .bind (readEnabled_renumbers rest) fun flagged => ?_
      exact .bind (parts_renumbers flagged.2) fun _ => rfl

end TriggerText

/-! ## Whole texts -/

namespace Scenario

open TriggerText (Part Outline)

variable {registry : Registry} {scenario : Scenario} {σ : Type} [Services σ] {services : σ}

/-- The steps do the same, but for the numbers of the lines in faults. -/
abbrev Renumbers {α : Type} (f : Nat → Nat) (step twin : Import α) : Prop :=
  Mirrors id (InterchangeError.renumber f) step twin

/-- A step whose faults are worded at different lines. -/
theorem rejected_renumbers {α : Type} {line line' : Nat} (h : line' = f line) (step : Edit α) :
    Renumbers f (step.mapError (.rejected line)) (step.mapError (.rejected line')) := by
  intro scenario
  rw [runOn_mapError, runOn_mapError, h]
  show (((step.runOn scenario).1.mapError _), _) = _
  cases (step.runOn scenario).1 <;> rfl

/-- Lines with other numbers are read as the same tree. -/
theorem decodeLines_renumbers (lines : List (Nat × List Char)) :
    Renumbers f (decodeLines registry services lines)
      (decodeLines registry services (renumbered f lines)) := by
  intro scenario
  have hall : Reading.Renumbers f (Reading.readLines ⟨registry, scenario, services⟩ lines)
      (Reading.readLines ⟨registry, scenario, services⟩ (renumbered f lines)) :=
    Reading.readLines_renumbers lines
  have hread := hall { forest := scenario.forest }
  cases hrun : (Reading.readLines ⟨registry, scenario, services⟩ lines).runOn
      { forest := scenario.forest } with
  | mk result progress =>
      rw [hrun] at hread
      -- the two ends differ in the definition that waits, which no scenario keeps
      cases result with
      | ok root =>
          have hself : (decodeLines registry services lines).runOn scenario
              = (.ok root, { scenario with forest := progress.forest }) :=
            decodeLines_ok.mpr ⟨progress, hrun, rfl⟩
          rw [hself]
          exact decodeLines_ok.mpr ⟨progress.renumber f, hread, rfl⟩
      | error fault =>
          have hself : (decodeLines registry services lines).runOn scenario = (.error fault,
              { scenario with
                forest := removeTrees progress.forest progress.created.reverse }) :=
            decodeLines_failed.mpr ⟨progress, hrun, rfl⟩
          rw [hself]
          exact decodeLines_failed.mpr ⟨progress.renumber f, hread, rfl⟩

/-- Empty lines make no difference to what is read. -/
theorem decodeLines_filled (lines : List (Nat × List Char)) :
    (decodeLines registry services (lines.filter fun line => !line.2.isEmpty)).runOn scenario
      = (decodeLines registry services lines).runOn scenario := by
  unfold decodeLines
  rw [runOn_ofRun, runOn_ofRun]
  dsimp only
  rw [Reading.readLines_runOn, Reading.readLines_runOn lines, List.filter_filter]
  simp only [Bool.and_self]

theorem importPart_renumbers (id : TriggerId) (part : Part) :
    Renumbers f (importPart registry services id part)
      (importPart registry services id (part.renumber f)) := by
  unfold importPart
  refine .bind (.mapError (decodeLines_renumbers part.body) fun fault => ?_) fun root => ?_
  · cases fault <;> rfl
  · exact rejected_renumbers rfl _

theorem importParts_renumbers (id : TriggerId) (parts : List Part) :
    Renumbers f (importParts registry services id parts)
      (importParts registry services id (parts.map (Part.renumber f))) := by
  induction parts with
  | nil => exact .pure _
  | cons part rest ih => exact .bind (importPart_renumbers id part) fun _ => ih

/-- What is refused outside of the sections has no line, and has to stay so. -/
theorem importOutline_renumbers (h : f 0 = 0) (outline : Outline) :
    Renumbers f (importOutline registry services outline)
      (importOutline registry services (outline.renumber f)) := by
  unfold importOutline
  refine .bind (rejected_renumbers h.symm _) fun id => ?_
  refine .bind (importParts_renumbers id outline.parts) fun _ => ?_
  exact .bind (rejected_renumbers h.symm _) fun _ => .pure _

section Texts

variable {text other : String}

/-- **A tree is read whatever the numbers of its lines.** -/
theorem decode_renumbers
    (h : Text.filledLines other.toList = renumbered f (Text.filledLines text.toList)) :
    Renumbers f (decode registry services text) (decode registry services other) := by
  intro scenario
  have hall : Renumbers f (decodeLines registry services (Text.filledLines text.toList))
      (decodeLines registry services (Text.filledLines other.toList)) := by
    rw [h]
    exact decodeLines_renumbers _
  have hlines := hall scenario
  unfold Text.filledLines at hlines
  rw [id_eq, decodeLines_filled, decodeLines_filled] at hlines
  exact hlines

/-- **And so is a trigger.** -/
theorem importTrigger_renumbers (h0 : f 0 = 0)
    (h : Text.filledLines other.toList = renumbered f (Text.filledLines text.toList)) :
    Renumbers f (importTrigger registry services text) (importTrigger registry services other) := by
  unfold importTrigger
  refine .get fun before => .checked (TriggerText.outline_renumbers h) fun outline => ?_
  exact .onFailure (importOutline_renumbers h0 outline) fun _ => rfl

end Texts

end Scenario

end Rulebook

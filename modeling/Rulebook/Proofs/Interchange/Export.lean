import Rulebook.Proofs.Interchange.Encoding
import Rulebook.Proofs.Interchange.Outline

/-!
# What is written of a trigger

The text of a trigger is made of its name, whether it is enabled, and the
entries of its roots, list by list. All three are found again in the outline of
the text: an entry begins with a brace or a marker, so none can be mistaken for
the line before a root.
-/

namespace Rulebook

/-- The roots of a trigger with the lists that they stand on, list by list. -/
def Trigger.places (trigger : Trigger) : List (Clause × NodeId) :=
  Clause.all.flatMap fun clause => (trigger.roots clause).map fun root => (clause, root)

theorem Entry.head?_chars (entry : Entry) : entry.chars.head? ≠ some '@' := by
  obtain ⟨path, marker, payload⟩ := entry
  cases path with
  | nil => cases marker <;> simp [chars, Path.chars, Marker.char]
  | cons name path => simp [chars, Path.chars]

namespace TriggerText

/-- The lines of roots with these entries. -/
def entryLines (parts : List (Clause × List Entry)) : List (Clause × List (List Char)) :=
  parts.map fun part => (part.1, part.2.map Entry.chars)

/-- The text of a trigger whose roots have these entries. -/
def write (name : String) (enabled : Bool) (parts : List (Clause × List Entry)) : String :=
  String.intercalate "\n"
    ((headerLines name enabled ++ sectionLines (entryLines parts)).map String.ofList)

variable {name : String} {enabled : Bool} {parts : List (Clause × List Entry)}

theorem head?_entryLines : ∀ part ∈ entryLines parts, ∀ line ∈ part.2, line.head? ≠ some '@' := by
  intro part hp line hl
  obtain ⟨entries, _, rfl⟩ := List.mem_map.mp hp
  obtain ⟨entry, _, rfl⟩ := List.mem_map.mp hl
  exact entry.head?_chars

theorem map_ofList_lines :
    (headerLines name enabled ++ sectionLines (entryLines parts)).map String.ofList =
      String.ofList (nameMark ++ Text.escape name.toList)
        :: (if enabled then [] else [String.ofList (enabledMark ++ "false".toList)])
        ++ (parts.map fun part =>
          String.ofList (sectionLine part.1) :: part.2.map Entry.text).flatten := by
  have hsections : (sectionLines (entryLines parts)).map String.ofList
      = (parts.map fun part =>
        String.ofList (sectionLine part.1) :: part.2.map Entry.text).flatten := by
    induction parts with
    | nil => rfl
    | cons part rest ih =>
        have hcons : sectionLines (entryLines (part :: rest))
            = (sectionLine part.1 :: part.2.map Entry.chars)
              ++ sectionLines (entryLines rest) := rfl
        rw [hcons, List.map_append, ih, List.map_cons, List.map_map]
        rfl
  rw [List.map_append, hsections]
  cases enabled <;> rfl

/-- **The outline of a text has what was written.** -/
theorem outline_write (h : ∀ part ∈ parts, ∀ entry ∈ part.2,
      entry.path.Named ∧ '\n' ∉ entry.payload ∧ '\r' ∉ entry.payload) :
    ∃ found, outline (write name enabled parts).toList = .ok ⟨name, enabled, found⟩ ∧
      List.Forall₂ (fun part found => found.Holds part.1 (part.2.map Entry.chars)) parts found := by
  have hone : ∀ line ∈ headerLines name enabled ++ sectionLines (entryLines parts),
      Text.OneLine line := by
    intro line hl
    rcases List.mem_append.mp hl with hl | hl
    · exact oneLine_header hl
    · obtain ⟨⟨clause, body⟩, hp, hl⟩ := List.mem_flatMap.mp hl
      obtain ⟨part, hpart, he⟩ := List.mem_map.mp hp
      cases he
      rcases List.mem_cons.mp hl with rfl | hl
      · exact oneLine_sectionLine part.1
      · obtain ⟨entry, hentry, rfl⟩ := List.mem_map.mp hl
        obtain ⟨hpath, hpayload⟩ := h part hpart entry hentry
        exact Entry.oneLine_chars hpath hpayload
  have htext : (write name enabled parts).toList
      = ['\n'].intercalate (headerLines name enabled ++ sectionLines (entryLines parts)) := by
    have hfeed : "\n".toList = ['\n'] := rfl
    have hlines : ∀ lines : List (List Char),
        (lines.map String.ofList).map String.toList = lines := by
      intro lines
      simp [Function.comp_def]
    rw [write, String.toList_intercalate, hlines, hfeed]
  -- no line has a line end in it, so the text falls into the same lines again
  have hlaid : Text.Laid (headerLines name enabled ++ sectionLines (entryLines parts))
      (write name enabled parts).toList := by
    rw [htext, headerLines, List.cons_append]
    exact Text.laid_intercalate
  have hfound := outline_lines
    (Text.filter_numberedLines.trans (Text.filter_lines_of_laid hlaid hone)) head?_entryLines
  obtain ⟨found, houtline, hall⟩ := hfound
  exact ⟨found, houtline, List.forall₂_map_left_iff.mp hall⟩

end TriggerText

namespace Scenario

variable {registry : Registry} {scenario : Scenario} {id : TriggerId} {text : String}

theorem partLines_ok {clause : Clause} {root : NodeId} {lines : List String} :
    scenario.partLines registry clause root = .ok lines ↔
      ∃ part : Clause × List Entry, (part.1 = clause ∧
        scenario.entries registry root = .ok part.2) ∧
        lines = String.ofList (TriggerText.sectionLine part.1) :: part.2.map Entry.text := by
  rw [partLines, Check.bind_ok]
  simp only [encode_ok, Check.pure_ok]
  constructor
  · intro h
    obtain ⟨_, ⟨entries, he, rfl⟩, rfl⟩ := h
    exact ⟨(clause, entries), ⟨rfl, he⟩, rfl⟩
  · intro h
    obtain ⟨⟨_, entries⟩, ⟨rfl, he⟩, rfl⟩ := h
    exact ⟨_, ⟨entries, he, rfl⟩, rfl⟩

/-- **What is written of a trigger**, and when. -/
theorem exportTrigger_ok :
    scenario.exportTrigger registry id = .ok text ↔
      ∃ trigger parts, scenario.trigger? id = some trigger ∧
        List.Forall₂ (fun place part => part.1 = place.1 ∧
          scenario.entries registry place.2 = .ok part.2) trigger.places parts ∧
        text = TriggerText.write trigger.name trigger.enabled parts := by
  unfold exportTrigger
  cases ht : scenario.trigger? id with
  | none => simp [Check.throw_ok]
  | some trigger =>
      -- each part of the trigger is exported by itself
      have hparts : ∀ lines, trigger.places.mapM (fun place =>
          scenario.partLines registry place.1 place.2) = .ok lines ↔ _ := fun lines =>
        Check.mapM_ok.trans (SideBySide.map_iff fun place lines => partLines_ok)
      dsimp only
      rw [Check.bind_ok]
      simp only [Check.pure_ok]
      constructor
      · intro h
        obtain ⟨lines, hlines, rfl⟩ := h
        obtain ⟨parts, hall, rfl⟩ := (hparts lines).mp hlines
        refine ⟨trigger, parts, rfl, hall, ?_⟩
        rw [TriggerText.write, TriggerText.map_ofList_lines]
      · intro h
        obtain ⟨trigger', parts, ht', hall, rfl⟩ := h
        cases ht'
        refine ⟨_, (hparts _).mpr ⟨parts, hall, rfl⟩, ?_⟩
        rw [TriggerText.write, TriggerText.map_ofList_lines]

end Scenario

end Rulebook

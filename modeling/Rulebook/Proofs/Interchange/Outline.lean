import Rulebook.Interchange.TriggerText
import Rulebook.Proofs.Attempt
import Rulebook.Proofs.Interchange.LiteralText
import Rulebook.Proofs.SideBySide
import Rulebook.Proofs.Text.Escape
import Rulebook.Proofs.Text.Line

/-!
# Outlines

A text that holds a trigger falls into its header lines and the sections of its
roots. What tells them apart is the first character of a line: only headers begin
with `@`. The name of the trigger stands on a header line with its line ends
escaped, so no name can be mistaken for anything else.
-/

namespace Rulebook

namespace TriggerText

/-- The lines before the first root. -/
def headerLines (name : String) (enabled : Bool) : List (List Char) :=
  (nameMark ++ Text.escape name.toList) ::
    if enabled then [] else [enabledMark ++ "false".toList]

/-- The lines of roots, each after the line that names its list. -/
def sectionLines (sections : List (Clause × List (List Char))) : List (List Char) :=
  sections.flatMap fun (clause, body) => sectionLine clause :: body

/-- A part holds the lines of a section. -/
def Part.Holds (part : Part) (clause : Clause) (body : List (List Char)) : Prop :=
  part.clause = clause ∧ part.body.map Prod.snd = body

variable {name : String} {enabled : Bool} {clause : Clause} {line : List Char}
  {sections : List (Clause × List (List Char))}

/-! ## Lines -/

theorem oneLine_header (h : line ∈ headerLines name enabled) : Text.OneLine line := by
  have hname : Text.OneLine (nameMark ++ Text.escape name.toList) := by
    obtain ⟨hfeed, hreturn⟩ := Text.not_mem_escape name.toList
    have hmark : nameMark ≠ [] ∧ '\n' ∉ nameMark ∧ '\r' ∉ nameMark := by decide
    exact ⟨by simp [hmark], by simp [hmark, hfeed], by simp [hmark, hreturn]⟩
  unfold headerLines at h
  rcases List.mem_cons.mp h with rfl | h
  · exact hname
  · cases enabled with
    | true => exact absurd h (by simp)
    | false =>
        rw [if_neg (by simp), List.mem_singleton] at h
        subst h
        exact ⟨by decide, by decide, by decide⟩

theorem oneLine_sectionLine (clause : Clause) : Text.OneLine (sectionLine clause) := by
  cases clause <;> exact ⟨by decide, by decide, by decide⟩

theorem clauseOf?_sectionLine (clause : Clause) : clauseOf? (sectionLine clause) = some clause := by
  cases clause <;> decide

/-! ## Sections -/

/-- Lines that do not begin with `@` belong to what is before them. -/
theorem cutAtHeaders_append {body rest : List (Nat × List Char)}
    (h : ∀ line ∈ body, line.2.head? ≠ some '@') :
    cutAtHeaders (body ++ rest) = (body ++ (cutAtHeaders rest).1, (cutAtHeaders rest).2) := by
  induction body with
  | nil => rfl
  | cons line body ih =>
      have hline := h line List.mem_cons_self
      have hbody := ih fun other ho => h other (List.mem_cons_of_mem _ ho)
      rw [List.cons_append, cutAtHeaders, hbody]
      exact if_neg hline

/-- **Sections are told apart** if no line within a section begins with `@`. -/
theorem cutAtHeaders_sections (h : ∀ part ∈ sections, ∀ line ∈ part.2, line.head? ≠ some '@') :
    ∀ {numbered : List (Nat × List Char)}, numbered.map Prod.snd = sectionLines sections →
      ∃ cut, cutAtHeaders numbered = ([], cut) ∧
        List.Forall₂ (fun part found => found.1.2 = sectionLine part.1 ∧
          found.2.map Prod.snd = part.2) sections cut := by
  induction sections with
  | nil =>
      intro numbered hn
      rw [List.map_eq_nil_iff.mp hn]
      exact ⟨[], rfl, .nil⟩
  | cons part rest ih =>
      intro numbered hn
      obtain ⟨clause, body⟩ := part
      rw [sectionLines, List.flatMap_cons, List.cons_append] at hn
      obtain ⟨header, after, rfl, hheader, hafter⟩ := List.map_eq_cons_iff.mp hn
      -- the section goes on up to the next header
      obtain ⟨front, back, rfl, hfront, hback⟩ := List.map_eq_append_iff.mp hafter
      obtain ⟨cut, hcut, hparts⟩ := ih (fun other ho => h other (List.mem_cons_of_mem _ ho)) hback
      have hplain : ∀ line ∈ front, line.2.head? ≠ some '@' := by
        intro line hl
        refine h _ List.mem_cons_self line.2 ?_
        rw [← hfront]
        exact List.mem_map_of_mem hl
      refine ⟨(header, front) :: cut, ?_, .cons ⟨hheader, hfront⟩ hparts⟩
      rw [cutAtHeaders, cutAtHeaders_append hplain, hcut, List.append_nil]
      exact if_pos (by rw [hheader]; rfl)

theorem parts_sections (h : ∀ part ∈ sections, ∀ line ∈ part.2, line.head? ≠ some '@')
    {numbered : List (Nat × List Char)} (hn : numbered.map Prod.snd = sectionLines sections) :
    ∃ found, parts numbered = .ok found ∧
      List.Forall₂ (fun part found => found.Holds part.1 part.2) sections found := by
  obtain ⟨cut, hcut, hparts⟩ := cutAtHeaders_sections h hn
  have hfound : ∀ found ∈ cut, ∃ part, partOf found.1 found.2 = .ok part := by
    intro found hf
    obtain ⟨part, _, hheader, _⟩ := SideBySide.exists_left hparts hf
    unfold partOf
    rw [hheader, clauseOf?_sectionLine]
    exact ⟨_, rfl⟩
  obtain ⟨found, hall⟩ := SideBySide.exists_list hfound
  refine ⟨found, ?_, ?_⟩
  · unfold parts
    rw [hcut]
    exact Check.mapM_ok.mpr hall
  · refine (SideBySide.meet hparts.flip hall).imp ?_
    rintro ⟨clause, body⟩ part ⟨cut, _, ⟨hheader, hbody⟩, hpart⟩
    unfold partOf at hpart
    rw [hheader, clauseOf?_sectionLine] at hpart
    cases hpart
    exact ⟨rfl, hbody⟩

/-! ## Headers -/

theorem readName_header {number : Nat} :
    readName (number, nameMark ++ Text.escape name.toList) = .ok name := by
  unfold readName
  dsimp only
  rw [Text.dropStart?_append, Option.bind_some, Text.unescape?_escape]
  show Except.ok (String.ofList name.toList) = .ok name
  rw [String.ofList_toList]

/-- A trigger without a line about it is enabled. -/
theorem readEnabled_sections {numbered : List (Nat × List Char)}
    (hn : numbered.map Prod.snd = sectionLines sections) :
    readEnabled numbered = .ok (true, numbered) := by
  cases numbered with
  | nil => rfl
  | cons line rest =>
      cases sections with
      | nil => exact absurd hn (by simp [sectionLines])
      | cons part others =>
          rw [sectionLines, List.flatMap_cons, List.map_cons] at hn
          have hline : line.2 = sectionLine part.1 := (List.cons.inj hn).1
          have hnone : ∀ clause, Text.dropStart? enabledMark (sectionLine clause) = none := by
            intro clause
            cases clause <;> decide
          rw [readEnabled, hline, hnone]

theorem readEnabled_disabled {number : Nat} {rest : List (Nat × List Char)} :
    readEnabled ((number, enabledMark ++ "false".toList) :: rest) = .ok (false, rest) := by
  rw [readEnabled, Text.dropStart?_append]
  rfl

/-- **The outline of a text is found from its lines.** -/
theorem outline_lines {text : List Char}
    (hlines : ((Text.numberedLines text).filter fun line => !line.2.isEmpty).map Prod.snd
      = headerLines name enabled ++ sectionLines sections)
    (h : ∀ part ∈ sections, ∀ line ∈ part.2, line.head? ≠ some '@') :
    ∃ found, outline text = .ok ⟨name, enabled, found⟩ ∧
      List.Forall₂ (fun part found => found.Holds part.1 part.2) sections found := by
  unfold outline
  generalize ((Text.numberedLines text).filter fun line => !line.2.isEmpty) = numbered at hlines
  rw [headerLines, List.cons_append] at hlines
  obtain ⟨⟨number, header⟩, rest, rfl, hheader, hrest⟩ := List.map_eq_cons_iff.mp hlines
  have hheader' : header = nameMark ++ Text.escape name.toList := hheader
  rw [hheader']
  cases enabled with
  | true =>
      rw [if_pos rfl, List.nil_append] at hrest
      -- an enabled trigger has no line for it, so the parts follow at once
      obtain ⟨found, hparts, hfound⟩ := parts_sections h hrest
      refine ⟨found, ?_, hfound⟩
      dsimp only
      rw [readName_header, Check.bind_ok]
      refine ⟨name, rfl, ?_⟩
      rw [readEnabled_sections hrest, Check.bind_ok]
      refine ⟨_, rfl, ?_⟩
      dsimp only
      rw [hparts]
      rfl
  | false =>
      rw [if_neg (by simp), List.singleton_append] at hrest
      obtain ⟨⟨second, flag⟩, others, rfl, hflag, hothers⟩ := List.map_eq_cons_iff.mp hrest
      have hflag' : flag = enabledMark ++ "false".toList := hflag
      obtain ⟨found, hparts, hfound⟩ := parts_sections h hothers
      refine ⟨found, ?_, hfound⟩
      dsimp only
      rw [readName_header, Check.bind_ok]
      refine ⟨name, rfl, ?_⟩
      rw [hflag', readEnabled_disabled, Check.bind_ok]
      refine ⟨_, rfl, ?_⟩
      dsimp only
      rw [hparts]
      rfl

end TriggerText

end Rulebook

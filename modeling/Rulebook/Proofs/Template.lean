import Mathlib.Data.List.Basic
import Rulebook.Template

/-!
# Filling in a template

A template is read from left to right. As far as the first opening brace it stands
for itself. The brace pairs with the next closing one, and what lies between the
two is replaced if it is the name of something, and stands for itself otherwise, as
do the braces. A brace that is not closed leaves the whole rest as it is.

Said so, filling in is a relation between a template and a text, which knows nothing
of parts. That every template is cut into parts which make up such a text, and only
one, is shown here.
-/

namespace Rulebook

/-- The text comes of the template if what is in braces is replaced as `fill?` says. -/
inductive Expands (fill? : String → Option String) : List Char → List Char → Prop where
  /-- No brace is opened. -/
  | verbatim {text : List Char} : '{' ∉ text → Expands fill? text text
  /-- A brace is opened and never closed. -/
  | unmatched {text rest : List Char} : '{' ∉ text → '}' ∉ rest →
      Expands fill? (text ++ '{' :: rest) (text ++ '{' :: rest)
  /-- There is nothing of that name. -/
  | unknown {text name rest out : List Char} : '{' ∉ text → '}' ∉ name →
      fill? (String.ofList name) = none → Expands fill? rest out →
      Expands fill? (text ++ '{' :: (name ++ '}' :: rest)) (text ++ '{' :: (name ++ '}' :: out))
  | known {text name rest out : List Char} {filling : String} : '{' ∉ text → '}' ∉ name →
      fill? (String.ofList name) = some filling → Expands fill? rest out →
      Expands fill? (text ++ '{' :: (name ++ '}' :: rest)) (text ++ (filling.toList ++ out))

namespace TemplatePart

variable {text name inner rest before template : List Char} {fill? : String → Option String}

/-! ## Where a template is cut -/

theorem outside_verbatim (h : '{' ∉ text) :
    outside before text = [verbatim (before.reverse ++ text)] := by
  induction text generalizing before with
  | nil => rw [outside, List.append_nil]
  | cons c text ih =>
      obtain ⟨hc, htext⟩ := List.ne_and_not_mem_of_not_mem_cons h
      rw [outside, if_neg (Ne.symm hc), ih htext, List.reverse_cons, List.append_assoc,
        List.singleton_append]

theorem outside_opened (h : '{' ∉ text) :
    outside before (text ++ '{' :: rest) = inside (text.reverse ++ before) [] rest := by
  induction text generalizing before with
  | nil => rw [List.nil_append, outside, if_pos rfl, List.reverse_nil, List.nil_append]
  | cons c text ih =>
      obtain ⟨hc, htext⟩ := List.ne_and_not_mem_of_not_mem_cons h
      rw [List.cons_append, outside, if_neg (Ne.symm hc), ih htext, List.reverse_cons,
        List.append_assoc, List.singleton_append]

theorem inside_unmatched (h : '}' ∉ rest) :
    inside text name rest = [verbatim (text.reverse ++ '{' :: (name.reverse ++ rest))] := by
  induction rest generalizing name with
  | nil => rw [inside, List.append_nil]
  | cons c rest ih =>
      obtain ⟨hc, hrest⟩ := List.ne_and_not_mem_of_not_mem_cons h
      rw [inside, if_neg (Ne.symm hc), ih hrest, List.reverse_cons, List.append_assoc,
        List.singleton_append]

theorem inside_closed (h : '}' ∉ inner) :
    inside text name (inner ++ '}' :: rest)
      = verbatim text.reverse :: braced (name.reverse ++ inner) :: parse rest := by
  induction inner generalizing name with
  | nil => rw [List.nil_append, inside, if_pos rfl, List.append_nil, parse]
  | cons c inner ih =>
      obtain ⟨hc, hinner⟩ := List.ne_and_not_mem_of_not_mem_cons h
      rw [List.cons_append, inside, if_neg (Ne.symm hc), ih hinner, List.reverse_cons,
        List.append_assoc, List.singleton_append]

theorem parse_verbatim (h : '{' ∉ text) : parse text = [verbatim text] := by
  rw [parse, outside_verbatim h, List.reverse_nil, List.nil_append]

theorem parse_unmatched (h : '{' ∉ text) (hr : '}' ∉ rest) :
    parse (text ++ '{' :: rest) = [verbatim (text ++ '{' :: rest)] := by
  rw [parse, outside_opened h, inside_unmatched hr, List.append_nil, List.reverse_reverse,
    List.reverse_nil, List.nil_append]

theorem parse_braced (h : '{' ∉ text) (hn : '}' ∉ name) :
    parse (text ++ '{' :: (name ++ '}' :: rest)) = verbatim text :: braced name :: parse rest := by
  rw [parse, outside_opened h, inside_closed hn, List.append_nil, List.reverse_reverse,
    List.reverse_nil, List.nil_append]

/-- A template has no opening brace, or one that is never closed, or it goes on behind a pair of
braces. -/
theorem braces_induction {motive : List Char → Prop}
    (verbatim : ∀ text, '{' ∉ text → motive text)
    (unmatched : ∀ text rest, '{' ∉ text → '}' ∉ rest → motive (text ++ '{' :: rest))
    (braced : ∀ text name rest, '{' ∉ text → '}' ∉ name → motive rest →
      motive (text ++ '{' :: (name ++ '}' :: rest))) (template : List Char) : motive template := by
  by_cases hopen : '{' ∈ template
  · obtain ⟨text, after, rfl, htext⟩ := List.eq_append_cons_of_mem hopen
    by_cases hclose : '}' ∈ after
    · obtain ⟨name, rest, rfl, hname⟩ := List.eq_append_cons_of_mem hclose
      exact braced text name rest htext hname (braces_induction verbatim unmatched braced rest)
    · -- without a closing brace the rest is taken as it stands
      exact unmatched text after htext hclose
  · exact verbatim template hopen
  termination_by template.length
  decreasing_by
    subst_vars
    simp only [List.length_append, List.length_cons]
    omega

/-! ## What the parts make up -/

/-- A part as it is written. -/
def written (fill? : String → Option String) : TemplatePart → List Char
  | verbatim text => text
  | braced name =>
    match fill? (String.ofList name) with
    | some filling => filling.toList
    | none => '{' :: (name ++ ['}'])

theorem written_known {filling : String} (h : fill? (String.ofList name) = some filling) :
    written fill? (braced name) = filling.toList := by
  rw [written, h]

theorem written_unknown (h : fill? (String.ofList name) = none) :
    written fill? (braced name) = '{' :: (name ++ ['}']) := by
  rw [written, h]

theorem expands_parse (fill? : String → Option String) (template : List Char) :
    Expands fill? template ((parse template).flatMap (written fill?)) := by
  induction template using braces_induction with
  | verbatim text h =>
      rw [parse_verbatim h, List.flatMap_singleton, written]
      exact .verbatim h
  | unmatched text rest h hr =>
      rw [parse_unmatched h hr, List.flatMap_singleton, written]
      exact .unmatched h hr
  | braced text name rest h hn ih =>
      rw [parse_braced h hn, List.flatMap_cons, List.flatMap_cons]
      cases hf : fill? (String.ofList name) with
      | some filling =>
          rw [written_known hf]
          exact .known h hn hf ih
      | none =>
          rw [written_unknown hf, List.cons_append, List.append_assoc, List.singleton_append]
          exact .unknown h hn hf ih

/-- **A template is filled in in one way**, and that is what its parts make up. -/
theorem expands_iff {text : List Char} :
    Expands fill? template text ↔ text = (parse template).flatMap (written fill?) := by
  refine ⟨fun h => ?_, fun h => h ▸ expands_parse fill? template⟩
  induction h with
  | verbatim h => rw [parse_verbatim h, List.flatMap_singleton, written]
  | unmatched h hr => rw [parse_unmatched h hr, List.flatMap_singleton, written]
  | unknown h hn hf _ ih =>
      rw [parse_braced h hn, List.flatMap_cons, List.flatMap_cons, written_unknown hf, ← ih,
        written, List.cons_append, List.append_assoc, List.singleton_append]
  | known h hn hf _ ih =>
      rw [parse_braced h hn, List.flatMap_cons, List.flatMap_cons, written_known hf, ← ih, written]

end TemplatePart

end Rulebook

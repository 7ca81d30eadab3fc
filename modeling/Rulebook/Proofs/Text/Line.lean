import Rulebook.Text.Line

/-!
# Laying lines out as a text

Lines may be ended by a line feed or by a carriage return and a line feed, the
last one also by the end of the text, and any number of empty lines may stand
between them. Reading the lines of such a text finds the same lines, whichever
way they were laid out.
-/

namespace Rulebook.Text

/-- What may end a line. -/
def lineEnds : List (List Char) := [['\n'], ['\r', '\n']]

/-- The text consists of the lines in their order, each with its end, and of empty lines. -/
inductive Laid : List (List Char) → List Char → Prop where
  | nil : Laid [] []
  | last (line : List Char) : Laid [line] line
  | line {rest : List (List Char)} {text ending : List Char} (line : List Char) :
      ending ∈ lineEnds → Laid rest text → Laid (line :: rest) (line ++ ending ++ text)
  | blank {lines : List (List Char)} {text ending : List Char} :
      ending ∈ lineEnds → Laid lines text → Laid lines (ending ++ text)

/-- The characters make up one line, and not an empty one. -/
structure OneLine (line : List Char) : Prop where
  filled : line ≠ []
  noFeed : '\n' ∉ line
  noReturn : '\r' ∉ line

variable {line text ending : List Char}

theorem cutAtLineFeeds_append (h : '\n' ∉ line) :
    cutAtLineFeeds (line ++ text) = (line ++ (cutAtLineFeeds text).1, (cutAtLineFeeds text).2) := by
  induction line with
  | nil => rfl
  | cons c rest ih =>
      have hc : c ≠ '\n' := fun he => h (he ▸ List.mem_cons_self)
      have hrest := ih fun hm => h (List.mem_cons_of_mem _ hm)
      rw [List.cons_append, cutAtLineFeeds, List.foldr_cons, ← cutAtLineFeeds, hrest]
      exact if_neg hc

/-- The first line ends at the first line feed. -/
theorem lines_append (h : '\n' ∉ line) :
    lines (line ++ '\n' :: text) = dropCarriageReturn line :: lines text := by
  have hfeed : cutAtLineFeeds ('\n' :: text)
      = ([], (cutAtLineFeeds text).1 :: (cutAtLineFeeds text).2) := rfl
  unfold lines
  rw [cutAtLineFeeds_append h, hfeed, List.append_nil]
  rfl

theorem dropCarriageReturn_of_not_mem (h : '\r' ∉ line) : dropCarriageReturn line = line := by
  unfold dropCarriageReturn
  rw [if_neg]
  intro hl
  exact h (List.mem_of_getLast? hl)

theorem dropCarriageReturn_append : dropCarriageReturn (line ++ ['\r']) = line := by
  unfold dropCarriageReturn
  rw [if_pos (by simp), List.dropLast_concat]

/-- Whichever way a line is ended, it is the first line of the text. -/
theorem lines_ended (he : ending ∈ lineEnds) (hf : '\n' ∉ line) (hr : '\r' ∉ line) :
    lines (line ++ ending ++ text) = line :: lines text := by
  rcases List.mem_cons.mp he with rfl | he
  · rw [List.append_assoc, List.singleton_append, lines_append hf, dropCarriageReturn_of_not_mem hr]
  · rw [List.mem_singleton.mp he]
    -- the carriage return is part of the line until it is dropped
    have hfeed : '\n' ∉ line ++ ['\r'] := by simp [hf]
    have hsplit : line ++ ['\r', '\n'] ++ text = line ++ ['\r'] ++ '\n' :: text := by simp
    rw [hsplit, lines_append hfeed, dropCarriageReturn_append]

/-- The last line of a text needs no end, but does not count if it is empty. -/
theorem lines_last (h : '\n' ∉ line) : lines line = if line.isEmpty then [] else [line] := by
  have hcut : cutAtLineFeeds (line ++ []) = (line ++ [], []) := cutAtLineFeeds_append h
  rw [List.append_nil] at hcut
  unfold lines
  rw [hcut]
  rfl

theorem lines_of_last (h : OneLine line) : lines line = [line] := by
  have hfilled : line.isEmpty = false := by simpa using h.filled
  rw [lines_last h.noFeed, hfilled]
  rfl

/-- **The lines of a text are those that it was laid out from**, apart from the empty ones. -/
theorem filter_lines_of_laid {ls : List (List Char)} (h : Laid ls text)
    (hls : ∀ line ∈ ls, OneLine line) : (lines text).filter (fun line => !line.isEmpty) = ls := by
  induction h with
  | nil => rfl
  | last line =>
      have hline := hls line List.mem_cons_self
      have hfilled : line.isEmpty = false := by simpa using hline.filled
      simp [lines_of_last hline, hfilled]
  | line line he _ ih =>
      have hline := hls line List.mem_cons_self
      have hfilled : line.isEmpty = false := by simpa using hline.filled
      rw [lines_ended he hline.noFeed hline.noReturn, List.filter_cons_of_pos (by simp [hfilled]),
        ih fun other ho => hls other (List.mem_cons_of_mem _ ho)]
  | @blank _ text ending he _ ih =>
      -- a line end that stands alone ends an empty line
      have hempty : lines ([] ++ ending ++ text) = [] :: lines text :=
        lines_ended he (by simp) (by simp)
      rw [List.nil_append] at hempty
      rw [hempty, List.filter_cons_of_neg (by simp), ih hls]

/-- Lines with line feeds between them. -/
theorem laid_intercalate {line : List Char} {rest : List (List Char)} :
    Laid (line :: rest) (['\n'].intercalate (line :: rest)) := by
  induction rest generalizing line with
  | nil =>
      rw [List.intercalate_singleton]
      exact .last line
  | cons next rest ih =>
      rw [List.intercalate_cons_cons]
      exact .line line (by decide) ih

theorem filter_numberedLines :
    ((numberedLines text).filter fun line => !line.2.isEmpty).map Prod.snd =
      (lines text).filter fun line => !line.isEmpty := by
  unfold numberedLines
  have hmap : ∀ (ls : List (List Char)) (n : Nat),
      (((ls.zipIdx n).map fun place => (place.2 + 1, place.1)).filter
        fun line => !line.2.isEmpty).map Prod.snd = ls.filter fun line => !line.isEmpty := by
    intro ls
    induction ls with
    | nil => intro n; rfl
    | cons line rest ih =>
        intro n
        rw [List.zipIdx_cons, List.map_cons]
        by_cases hl : line = []
        · rw [List.filter_cons_of_neg (by simp [hl]), List.filter_cons_of_neg (by simp [hl]), ih]
        · rw [List.filter_cons_of_pos (by simp [hl]), List.filter_cons_of_pos (by simp [hl]),
            List.map_cons, ih]
  exact hmap _ 0

end Rulebook.Text

import Rulebook.Proofs.Text.Line

/-!
# The numbers of lines

A text can be cut where a line ends. The lines of the part before the cut are the
first lines of the text and have the same numbers there; the part after it has the
other lines. Line ends that are put in between make empty lines, and move the
number of every later line by as many.

What reads a text skips empty lines, so all that it sees are the lines that are not
empty, each with its number: `filledLines`.
-/

namespace Rulebook.Text

/-- The text as far as its first `n` lines go, line ends included. -/
def firstLines : Nat → List Char → List Char
  | 0, _ => []
  | _ + 1, [] => []
  | n + 1, c :: rest => c :: firstLines (if c = '\n' then n else n + 1) rest

/-- What comes after the first `n` lines of the text. -/
def afterLines : Nat → List Char → List Char
  | 0, text => text
  | _ + 1, [] => []
  | n + 1, c :: rest => afterLines (if c = '\n' then n else n + 1) rest

/-- The text with line ends put in after its first `n` lines. -/
def insertEnds (n : Nat) (ends : List (List Char)) (text : List Char) : List Char :=
  firstLines n text ++ (ends.flatten ++ afterLines n text)

/-- The first `n` lines of a text, as a text. -/
def upTo (n : Nat) (text : String) : String := String.ofList (firstLines n text.toList)

/-- A text with line ends put in, as a text. -/
def spaced (n : Nat) (ends : List (List Char)) (text : String) : String :=
  String.ofList (insertEnds n ends text.toList)

/-- The number that a line gets when `k` lines are put in after the first `n`. -/
def moved (n k line : Nat) : Nat := if n < line then line + k else line

/-- The lines that are not empty, with their numbers. -/
def filledLines (text : List Char) : List (Nat × List Char) :=
  (numberedLines text).filter fun line => !line.2.isEmpty

variable {n : Nat} {line text more : List Char} {ends : List (List Char)}

/-! ## Cutting a text -/

theorem firstLines_append (h : '\n' ∉ line) :
    firstLines (n + 1) (line ++ '\n' :: text) = line ++ '\n' :: firstLines n text := by
  induction line with
  | nil => rfl
  | cons c rest ih =>
      have hc : c ≠ '\n' := fun he => h (he ▸ List.mem_cons_self)
      rw [List.cons_append, firstLines, if_neg hc, ih fun hm => h (List.mem_cons_of_mem _ hm)]
      rfl

theorem afterLines_append (h : '\n' ∉ line) :
    afterLines (n + 1) (line ++ '\n' :: text) = afterLines n text := by
  induction line with
  | nil => rfl
  | cons c rest ih =>
      have hc : c ≠ '\n' := fun he => h (he ▸ List.mem_cons_self)
      rw [List.cons_append, afterLines, if_neg hc, ih fun hm => h (List.mem_cons_of_mem _ hm)]

/-- The last line is not cut. -/
theorem firstLines_last (h : '\n' ∉ line) : firstLines (n + 1) line = line := by
  induction line with
  | nil => rfl
  | cons c rest ih =>
      have hc : c ≠ '\n' := fun he => h (he ▸ List.mem_cons_self)
      rw [firstLines, if_neg hc, ih fun hm => h (List.mem_cons_of_mem _ hm)]

theorem afterLines_last (h : '\n' ∉ line) : afterLines (n + 1) line = [] := by
  induction line with
  | nil => rfl
  | cons c rest ih =>
      have hc : c ≠ '\n' := fun he => h (he ▸ List.mem_cons_self)
      rw [afterLines, if_neg hc, ih fun hm => h (List.mem_cons_of_mem _ hm)]

/-- A cut is made in a text line by line: before the first line, or after it, if it is not the
last. -/
theorem cut_induction {P : Nat → List Char → Prop} (start : ∀ text, P 0 text)
    (last : ∀ n line, '\n' ∉ line → P (n + 1) line)
    (next : ∀ n line text, '\n' ∉ line → P n text → P (n + 1) (line ++ '\n' :: text)) :
    ∀ n text, P n text := by
  intro n
  induction n with
  | zero => exact start
  | succ n ih =>
      intro text
      by_cases h : '\n' ∈ text
      · obtain ⟨line, rest, rfl, hline⟩ := List.eq_append_cons_of_mem h
        exact next n line rest hline (ih rest)
      · exact last n text h

/-! ## The lines of the parts -/

theorem length_lines_last (h : '\n' ∉ line) : (lines line).length ≤ 1 := by
  rw [lines_last h]
  split <;> simp

theorem lines_firstLines (n : Nat) (text : List Char) :
    lines (firstLines n text) = (lines text).take n := by
  induction n, text using cut_induction with
  | start text => cases text <;> rfl
  | last n line h =>
      have hlength := length_lines_last h
      rw [firstLines_last h, List.take_of_length_le (by omega)]
  | next n line text h ih => rw [firstLines_append h, lines_append h, lines_append h, ih]; rfl

theorem lines_afterLines (n : Nat) (text : List Char) :
    lines (afterLines n text) = (lines text).drop n := by
  induction n, text using cut_induction with
  | start text => cases text <;> rfl
  | last n line h =>
      have hlength := length_lines_last h
      rw [afterLines_last h, List.drop_eq_nil_of_le (by omega)]
      rfl
  | next n line text h ih => rw [afterLines_append h, lines_append h, ih]; rfl

/-- Where the text goes on after a cut, lines can be put in without touching the first ones. -/
theorem lines_firstLines_append (n : Nat) (text : List Char) (h : n < (lines text).length) :
    lines (firstLines n text ++ more) = (lines text).take n ++ lines more := by
  induction n, text using cut_induction with
  | start text => cases text <;> rfl
  | last n line hline =>
      have hlength := length_lines_last hline
      omega
  | next n line text hline ih =>
      rw [lines_append hline, List.length_cons] at h
      rw [firstLines_append hline, List.append_assoc, List.cons_append, lines_append hline,
        ih (by omega), lines_append hline]
      rfl

/-- A line end of its own ends an empty line. -/
theorem lines_ends (h : ∀ ending ∈ ends, ending ∈ lineEnds) :
    lines (ends.flatten ++ text) = List.replicate ends.length [] ++ lines text := by
  induction ends with
  | nil => rfl
  | cons ending rest ih =>
      have hempty : lines ([] ++ ending ++ (rest.flatten ++ text))
          = [] :: lines (rest.flatten ++ text) :=
        lines_ended (h ending List.mem_cons_self) (by simp) (by simp)
      rw [List.flatten_cons, List.append_assoc]
      rw [List.nil_append] at hempty
      rw [hempty, ih fun other ho => h other (List.mem_cons_of_mem _ ho)]
      rfl

/-- **Line ends that are put in between lines** make empty lines there. -/
theorem lines_insertEnds (hn : n < (lines text).length)
    (h : ∀ ending ∈ ends, ending ∈ lineEnds) :
    lines (insertEnds n ends text)
      = (lines text).take n ++ (List.replicate ends.length [] ++ (lines text).drop n) := by
  unfold insertEnds
  rw [lines_firstLines_append n text hn, lines_ends h, lines_afterLines]

/-! ## Numbers -/

/-- The lines, numbered from the one after `n`, that are not empty. -/
def filledFrom (n : Nat) (ls : List (List Char)) : List (Nat × List Char) :=
  ((ls.zipIdx n).map fun place => (place.2 + 1, place.1)).filter fun line => !line.2.isEmpty

theorem filledLines_eq (text : List Char) : filledLines text = filledFrom 0 (lines text) := rfl

variable {ls others : List (List Char)} {k : Nat}

theorem filledFrom_append :
    filledFrom n (ls ++ others) = filledFrom n ls ++ filledFrom (n + ls.length) others := by
  unfold filledFrom
  rw [List.zipIdx_append, List.map_append, List.filter_append]

/-- Empty lines count, although they are left out. -/
theorem filledFrom_replicate : filledFrom n (List.replicate k []) = [] := by
  unfold filledFrom
  rw [List.filter_eq_nil_iff]
  intro line hl
  obtain ⟨place, hp, rfl⟩ := List.mem_map.mp hl
  have hline := List.mem_replicate.mp (List.fst_mem_of_mem_zipIdx hp)
  simp [hline.2]

theorem number_bounds {found : Nat × List Char} (h : found ∈ filledFrom n ls) :
    n < found.1 ∧ found.1 ≤ n + ls.length := by
  obtain ⟨place, hp, rfl⟩ := List.mem_map.mp (List.mem_filter.mp h).1
  have hle := List.le_snd_of_mem_zipIdx hp
  have hlt := List.snd_lt_add_of_mem_zipIdx hp
  dsimp only
  omega

/-- Lines that are numbered from later on have numbers that are higher by as many. -/
theorem filledFrom_add :
    filledFrom (n + k) ls = (filledFrom n ls).map (Prod.map (· + k) id) := by
  have hindex : ls.zipIdx (n + k) = (ls.zipIdx n).map (Prod.map id (· + k)) := by
    rw [List.map_snd_add_zipIdx_eq_zipIdx, Nat.add_comm]
  have hnumber : ∀ place : List Char × Nat, (place.2 + k + 1, place.1)
      = Prod.map (· + k) id (place.2 + 1, place.1) := fun place => by
    simp only [Prod.map, id_eq, Prod.mk.injEq, and_true]
    omega
  have hfilled : ∀ numbered : List (Nat × List Char),
      (numbered.map (Prod.map (· + k) id)).filter (fun line => !line.2.isEmpty)
        = (numbered.filter fun line => !line.2.isEmpty).map (Prod.map (· + k) id) :=
    fun _ => List.filter_map
  unfold filledFrom
  rw [← hfilled, hindex, List.map_map, List.map_map]
  exact congrArg _ (List.map_congr_left fun place _ => hnumber place)

/-- Numbers grow from line to line. -/
theorem pairwise_filledFrom : (filledFrom n ls).Pairwise fun a b => a.1 < b.1 := by
  have hindex : (ls.zipIdx n).Pairwise fun a b => a.2 < b.2 := by
    rw [← List.pairwise_map, List.zipIdx_map_snd]
    exact List.pairwise_lt_range'
  refine List.Pairwise.filter _ (List.pairwise_map.mpr (hindex.imp fun h => ?_))
  dsimp only
  omega

/-- The lines before a cut are followed by those after it. -/
theorem filledLines_cut (n : Nat) (text : List Char) :
    filledLines text = filledFrom 0 ((lines text).take n)
      ++ filledFrom ((lines text).take n).length ((lines text).drop n) := by
  have happend : filledFrom 0 ((lines text).take n ++ (lines text).drop n)
      = filledFrom 0 ((lines text).take n)
        ++ filledFrom (0 + ((lines text).take n).length) ((lines text).drop n) := filledFrom_append
  rw [List.take_append_drop, Nat.zero_add] at happend
  exact happend

/-- **Line ends that are put in** move the numbers of the lines after them, and change nothing
else about the lines that are not empty. -/
theorem filledLines_insertEnds (hn : n < (lines text).length)
    (h : ∀ ending ∈ ends, ending ∈ lineEnds) :
    filledLines (insertEnds n ends text)
      = (filledLines text).map (Prod.map (moved n ends.length) id) := by
  have hfirst : ((lines text).take n).length = n := by
    rw [List.length_take]
    omega
  -- lines before the cut stay where they are, lines after it move
  have hbefore : (filledFrom 0 ((lines text).take n)).map (Prod.map (moved n ends.length) id)
      = filledFrom 0 ((lines text).take n) := by
    refine (List.map_congr_left fun line hl => ?_).trans (List.map_id _)
    have hbounds := number_bounds hl
    have hstay : moved n ends.length line.1 = line.1 := if_neg (by omega)
    exact Prod.ext hstay rfl
  have hafter : (filledFrom n ((lines text).drop n)).map (Prod.map (moved n ends.length) id)
      = filledFrom (n + ends.length) ((lines text).drop n) := by
    rw [filledFrom_add]
    refine List.map_congr_left fun line hl => ?_
    have hmove : moved n ends.length line.1 = line.1 + ends.length := if_pos (number_bounds hl).1
    exact Prod.ext hmove rfl
  rw [filledLines_cut n text, List.map_append, hfirst, hbefore, hafter, filledLines_eq,
    lines_insertEnds hn h, filledFrom_append, filledFrom_append, filledFrom_replicate,
    List.nil_append, hfirst, List.length_replicate, Nat.zero_add]

theorem filledLines_spaced {text : String} (hn : n < (lines text.toList).length)
    (h : ∀ ending ∈ ends, ending ∈ lineEnds) :
    filledLines (spaced n ends text).toList
      = (filledLines text.toList).map (Prod.map (moved n ends.length) id) := by
  rw [spaced, String.toList_ofList]
  exact filledLines_insertEnds hn h

/-- Lines up to a number, of those that come before it and those that come after it. -/
theorem filter_number {front back : List (Nat × List Char)} (hf : ∀ line ∈ front, line.1 ≤ n)
    (hb : ∀ line ∈ back, n < line.1) :
    (front ++ back).filter (fun line => line.1 ≤ n) = front := by
  have hfront : front.filter (fun line => line.1 ≤ n) = front :=
    List.filter_eq_self.mpr fun line hl => decide_eq_true (hf line hl)
  have hback : back.filter (fun line => line.1 ≤ n) = [] := by
    refine List.filter_eq_nil_iff.mpr fun line hl => ?_
    rw [decide_eq_true_iff, Nat.not_le]
    exact hb line hl
  rw [List.filter_append, hfront, hback, List.append_nil]

theorem toList_upTo (n : Nat) (text : String) :
    (upTo n text).toList = firstLines n text.toList := String.toList_ofList

/-- The first lines of a text keep their numbers. -/
theorem filledLines_firstLines (n : Nat) (text : List Char) :
    filledLines (firstLines n text) = (filledLines text).filter fun line => line.1 ≤ n := by
  rw [filledLines_cut n text, filledLines_eq, lines_firstLines]
  refine (filter_number (fun line hl => ?_) fun line hl => ?_).symm
  · have hbounds := number_bounds hl
    rw [List.length_take] at hbounds
    omega
  · have hbounds := number_bounds hl
    rw [List.length_take, List.length_drop] at hbounds
    omega

/-- A line that is not empty parts the text: what is before it, without the line or with it, is a
text of its own. -/
theorem filledLines_split {before after : List (Nat × List Char)} {found : Nat × List Char}
    (h : filledLines text = before ++ found :: after) :
    1 ≤ found.1 ∧ found.1 ≤ (lines text).length ∧
      filledLines (firstLines (found.1 - 1) text) = before ∧
      filledLines (firstLines found.1 text) = before ++ [found] := by
  have hfound : found ∈ filledLines text := by
    rw [h]
    exact List.mem_append_right _ List.mem_cons_self
  have hbounds := number_bounds hfound
  -- numbers grow, so a cut before or after the line parts the list there
  have hgrow : (before ++ found :: after).Pairwise fun a b => a.1 < b.1 := by
    rw [← h]
    exact pairwise_filledFrom
  obtain ⟨_, hrest, hcross⟩ := List.pairwise_append.mp hgrow
  have hbefore : ∀ line ∈ before, line.1 < found.1 := fun line hl =>
    hcross line hl found List.mem_cons_self
  have hafter : ∀ line ∈ after, found.1 < line.1 := (List.pairwise_cons.mp hrest).1
  refine ⟨by omega, by omega, ?_, ?_⟩
  · rw [filledLines_firstLines, h]
    refine filter_number (fun line hl => ?_) (List.forall_mem_cons.mpr ⟨?_, fun line hl => ?_⟩)
    · have hlt := hbefore line hl
      omega
    · omega
    · have hlt := hafter line hl
      omega
  · rw [filledLines_firstLines, h, List.append_cons]
    refine filter_number (List.forall_mem_append.mpr ⟨fun line hl => ?_, ?_⟩) hafter
    · exact Nat.le_of_lt (hbefore line hl)
    · exact List.forall_mem_singleton.mpr (Nat.le_refl _)

end Rulebook.Text

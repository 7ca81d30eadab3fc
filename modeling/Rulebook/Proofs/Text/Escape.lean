import Rulebook.Text.Escape

/-!
# Escaped texts

Escaping keeps a text on one line and loses nothing: reading an escaped text
gives the text back, character by character. It is also the only way to write the
text on one line, since each backslash is read together with what follows it. So in
a run of backslashes they go two by two, and a line cannot be read if there is one
that has nothing to go with.
-/

namespace Rulebook.Text

variable {c : Char} {text written : List Char}

theorem escapeChar_of_ne (hb : c ≠ '\\') (hn : c ≠ '\n') (hr : c ≠ '\r') : escapeChar c = [c] := by
  unfold escapeChar
  split <;> simp_all

/-- A character that is nothing special is read as it is. -/
theorem unescape?_cons (hb : c ≠ '\\') (rest : List Char) :
    unescape? (c :: rest) = (unescape? rest).map (c :: ·) := by
  rw [unescape?, if_neg hb]
  all_goals
    intro _ he
    exact absurd he hb

/-- One escaped character is read as that character. -/
theorem unescape?_escapeChar (c : Char) (rest : List Char) :
    unescape? (escapeChar c ++ rest) = (unescape? rest).map (c :: ·) := by
  by_cases hb : c = '\\'
  · subst hb
    rfl
  by_cases hn : c = '\n'
  · subst hn
    rfl
  by_cases hr : c = '\r'
  · subst hr
    rfl
  rw [escapeChar_of_ne hb hn hr, List.singleton_append, unescape?_cons hb]

/-- **Escaping loses nothing.** -/
theorem unescape?_escape (text : List Char) : unescape? (escape text) = some text := by
  induction text with
  | nil => rfl
  | cons c rest ih =>
      have hsplit : escape (c :: rest) = escapeChar c ++ escape rest := rfl
      rw [hsplit, unescape?_escapeChar, ih]
      rfl

theorem not_mem_escapeChar (c : Char) : '\n' ∉ escapeChar c ∧ '\r' ∉ escapeChar c := by
  unfold escapeChar
  split <;> simp_all [eq_comm]

/-- An escaped text has no line ends. -/
theorem not_mem_escape (text : List Char) : '\n' ∉ escape text ∧ '\r' ∉ escape text := by
  unfold escape
  simp only [List.mem_flatMap, not_exists, not_and]
  exact ⟨fun c _ => (not_mem_escapeChar c).1, fun c _ => (not_mem_escapeChar c).2⟩

/-- **A line is the escaped form of what is read from it**: by induction on the line, in the pieces
in which it is read. -/
theorem escape_of_unescape? (h : unescape? written = some text) (hn : '\n' ∉ written)
    (hr : '\r' ∉ written) : escape text = written := by
  fun_induction unescape? written generalizing text with
  | case1 =>
      cases h
      rfl
  | case2 rest ih | case3 rest ih | case4 rest ih =>
      obtain ⟨read, hread, rfl⟩ := Option.map_eq_some_iff.mp h
      have hrest := ih hread (by simp_all) (by simp_all)
      rw [← hrest]
      rfl
  | case5 rest => exact absurd h (by simp)
  | case6 c rest _ _ _ hb ih =>
      obtain ⟨read, hread, rfl⟩ := Option.map_eq_some_iff.mp h
      -- any other character stands for itself, and it is not one that would be escaped
      obtain ⟨hcn, hn⟩ := not_or.mp (mt List.mem_cons.mpr hn)
      obtain ⟨hcr, hr⟩ := not_or.mp (mt List.mem_cons.mpr hr)
      have hsplit : escape (c :: read) = escapeChar c ++ escape read := rfl
      rw [hsplit, escapeChar_of_ne hb (Ne.symm hcn) (Ne.symm hcr), ih hread hn hr,
        List.singleton_append]

/-! ## Backslashes that escape nothing -/

/-- The character at a place is escaped: before it stands a backslash that is not itself escaped. -/
def Escaped (written : List Char) : (place : Nat) → Prop
  | 0 => False
  | place + 1 => written[place]? = some '\\' ∧ ¬ Escaped written place

/-- At a place stands a backslash that is not itself escaped. It is the last character, or the next
one is not among those that can be escaped. -/
structure Stray (written : List Char) (place : Nat) : Prop where
  backslash : written[place]? = some '\\'
  free : ¬ Escaped written place
  next : ∀ c, written[place + 1]? = some c → c ≠ '\\' ∧ c ≠ 'n' ∧ c ≠ 'r'

/-- What follows a front whose last character escapes nothing is escaped as if it stood alone. -/
theorem escaped_append {front rest : List Char} (h : ¬ Escaped (front ++ rest) front.length)
    (place : Nat) : Escaped (front ++ rest) (front.length + place) ↔ Escaped rest place := by
  induction place with
  | zero => exact iff_of_false h id
  | succ place ih =>
      show (front ++ rest)[front.length + place]? = some '\\' ∧
        ¬ Escaped (front ++ rest) (front.length + place) ↔ _ ∧ _
      rw [ih, List.getElem?_append_right (Nat.le_add_right _ _), Nat.add_sub_cancel_left]

theorem stray_append {front rest : List Char} (h : ¬ Escaped (front ++ rest) front.length)
    (place : Nat) : Stray (front ++ rest) (front.length + place) ↔ Stray rest place := by
  have hget : ∀ i, (front ++ rest)[front.length + i]? = rest[i]? := fun i => by
    rw [List.getElem?_append_right (Nat.le_add_right _ _), Nat.add_sub_cancel_left]
  constructor
  · intro hs
    exact ⟨(hget place).symm.trans hs.backslash, mt (escaped_append h place).mpr hs.free,
      fun c hc => hs.next c ((hget (place + 1)).trans hc)⟩
  · intro hs
    exact ⟨(hget place).trans hs.backslash, mt (escaped_append h place).mp hs.free,
      fun c hc => hs.next c ((hget (place + 1)).symm.trans hc)⟩

/-- A front without strays in it does not matter. -/
theorem exists_stray_append (front : List Char) {rest : List Char}
    (h : ¬ Escaped (front ++ rest) front.length)
    (hfront : ∀ place < front.length, ¬ Stray (front ++ rest) place) :
    (∃ place, Stray (front ++ rest) place) ↔ ∃ place, Stray rest place := by
  constructor
  · intro hs
    obtain ⟨place, hs⟩ := hs
    have hle : front.length ≤ place := Nat.le_of_not_lt fun hlt => hfront place hlt hs
    obtain ⟨beyond, rfl⟩ := Nat.exists_eq_add_of_le hle
    exact ⟨beyond, (stray_append h beyond).mp hs⟩
  · intro hs
    obtain ⟨place, hs⟩ := hs
    exact ⟨front.length + place, (stray_append h place).mpr hs⟩

/-- A character that is no backslash is no stray one and escapes nothing. -/
theorem exists_stray_cons {rest : List Char} (hb : c ≠ '\\') :
    (∃ place, Stray (c :: rest) place) ↔ ∃ place, Stray rest place := by
  refine exists_stray_append [c] (fun he => hb (Option.some.inj he.1)) fun place hlt hs => ?_
  obtain rfl : place = 0 := Nat.lt_one_iff.mp hlt
  exact hb (Option.some.inj hs.backslash)

/-- The backslash of an escape is no stray one, and neither is what it escapes. -/
theorem exists_stray_pair {rest : List Char} (hc : c = '\\' ∨ c = 'n' ∨ c = 'r') :
    (∃ place, Stray ('\\' :: c :: rest) place) ↔ ∃ place, Stray rest place := by
  have hescaped : Escaped ('\\' :: c :: rest) 1 := ⟨rfl, id⟩
  refine exists_stray_append ['\\', c] (fun he => he.2 hescaped) fun place hlt hs => ?_
  match place, hlt with
  | 0, _ =>
      obtain ⟨hb, hn, hr⟩ := hs.next c rfl
      rcases hc with hc | hc | hc
      · exact hb hc
      · exact hn hc
      · exact hr hc
  | 1, _ => exact hs.free hescaped

/-- **A line cannot be read exactly if a backslash in it escapes nothing.** -/
theorem unescape?_eq_none_iff : unescape? written = none ↔ ∃ place, Stray written place := by
  fun_induction unescape? written with
  | case1 => exact iff_of_false (by simp) fun ⟨place, hs⟩ => absurd hs.backslash (by simp)
  | case2 rest ih => rw [Option.map_eq_none_iff, ih, exists_stray_pair (.inl rfl)]
  | case3 rest ih => rw [Option.map_eq_none_iff, ih, exists_stray_pair (.inr (.inl rfl))]
  | case4 rest ih => rw [Option.map_eq_none_iff, ih, exists_stray_pair (.inr (.inr rfl))]
  | case5 rest hb hn hr =>
      refine iff_of_true rfl ⟨0, rfl, id, fun c hc => ?_⟩
      have hrest : rest = c :: rest.tail := by
        cases rest with
        | nil => exact absurd hc (by simp)
        | cons first others => rw [List.tail_cons, Option.some.inj hc]
      refine ⟨fun he => hb rest.tail rfl ?_, fun he => hn rest.tail rfl ?_,
        fun he => hr rest.tail rfl ?_⟩
      all_goals rwa [← he]
  | case6 c rest _ _ _ hb ih => rw [Option.map_eq_none_iff, ih, exists_stray_cons hb]

/-- **Escaping and reading undo each other on single lines.** A text is written without line ends
and read back; a line without them is what is written for the text that is read from it; and only a
backslash that escapes nothing keeps a line from being read. -/
theorem escape_unescape (text written : List Char) :
    ('\r' ∉ escape text ∧ '\n' ∉ escape text ∧ unescape? (escape text) = some text) ∧
      ('\r' ∉ written → '\n' ∉ written → unescape? written = some text → escape text = written) ∧
      (unescape? written = none ↔ ∃ place, Stray written place) :=
  ⟨⟨(not_mem_escape text).2, (not_mem_escape text).1, unescape?_escape text⟩,
    fun hr hn h => escape_of_unescape? h hn hr, unescape?_eq_none_iff⟩

/-- Of three backslashes the third goes with what follows, and is stray if nothing does. -/
theorem escape_unescape_backslashes :
    unescape? ['\\', '\\', '\\', 'n'] = some ['\\', '\n'] ∧
      escape ['\\', '\n'] = ['\\', '\\', '\\', 'n'] ∧
      Stray ['\\', '\\', '\\'] 2 ∧ unescape? ['\\', '\\', '\\'] = none := by
  have hread : unescape? ['\\', '\\', '\\', 'n'] = some ['\\', '\n'] := by decide
  have hstray : Stray ['\\', '\\', '\\'] 2 := ⟨rfl, fun he => he.2 ⟨rfl, id⟩, by simp⟩
  exact ⟨hread, (escape_unescape _ _).2.1 (by decide) (by decide) hread, hstray,
    (escape_unescape [] _).2.2.mpr ⟨2, hstray⟩⟩

end Rulebook.Text

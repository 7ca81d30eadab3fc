import Rulebook.Proofs.Interchange.Reading

/-!
# A line is cut in one way

A line is cut from the front: names in braces as long as there are any, then a marker,
and what is left is the payload. Which slot of which path that is may also be found
from the back, at the last brace of the path that opens. A name holds no braces, so
the first brace that closes ends a name, and the last one that opens begins one. What
the payload holds is never looked at, as the path is over where the marker stands.
-/

namespace Rulebook

/-- A text made of names in braces, one after the other. -/
inductive Segmented : List Char → Prop where
  | nil : Segmented []
  | cons {name rest : List Char} : isName name = true → Segmented rest →
      Segmented ('{' :: name ++ '}' :: rest)

/-! ## Written paths -/

namespace Path

variable {path other : Path} {name : String} {written front : List Char}

theorem chars_cons (name : String) (path : Path) :
    chars (name :: path) = '{' :: name.toList ++ '}' :: chars path := by
  simp [chars]

theorem chars_concat (path : Path) (name : String) :
    chars (path ++ [name]) = chars path ++ '{' :: name.toList ++ ['}'] := by
  simp [chars]

theorem chars_eq_nil : chars path = [] ↔ path = [] := by
  cases path with
  | nil => simp [chars]
  | cons name path => simp [chars_cons]

/-- **The paths that are written** are the texts made of segments. -/
theorem segmented_iff : Segmented written ↔ ∃ path : Path, path.Named ∧ chars path = written := by
  constructor
  · intro h
    induction h with
    | nil => exact ⟨[], named_nil, rfl⟩
    | @cons name rest hname _ ih =>
        obtain ⟨path, hnamed, rfl⟩ := ih
        refine ⟨String.ofList name :: path, List.forall_mem_cons.mpr ⟨?_, hnamed⟩, ?_⟩
        · rwa [String.toList_ofList]
        · rw [chars_cons, String.toList_ofList]
  · rintro ⟨path, hnamed, rfl⟩
    induction path with
    | nil => exact .nil
    | cons name path ih =>
        obtain ⟨hname, hnamed⟩ := List.forall_mem_cons.mp hnamed
        rw [chars_cons]
        exact .cons hname (ih hnamed)

theorem Named.segmented (h : path.Named) : Segmented (chars path) :=
  segmented_iff.mpr ⟨path, h, rfl⟩

/-- A written path says which path it is. -/
theorem chars_inj (h : path.Named) (ho : other.Named) (he : chars path = chars other) :
    path = other := by
  have hentry :
      (⟨path, .definition, []⟩ : Entry).chars = (⟨other, .definition, []⟩ : Entry).chars := by
    rw [Entry.chars, Entry.chars, he]
  exact congrArg Entry.path (Entry.chars_inj h ho hentry)

/-! ## The cut at the last brace -/

/-- What is before the last opening brace of a text, and what is after it, less the last character,
which should be the brace that closes. -/
def cutAtLastBrace? (written : List Char) : Option (List Char × List Char) :=
  match written.reverse.dropWhile (· ≠ '{') with
  | [] => none
  | _ :: front => some (front.reverse, (written.drop (front.length + 1)).dropLast)

theorem cutAtLastBrace?_concat {name : List Char} (h : '{' ∉ name) :
    cutAtLastBrace? (front ++ '{' :: name ++ ['}']) = some (front, name) := by
  have hreverse : (front ++ '{' :: name ++ ['}']).reverse
      = ('}' :: name.reverse) ++ '{' :: front.reverse := by simp
  have hskip : ∀ c ∈ '}' :: name.reverse, (decide (c ≠ '{')) = true := by
    intro c hc
    rcases List.mem_cons.mp hc with rfl | hc
    · decide
    · exact decide_eq_true fun he => h (he ▸ List.mem_reverse.mp hc)
  rw [cutAtLastBrace?, hreverse, List.dropWhile_append_of_pos hskip]
  simp

theorem split?_eq_none : path.split? = none ↔ path = [] := by
  rw [split?, Option.map_eq_none_iff, List.getLast?_eq_none_iff]

/-- **The cut from the back** finds the path above and the slot there. -/
theorem cutAtLastBrace?_chars (h : path.Named) :
    cutAtLastBrace? (chars path)
      = path.split?.map fun parts => (chars parts.1, parts.2.toList) := by
  cases hs : path.split? with
  | none =>
      obtain rfl := split?_eq_none.mp hs
      rfl
  | some parts =>
      obtain ⟨above, name⟩ := parts
      obtain rfl := split?_eq_some.mp hs
      have hname : isName name.toList = true := h name (by simp)
      have hbrace : '{' ∉ name.toList := fun hm =>
        absurd (isNameChar_of_mem hname hm) (by decide)
      rw [chars_concat, cutAtLastBrace?_concat hbrace]
      rfl

/-- A path leads to a slot of another exactly if it is written so. -/
theorem split?_iff_chars {above : Path} (h : path.Named) :
    path.split? = some (above, name) ↔ above.Named ∧ isName name.toList = true ∧
      chars path = chars above ++ '{' :: name.toList ++ ['}'] := by
  rw [split?_eq_some]
  constructor
  · rintro rfl
    obtain ⟨habove, hname⟩ := List.forall_mem_append.mp h
    exact ⟨habove, hname name (List.mem_singleton_self name), chars_concat above name⟩
  · intro ⟨habove, hname, hchars⟩
    exact chars_inj h (habove.concat hname) (hchars.trans (chars_concat above name).symm)

end Path

namespace Entry

variable {line : List Char} {entry : Entry}

theorem marker_char (marker : Marker) : marker.char = '#' ∨ marker.char = '$' := by
  cases marker with
  | definition => exact .inl rfl
  | value => exact .inr rfl

theorem exists_marker {c : Char} (h : c = '#' ∨ c = '$') : ∃ marker : Marker, marker.char = c := by
  rcases h with rfl | rfl
  · exact ⟨.definition, rfl⟩
  · exact ⟨.value, rfl⟩

/-- **Any three parts of a line** are those that it is read as. -/
theorem parse_of_parts {path : List Char} {marker : Char} (hpath : Segmented path)
    (hmarker : marker = '#' ∨ marker = '$') (payload : List Char) :
    ∃ entry, parse (path ++ marker :: payload) = .ok entry ∧ Path.chars entry.path = path ∧
      entry.marker.char = marker ∧ entry.payload = payload := by
  obtain ⟨names, hnamed, rfl⟩ := Path.segmented_iff.mp hpath
  obtain ⟨sign, rfl⟩ := exists_marker hmarker
  have hparse : parse (Entry.chars ⟨names, sign, payload⟩) = .ok ⟨names, sign, payload⟩ :=
    parse_chars hnamed
  exact ⟨_, hparse, rfl, rfl, rfl⟩

/-- How a line is cut. -/
structure Cuts (line : List Char) : Prop where
  /-- It is read exactly if it has three parts: segments, a marker, and any text. -/
  accepted : (∃ entry, parse line = .ok entry) ↔ ∃ path marker payload, Segmented path ∧
    (marker = '#' ∨ marker = '$') ∧ line = path ++ marker :: payload
  /-- What is read are three such parts. -/
  parts : ∀ {entry}, parse line = .ok entry → Segmented (Path.chars entry.path) ∧
    line = Path.chars entry.path ++ entry.marker.char :: entry.payload
  /-- The line has no others. -/
  unique : ∀ {entry path marker payload}, parse line = .ok entry → Segmented path →
    marker = '#' ∨ marker = '$' → line = path ++ marker :: payload →
    path = Path.chars entry.path ∧ marker = entry.marker.char ∧ payload = entry.payload
  /-- Only the empty path leads to no slot. -/
  root : ∀ {entry}, parse line = .ok entry →
    (entry.path.split? = none ↔ Path.chars entry.path = [])
  /-- Any other path is written as the path above with the name of the slot behind it. -/
  below : ∀ {entry above name}, parse line = .ok entry →
    (entry.path.split? = some (above, name) ↔ above.Named ∧ isName name.toList = true ∧
      Path.chars entry.path = Path.chars above ++ '{' :: name.toList ++ ['}'])
  /-- That cut is the one at the last brace that opens. -/
  back : ∀ {entry}, parse line = .ok entry → Path.cutAtLastBrace? (Path.chars entry.path)
    = entry.path.split?.map fun parts => (Path.chars parts.1, parts.2.toList)

/-- **Every line is cut in one way**, or in none. -/
theorem cuts (line : List Char) : Cuts line := by
  have hnamed : ∀ {entry}, parse line = .ok entry → entry.path.Named := fun h => (parse_ok.mp h).1
  refine ⟨?accepted, ?parts, ?unique, ?root, ?below, ?back⟩
  case accepted =>
    constructor
    · intro ⟨entry, h⟩
      exact ⟨_, _, _, (hnamed h).segmented, marker_char entry.marker, (parse_ok.mp h).2⟩
    · intro ⟨path, marker, payload, hpath, hmarker, hline⟩
      obtain ⟨entry, hentry, _⟩ := parse_of_parts hpath hmarker payload
      exact ⟨entry, hline ▸ hentry⟩
  case parts =>
    intro entry h
    exact ⟨(hnamed h).segmented, (parse_ok.mp h).2⟩
  case unique =>
    intro entry path marker payload h hpath hmarker hline
    -- parsing the line gives these parts back, and parsing has one outcome
    obtain ⟨other, hother, rfl, rfl, rfl⟩ := parse_of_parts hpath hmarker payload
    rw [← hline, h] at hother
    cases hother
    exact ⟨rfl, rfl, rfl⟩
  case root =>
    intro entry h
    rw [Path.split?_eq_none, Path.chars_eq_nil]
  case below =>
    intro entry above name h
    exact Path.split?_iff_chars (hnamed h)
  case back =>
    intro entry h
    exact Path.cutAtLastBrace?_chars (hnamed h)

/-- The braces and the dollar sign of the payload are no path and no marker. -/
theorem cuts_braces :
    Cuts "\x7bleft\x7d\x7ba_1\x7d#é\x7bb\x7d$".toList ∧
      parse "\x7bleft\x7d\x7ba_1\x7d#é\x7bb\x7d$".toList
        = .ok ⟨["left", "a_1"], .definition, "é\x7bb\x7d$".toList⟩ :=
  ⟨cuts _, by decide +kernel⟩

end Entry

end Rulebook

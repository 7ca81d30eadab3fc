import Rulebook.Interchange.Entry
import Rulebook.Proofs.Text.Line

/-!
# Entries are read as they were written

The names on a path hold no braces, so the first brace that closes is the end
of a name, and what follows the last name begins with a marker. Nothing in the
payload is ever looked at. No other line is read as an entry.
-/

namespace Rulebook

/-- Every step of the path is a name. -/
def Path.Named (path : Path) : Prop := ∀ name ∈ path, isName name.toList = true

theorem Path.named_nil : Path.Named [] := by simp [Path.Named]

theorem Path.Named.concat {path : Path} {name : String} (h : path.Named)
    (hn : isName name.toList = true) : (path ++ [name]).Named := by
  intro other ho
  rcases List.mem_append.mp ho with ho | ho
  · exact h other ho
  · rw [List.mem_singleton.mp ho]
    exact hn

theorem isNameChar_of_isNameStart {c : Char} (h : isNameStart c = true) : isNameChar c = true := by
  unfold isNameStart isNameChar at *
  simp only [Char.isAlphanum, Bool.or_eq_true] at *
  rcases h with h | h
  · exact Or.inl (Or.inl h)
  · exact Or.inr h

theorem isNameChar_of_mem {name : List Char} (h : isName name = true) {c : Char} (hc : c ∈ name) :
    isNameChar c = true := by
  cases name with
  | nil => simp at hc
  | cons first rest =>
      unfold isName at h
      rw [Bool.and_eq_true, List.all_eq_true] at h
      rcases List.mem_cons.mp hc with rfl | hc
      · exact isNameChar_of_isNameStart h.1
      · exact h.2 c hc

theorem not_mem_of_isName {name : List Char} (h : isName name = true) :
    '}' ∉ name ∧ '\n' ∉ name ∧ '\r' ∉ name := by
  refine ⟨fun hm => ?_, fun hm => ?_, fun hm => ?_⟩
  · exact absurd (isNameChar_of_mem h hm) (by decide)
  · exact absurd (isNameChar_of_mem h hm) (by decide)
  · exact absurd (isNameChar_of_mem h hm) (by decide)

namespace Entry

theorem parseName_append {names : List String} {name rest : List Char} (hbrace : '}' ∉ name) :
    ∀ {read : List Char}, isName (read.reverse ++ name) = true →
      parseName names read (name ++ '}' :: rest) =
        parseFrom (String.ofList (read.reverse ++ name) :: names) rest := by
  induction name with
  | nil =>
      intro read h
      rw [List.append_nil] at h ⊢
      rw [List.nil_append, parseName, if_pos rfl, if_pos h]
  | cons c name ih =>
      intro read h
      have hc : c ≠ '}' := fun he => hbrace (he ▸ List.mem_cons_self)
      have hsplit : read.reverse ++ c :: name = (c :: read).reverse ++ name := by simp
      rw [hsplit] at h ⊢
      rw [List.cons_append, parseName, if_neg hc]
      exact ih (fun hm => hbrace (List.mem_cons_of_mem _ hm)) h

theorem parseFrom_append {path : Path} {rest : List Char} :
    ∀ {names : List String}, path.Named →
      parseFrom names (Path.chars path ++ rest) = parseFrom (path.reverse ++ names) rest := by
  induction path with
  | nil => intro names _; rfl
  | cons name path ih =>
      intro names h
      have hname : isName name.toList = true := h name List.mem_cons_self
      have hread : parseName names [] (name.toList ++ '}' :: (Path.chars path ++ rest)) =
          parseFrom (String.ofList name.toList :: names) (Path.chars path ++ rest) :=
        parseName_append (not_mem_of_isName hname).1 hname
      have hsplit : Path.chars (name :: path) ++ rest =
          '{' :: (name.toList ++ '}' :: (Path.chars path ++ rest)) := by
        simp [Path.chars]
      -- the names that were read are kept in reverse
      rw [hsplit, parseFrom, if_pos rfl, hread, String.ofList_toList,
        ih fun other ho => h other (List.mem_cons_of_mem _ ho), List.reverse_cons,
        List.append_assoc, List.singleton_append]

/-- **An entry is read from its line.** -/
theorem parse_chars {entry : Entry} (h : Path.Named entry.path) :
    parse entry.chars = .ok entry := by
  obtain ⟨path, marker, payload⟩ := entry
  unfold parse chars
  rw [parseFrom_append h, List.append_nil, parseFrom]
  cases marker with
  | definition => simp [Marker.char, Marker.ofChar?]
  | value => simp [Marker.char, Marker.ofChar?]

/-- What was read of a line is what the line says: by induction on the line, for a path and for a
name in the middle of one. -/
theorem parse_sound (line : List Char) :
    (∀ names entry, parseFrom names line = .ok entry →
      ∃ path : Path, path.Named ∧ entry.path = names.reverse ++ path ∧
        line = Path.chars path ++ entry.marker.char :: entry.payload) ∧
    (∀ names read entry, parseName names read line = .ok entry →
      ∃ (name : List Char) (path : Path), isName (read.reverse ++ name) = true ∧ path.Named ∧
        entry.path = names.reverse ++ String.ofList (read.reverse ++ name) :: path ∧
        line = name ++ '}' :: (Path.chars path ++ entry.marker.char :: entry.payload)) := by
  induction line with
  | nil =>
      refine ⟨fun names entry h => ?_, fun names read entry h => ?_⟩
      · simp [parseFrom] at h
      · simp [parseName] at h
  | cons c rest ih =>
      obtain ⟨hfrom, hname⟩ := ih
      refine ⟨fun names entry h => ?_, fun names read entry h => ?_⟩
      · rw [parseFrom] at h
        split at h
        · rename_i hc
          obtain ⟨name, path, hn, hp, he, hl⟩ := hname _ _ _ h
          rw [List.reverse_nil, List.nil_append] at hn he
          refine ⟨String.ofList name :: path, ?_, he, ?_⟩
          · intro other ho
            rcases List.mem_cons.mp ho with rfl | ho
            · rw [String.toList_ofList]
              exact hn
            · exact hp other ho
          · rw [hc, hl]
            simp [Path.chars]
        · -- no brace, so the marker ends the path
          split at h
          · rename_i marker hm
            cases h
            refine ⟨[], Path.named_nil, (List.append_nil _).symm, ?_⟩
            have hchar : c = marker.char := by
              unfold Marker.ofChar? at hm
              split at hm
              · cases hm
                assumption
              · split at hm
                · cases hm
                  assumption
                · exact absurd hm (by simp)
            rw [hchar]
            rfl
          · exact absurd h (by simp)
      · rw [parseName] at h
        split at h
        · rename_i hc
          split at h
          · rename_i hn
            -- the brace closes the name, and the path goes on
            obtain ⟨path, hp, he, hl⟩ := hfrom _ _ h
            refine ⟨[], path, by rw [List.append_nil]; exact hn, hp, ?_, by rw [hc, hl]; rfl⟩
            rw [he, List.append_nil, List.reverse_cons, List.append_assoc]
            rfl
          · exact absurd h (by simp)
        · obtain ⟨name, path, hn, hp, he, hl⟩ := hname _ _ _ h
          have hsplit : (c :: read).reverse ++ name = read.reverse ++ c :: name := by simp
          rw [hsplit] at hn he
          exact ⟨c :: name, path, hn, hp, he, by rw [hl]; rfl⟩

/-- **A line is read as an entry exactly if it is the line of that entry.** -/
theorem parse_ok {line : List Char} {entry : Entry} :
    parse line = .ok entry ↔ entry.path.Named ∧ line = entry.chars := by
  constructor
  · intro h
    obtain ⟨path, hp, he, hl⟩ := (parse_sound line).1 [] entry h
    rw [List.reverse_nil, List.nil_append] at he
    rw [← he] at hp hl
    exact ⟨hp, hl⟩
  · intro h
    obtain ⟨hn, rfl⟩ := h
    exact parse_chars hn

/-- The line of an entry says which entry it is. -/
theorem chars_inj {entry other : Entry} (hn : entry.path.Named) (ho : other.path.Named)
    (h : entry.chars = other.chars) : entry = other := by
  have hparse := parse_chars hn
  rw [h, parse_chars ho] at hparse
  exact (Except.ok.inj hparse).symm

/-- The line of an entry is one line if its payload has no line ends. -/
theorem oneLine_chars {entry : Entry} (h : Path.Named entry.path)
    (hp : '\n' ∉ entry.payload ∧ '\r' ∉ entry.payload) : Text.OneLine entry.chars := by
  obtain ⟨path, marker, payload⟩ := entry
  have hpath : ∀ c, (∀ name ∈ path, c ∉ name.toList) → c ≠ '{' → c ≠ '}' → c ∉ Path.chars path := by
    intro c hname hopen hclose hm
    obtain ⟨name, hn, hc⟩ := List.mem_flatMap.mp hm
    simp only [List.mem_cons, List.mem_append, List.not_mem_nil, or_false] at hc
    rcases hc with (hc | hc) | hc
    · exact hopen hc
    · exact hname name hn hc
    · exact hclose hc
  have hfeed :=
    hpath '\n' (fun name hn => (not_mem_of_isName (h name hn)).2.1) (by decide) (by decide)
  have hreturn :=
    hpath '\r' (fun name hn => (not_mem_of_isName (h name hn)).2.2) (by decide) (by decide)
  have hmarker : marker.char ≠ '\n' ∧ marker.char ≠ '\r' := by cases marker <;> decide
  unfold chars
  constructor
  · simp
  · simp [hfeed, hp.1, hmarker.1.symm]
  · simp [hreturn, hp.2, hmarker.2.symm]

end Entry

end Rulebook

import Mathlib.Data.List.Basic
import Mathlib.Data.List.TakeDrop
import Mathlib.Data.List.TakeWhile
import Rulebook.ResourceKey

/-!
# A text is a key in one way

The characters of a key are few, and the colon is not among them. So a text made of
two halves with a colon between them has one colon only: what is cut there are the
halves, and whoever puts two halves together and reads the text gets them back.
-/

namespace Rulebook

/-- An ASCII letter or digit, or one of `_ - . /`. -/
def IsKeyLetter (c : Char) : Prop :=
  ('A' ≤ c ∧ c ≤ 'Z') ∨ ('a' ≤ c ∧ c ≤ 'z') ∨ ('0' ≤ c ∧ c ≤ '9') ∨ c ∈ ['_', '-', '.', '/']

/-- A text that may be one half of a key. -/
structure IsKeyHalf (part : String) : Prop where
  nonempty : part ≠ ""
  letters : ∀ c ∈ part.toList, IsKeyLetter c

theorem isKeyChar_iff {c : Char} : isKeyChar c = true ↔ IsKeyLetter c := by
  have hupper : c.isUpper = true ↔ 'A' ≤ c ∧ c ≤ 'Z' := decide_eq_true_iff
  have hlower : c.isLower = true ↔ 'a' ≤ c ∧ c ≤ 'z' := by
    show (decide ('a' ≤ c) && decide (c ≤ 'z')) = true ↔ _
    rw [Bool.and_eq_true, decide_eq_true_eq, decide_eq_true_eq]
  have hdigit : c.isDigit = true ↔ '0' ≤ c ∧ c ≤ '9' := by
    show (decide ('0' ≤ c) && decide (c ≤ '9')) = true ↔ _
    rw [Bool.and_eq_true, decide_eq_true_eq, decide_eq_true_eq]
  show (((c.isUpper || c.isLower) || c.isDigit) || c == '_' || c == '-' || c == '.' || c == '/')
    = true ↔ _
  simp only [IsKeyLetter, Bool.or_eq_true, hupper, hlower, hdigit, beq_iff_eq, List.mem_cons,
    List.not_mem_nil, or_false, or_assoc]

instance : DecidablePred IsKeyLetter := fun _ => decidable_of_iff _ isKeyChar_iff

theorem isKeyPart_iff {part : String} : isKeyPart part.toList = true ↔ IsKeyHalf part := by
  rw [isKeyPart, Bool.and_eq_true, Bool.not_eq_true', List.isEmpty_eq_false_iff, List.all_eq_true,
    ne_eq, String.toList_eq_nil_iff]
  simp only [isKeyChar_iff]
  exact ⟨fun ⟨hne, hall⟩ => ⟨hne, hall⟩, fun h => ⟨h.nonempty, h.letters⟩⟩

theorem IsKeyHalf.colon_not_mem {part : String} (h : IsKeyHalf part) : ':' ∉ part.toList := by
  intro hm
  exact absurd (h.letters ':' hm) (by decide)

namespace ResourceKey

variable {key : ResourceKey} {text space path : String}

theorem half_space (key : ResourceKey) : IsKeyHalf key.space := isKeyPart_iff.mp key.space_ok

theorem half_path (key : ResourceKey) : IsKeyHalf key.path := isKeyPart_iff.mp key.path_ok

theorem toList_joined (space path : String) :
    (space ++ ":" ++ path).toList = space.toList ++ ':' :: path.toList := by
  rw [String.toList_append, String.toList_append, List.append_assoc]
  rfl

theorem toList_text : key.text.toList = key.space.toList ++ ':' :: key.path.toList :=
  toList_joined key.space key.path

/-- The cut at the first colon. -/
theorem span_colon {front : List Char} (h : ':' ∉ front) (rest : List Char) :
    (front ++ ':' :: rest).span (fun c => decide (c ≠ ':')) = (front, ':' :: rest) := by
  have hfront : ∀ c ∈ front, decide (c ≠ ':') = true := fun c hc =>
    decide_eq_true fun he => h (he ▸ hc)
  rw [List.span_eq_takeWhile_dropWhile, List.takeWhile_append_of_pos hfront,
    List.dropWhile_append_of_pos hfront]
  simp

theorem parse?_append (h : ':' ∉ space.toList) :
    parse? (space ++ ":" ++ path) = ofParts? space path := by
  unfold parse?
  rw [toList_joined, span_colon h]
  show ofParts? (String.ofList space.toList) (String.ofList path.toList) = _
  rw [String.ofList_toList, String.ofList_toList]

/-- Two texts make a key exactly if each may be one half of it. -/
theorem ofParts?_eq_some : ofParts? space path = some key ↔
    IsKeyHalf space ∧ IsKeyHalf path ∧ key.space = space ∧ key.path = path := by
  constructor
  · intro h
    unfold ofParts? at h
    split at h
    next hspace =>
      split at h
      next hpath =>
        cases h
        exact ⟨isKeyPart_iff.mp hspace, isKeyPart_iff.mp hpath, rfl, rfl⟩
      next => cases h
    next => cases h
  · rintro ⟨_, _, rfl, rfl⟩
    rw [ofParts?, dif_pos key.space_ok, dif_pos key.path_ok]

theorem exists_ofParts?_iff :
    (∃ key, ofParts? space path = some key) ↔ IsKeyHalf space ∧ IsKeyHalf path := by
  constructor
  · intro ⟨key, h⟩
    obtain ⟨hspace, hpath, _⟩ := ofParts?_eq_some.mp h
    exact ⟨hspace, hpath⟩
  · intro ⟨hspace, hpath⟩
    exact ⟨⟨space, path, isKeyPart_iff.mpr hspace, isKeyPart_iff.mpr hpath⟩,
      ofParts?_eq_some.mpr ⟨hspace, hpath, rfl, rfl⟩⟩

/-- **A key is read from its text.** -/
theorem parse?_text (key : ResourceKey) : parse? key.text = some key := by
  rw [text, parse?_append key.half_space.colon_not_mem]
  exact ofParts?_eq_some.mpr ⟨key.half_space, key.half_path, rfl, rfl⟩

/-- **It is read from no other text.** -/
theorem parse?_eq_some : parse? text = some key ↔ key.text = text := by
  refine ⟨fun h => ?_, fun h => h ▸ parse?_text key⟩
  unfold parse? at h
  by_cases hcolon : ':' ∈ text.toList
  · obtain ⟨front, rest, hlist, hfront⟩ := List.eq_append_cons_of_mem hcolon
    rw [hlist, span_colon hfront] at h
    obtain ⟨_, _, hspace, hpath⟩ := ofParts?_eq_some.mp h
    rw [← String.toList_inj, toList_text, hspace, hpath, String.toList_ofList,
      String.toList_ofList, hlist]
  · -- without a colon nothing is left for a path
    have hall : ∀ c ∈ text.toList, decide (c ≠ ':') = true := fun c hc =>
      decide_eq_true fun he => hcolon (he ▸ hc)
    rw [List.span_eq_takeWhile_dropWhile, List.dropWhile_eq_nil_iff.mpr hall] at h
    cases h

theorem exists_parse?_iff : (∃ key, parse? text = some key) ↔
    ∃ space path, text = space ++ ":" ++ path ∧ IsKeyHalf space ∧ IsKeyHalf path := by
  constructor
  · intro ⟨key, h⟩
    exact ⟨key.space, key.path, (parse?_eq_some.mp h).symm, key.half_space, key.half_path⟩
  · rintro ⟨space, path, rfl, hspace, hpath⟩
    rw [parse?_append hspace.colon_not_mem]
    exact exists_ofParts?_iff.mpr ⟨hspace, hpath⟩

theorem not_mem_text (key : ResourceKey) : '\n' ∉ key.text.toList ∧ '\r' ∉ key.text.toList := by
  have hall : ∀ c ∈ key.text.toList, IsKeyLetter c ∨ c = ':' := by
    intro c hc
    rw [toList_text, List.mem_append, List.mem_cons] at hc
    rcases hc with hc | hc | hc
    · exact .inl (key.half_space.letters c hc)
    · exact .inr hc
    · exact .inl (key.half_path.letters c hc)
  exact ⟨fun hm => absurd (hall _ hm) (by decide), fun hm => absurd (hall _ hm) (by decide)⟩

/-- **A key has its halves only.** Wherever its text is cut at a colon, those are cut. -/
theorem eq_of_text_eq (h : key.text = space ++ ":" ++ path) :
    space = key.space ∧ path = key.path := by
  have hlist := congrArg String.toList h
  rw [toList_text, toList_joined, List.append_cons_inj_of_notMem
    key.half_space.colon_not_mem key.half_path.colon_not_mem] at hlist
  exact ⟨String.toList_inj.mp hlist.1.symm, String.toList_inj.mp hlist.2.2.symm⟩

/-- Putting two texts together and reading the whole comes to looking at each. A colon in one of
them makes it no half, and the whole no key. -/
theorem parse?_joined (space path : String) :
    parse? (space ++ ":" ++ path) = ofParts? space path := by
  refine Option.ext fun key => ?_
  rw [parse?_eq_some, ofParts?_eq_some]
  constructor
  · intro h
    obtain ⟨rfl, rfl⟩ := eq_of_text_eq h
    exact ⟨key.half_space, key.half_path, rfl, rfl⟩
  · rintro ⟨_, _, rfl, rfl⟩
    rfl

end ResourceKey

end Rulebook

import Mathlib.Data.List.Basic
import Rulebook.Proofs.Snapshot.Format
import Rulebook.Vocabulary

/-!
# The order of texts

Texts are compared character by character. They could as well be compared byte by byte
as they are encoded in UTF-8. What a character is encoded as is no beginning of what
another is encoded as, and at the first byte where the two differ, the greater
character has the greater byte: longer encodings begin with greater bytes, and in
encodings of one length the digits go from high to low.
-/

namespace Rulebook.Text

/-! ## The order of a dictionary -/

/-- The lists agree for a while, and then the first has the lesser number. -/
def Undercuts (ns ms : List Nat) : Prop :=
  ∃ front n m, n < m ∧ front ++ [n] <+: ns ∧ front ++ [m] <+: ms

/-- One list stands before the other in a dictionary: it is a proper beginning of it, or has the
lesser number where they first differ. -/
def Precedes (ns ms : List Nat) : Prop := ns <+: ms ∧ ns ≠ ms ∨ Undercuts ns ms

variable {n m : Nat} {ns ms front : List Nat}

theorem undercuts_nil : ¬ Undercuts ns [] := by
  intro ⟨front, n, m, _, _, hms⟩
  simp at hms

theorem nil_undercuts : ¬ Undercuts [] ms := by
  intro ⟨front, n, m, _, hns, _⟩
  simp at hns

theorem undercuts_cons : Undercuts (n :: ns) (m :: ms) ↔ n < m ∨ n = m ∧ Undercuts ns ms := by
  constructor
  · intro ⟨front, a, b, hlt, hns, hms⟩
    cases front with
    | nil =>
        obtain ⟨rfl, _⟩ := List.cons_prefix_cons.mp hns
        obtain ⟨rfl, _⟩ := List.cons_prefix_cons.mp hms
        exact .inl hlt
    | cons c front =>
        obtain ⟨rfl, hfront⟩ := List.cons_prefix_cons.mp hns
        obtain ⟨rfl, hfront'⟩ := List.cons_prefix_cons.mp hms
        exact .inr ⟨rfl, front, a, b, hlt, hfront, hfront'⟩
  · rintro (hlt | ⟨rfl, front, a, b, hlt, hns, hms⟩)
    · exact ⟨[], n, m, hlt, by simp, by simp⟩
    · exact ⟨n :: front, a, b, hlt, List.cons_prefix_cons.mpr ⟨rfl, hns⟩,
        List.cons_prefix_cons.mpr ⟨rfl, hms⟩⟩

theorem Undercuts.append (h : Undercuts ns ms) (ns' ms' : List Nat) :
    Undercuts (ns ++ ns') (ms ++ ms') := by
  obtain ⟨front, n, m, hlt, hns, hms⟩ := h
  exact ⟨front, n, m, hlt, hns.trans (List.prefix_append ns ns'),
    hms.trans (List.prefix_append ms ms')⟩

theorem not_precedes_nil : ¬ Precedes ns [] := by
  rintro (⟨hpre, hne⟩ | h)
  · exact hne (List.prefix_nil.mp hpre)
  · exact undercuts_nil h

theorem nil_precedes (h : ms ≠ []) : Precedes [] ms := .inl ⟨List.nil_prefix, h.symm⟩

theorem precedes_cons : Precedes (n :: ns) (m :: ms) ↔ n < m ∨ n = m ∧ Precedes ns ms := by
  rw [Precedes, Precedes, undercuts_cons, List.cons_prefix_cons, ne_eq, List.cons.injEq]
  constructor
  · rintro (⟨⟨rfl, hpre⟩, hne⟩ | hlt | ⟨rfl, h⟩)
    · exact .inr ⟨rfl, .inl ⟨hpre, fun he => hne ⟨rfl, he⟩⟩⟩
    · exact .inl hlt
    · exact .inr ⟨rfl, .inr h⟩
  · rintro (hlt | ⟨rfl, ⟨hpre, hne⟩ | h⟩)
    · exact .inr (.inl hlt)
    · exact .inl ⟨⟨rfl, hpre⟩, fun he => hne he.2⟩
    · exact .inr (.inr ⟨rfl, h⟩)

theorem precedes_append (front : List Nat) :
    Precedes (front ++ ns) (front ++ ms) ↔ Precedes ns ms := by
  induction front with
  | nil => rfl
  | cons n front ih => rw [List.cons_append, List.cons_append, precedes_cons, ih]; simp

/-- Nothing precedes what undercuts it. -/
theorem Undercuts.not_precedes (h : Undercuts ns ms) : ¬ Precedes ms ns := by
  induction ns generalizing ms with
  | nil => exact absurd h nil_undercuts
  | cons n ns ih =>
      cases ms with
      | nil => exact absurd h undercuts_nil
      | cons m ms =>
          rw [precedes_cons]
          rcases undercuts_cons.mp h with hlt | ⟨rfl, hrest⟩
          · omega
          · rintro (hlt | ⟨_, hp⟩)
            · exact Nat.lt_irrefl n hlt
            · exact ih hrest hp

/-! ## Characters and bytes -/

/-- The code points of a text. -/
def scalars (text : String) : List Nat := text.toList.map Char.toNat

/-- The bytes of a text in UTF-8. -/
def utf8 (text : String) : List Nat := text.toUTF8.toList.map UInt8.toNat

/-- The bytes of a code point: the digits to base 64, with a mark on each of what it is. -/
def encodeScalar (n : Nat) : List Nat :=
  if n ≤ 0x7F then [n]
  else if n ≤ 0x7FF then [n / 64 + 0xC0, n % 64 + 0x80]
  else if n ≤ 0xFFFF then [n / 4096 + 0xE0, n / 64 % 64 + 0x80, n % 64 + 0x80]
  else [n / 262144 + 0xF0, n / 4096 % 64 + 0x80, n / 64 % 64 + 0x80, n % 64 + 0x80]

theorem toNat_lt (c : Char) : c.toNat < 0x110000 := by
  rcases c.valid with h | h
  · exact Nat.lt_trans h (by decide)
  · exact h.2

/-- A character is encoded so. -/
theorem map_utf8EncodeChar (c : Char) :
    (String.utf8EncodeChar c).map UInt8.toNat = encodeScalar c.toNat := by
  have hlt := toNat_lt c
  have hbyte : ∀ k, k < 256 → (UInt8.ofNat k).toNat = k := fun k hk =>
    UInt8.toNat_ofNat_of_lt' hk
  unfold String.utf8EncodeChar encodeScalar
  dsimp only
  generalize hn : c.val.toNat = n
  rw [show c.toNat = n from hn] at hlt ⊢
  repeat' split
  all_goals simp (disch := omega) only [List.map_cons, List.map_nil, hbyte, Nat.mod_eq_of_lt]

theorem utf8_eq (text : String) : utf8 text = (scalars text).flatMap encodeScalar := by
  have hbytes : text.toUTF8.toList = text.toList.flatMap String.utf8EncodeChar := by
    rw [Format.toList_eq, String.toUTF8_eq_toByteArray, ← String.utf8Encode_toList, List.utf8Encode]
    exact List.toList_data_toByteArray
  rw [utf8, hbytes, List.map_flatMap, scalars, List.flatMap_map]
  exact congrArg (List.flatMap · text.toList) (funext map_utf8EncodeChar)

theorem encodeScalar_ne_nil (n : Nat) : encodeScalar n ≠ [] := by
  unfold encodeScalar
  repeat' split
  all_goals simp

/-- **The greater character has the greater byte** where two encodings first differ. -/
theorem encodeScalar_undercuts (h : n < m) (hm : m < 0x110000) :
    Undercuts (encodeScalar n) (encodeScalar m) := by
  unfold encodeScalar
  repeat' split
  all_goals
    simp only [undercuts_cons]
    omega

/-- **Encoding keeps the order** of code points. -/
theorem precedes_flatMap_encodeScalar :
    ∀ {ns ms : List Nat}, (∀ n ∈ ns, n < 0x110000) → (∀ m ∈ ms, m < 0x110000) →
      (Precedes (ns.flatMap encodeScalar) (ms.flatMap encodeScalar) ↔ Precedes ns ms) := by
  intro ns
  induction ns with
  | nil =>
      intro ms _ _
      cases ms with
      | nil => rfl
      | cons m ms =>
          refine iff_of_true (nil_precedes ?_) (nil_precedes (List.cons_ne_nil m ms))
          exact fun he => encodeScalar_ne_nil m (List.append_eq_nil_iff.mp he).1
  | cons n ns ih =>
      intro ms hns hms
      cases ms with
      | nil => exact iff_of_false not_precedes_nil not_precedes_nil
      | cons m ms =>
          obtain ⟨hn, hrest⟩ := List.forall_mem_cons.mp hns
          obtain ⟨hm, hrest'⟩ := List.forall_mem_cons.mp hms
          rw [List.flatMap_cons, List.flatMap_cons, precedes_cons]
          -- the first scalars differ, which their bytes show, or they agree and the rest decides
          rcases Nat.lt_trichotomy n m with hlt | rfl | hgt
          · have hbytes := (encodeScalar_undercuts hlt hm).append (ns.flatMap encodeScalar)
              (ms.flatMap encodeScalar)
            exact iff_of_true (.inr hbytes) (.inl hlt)
          · rw [precedes_append, ih hrest hrest']
            simp
          · have hbytes := (encodeScalar_undercuts hgt hn).append (ms.flatMap encodeScalar)
              (ns.flatMap encodeScalar)
            exact iff_of_false hbytes.not_precedes (by omega)

theorem lt_of_mem_scalars {text : String} : ∀ n ∈ scalars text, n < 0x110000 :=
  List.forall_mem_map.mpr fun c _ => toNat_lt c

/-- **The order of bytes is the order of code points.** -/
theorem precedes_utf8_iff (a b : String) :
    Precedes (utf8 a) (utf8 b) ↔ Precedes (scalars a) (scalars b) := by
  rw [utf8_eq, utf8_eq]
  exact precedes_flatMap_encodeScalar lt_of_mem_scalars lt_of_mem_scalars

/-! ## Comparing texts -/

theorem precedes_map_toNat {cs ds : List Char} :
    cs < ds ↔ Precedes (cs.map Char.toNat) (ds.map Char.toNat) := by
  induction cs generalizing ds with
  | nil =>
      cases ds with
      | nil => exact iff_of_false (List.lt_irrefl []) not_precedes_nil
      | cons d ds => exact iff_of_true (List.nil_lt_cons d ds) (nil_precedes (List.cons_ne_nil _ _))
  | cons c cs ih =>
      cases ds with
      | nil => exact iff_of_false (List.not_lt_nil _) not_precedes_nil
      | cons d ds =>
          have hlt : c < d ↔ c.toNat < d.toNat := Iff.rfl
          rw [List.cons_lt_cons_iff, List.map_cons, List.map_cons, precedes_cons, ih, hlt,
            Char.toNat_inj]

/-- Comparing two texts comes to the order of their code points. -/
theorem compare_eq_lt_iff {a b : String} :
    compare a b = .lt ↔ Precedes (scalars a) (scalars b) := by
  rw [scalars, scalars, ← precedes_map_toNat]
  show compareOfLessAndEq a b = .lt ↔ _
  rw [compareOfLessAndEq_eq_lt]
  exact Iff.rfl

end Rulebook.Text

namespace Rulebook.Comparator

open Text (Precedes utf8 scalars precedes_utf8_iff compare_eq_lt_iff)

/-- How the operators decide between texts. -/
structure OrdersTexts : Prop where
  /-- By the order of the bytes in UTF-8. -/
  bytes : ∀ a b, less.holdsText a b = true ↔ Precedes (utf8 a) (utf8 b)
  /-- That is the order of the code points. -/
  scalars : ∀ a b, Precedes (utf8 a) (utf8 b) ↔ Precedes (scalars a) (scalars b)
  equal : ∀ a b, equal.holdsText a b = true ↔ a = b
  /-- Of less, equal and greater one holds, and no other. -/
  one : ∀ a b, ∃ c ∈ [less, .equal, greater], ∀ other ∈ [less, .equal, greater],
    other.holdsText a b = true ↔ other = c
  notEqual : ∀ a b, notEqual.holdsText a b = !(Comparator.equal.holdsText a b)
  lessOrEqual : ∀ a b, lessOrEqual.holdsText a b = !(greater.holdsText a b)
  greaterOrEqual : ∀ a b, greaterOrEqual.holdsText a b = !(less.holdsText a b)
  swap : ∀ a b, greater.holdsText a b = less.holdsText b a
  trans : ∀ a b c, less.holdsText a b = true → less.holdsText b c = true →
    less.holdsText a c = true

theorem holdsText_greater (a b : String) : greater.holdsText a b = less.holdsText b a := by
  rw [holdsText, holdsText, Std.OrientedOrd.eq_swap (a := a)]
  cases compare b a <;> rfl

theorem ordersTexts : OrdersTexts := by
  -- the other signs are read off the three outcomes of a comparison
  have hless : ∀ a b, less.holdsText a b = true ↔ compare a b = .lt := fun a b => by
    rw [holdsText]
    cases compare a b <;> simp [holds]
  refine ⟨?bytes, precedes_utf8_iff, ?equal, ?one, ?notEqual, ?lessOrEqual, ?greaterOrEqual,
    holdsText_greater, ?trans⟩
  case bytes =>
    intro a b
    rw [hless, compare_eq_lt_iff, precedes_utf8_iff]
  case equal =>
    intro a b
    rw [holdsText]
    show (compare a b).isEq = true ↔ _
    rw [Ordering.isEq_iff_eq_eq, Std.LawfulEqOrd.compare_eq_iff_eq]
  case one =>
    intro a b
    simp only [holdsText]
    cases compare a b with
    | lt => exact ⟨less, by simp, by simp [holds]⟩
    | eq => exact ⟨.equal, by simp, by simp [holds]⟩
    | gt => exact ⟨greater, by simp, by simp [holds]⟩
  case notEqual | lessOrEqual | greaterOrEqual =>
    intro a b
    simp only [holdsText]
    cases compare a b <;> rfl
  case trans =>
    intro a b c hab hbc
    rw [hless] at hab hbc ⊢
    exact Std.TransCmp.lt_trans hab hbc

end Rulebook.Comparator

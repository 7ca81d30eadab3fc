import Mathlib.Algebra.Group.Nat.Defs
import Rulebook.Integer
import Rulebook.Text.Decimal
import Rulebook.Uuid

/-!
# Numbers in digits

Numbers are read from the digits that they are written in: natural numbers and
integers in decimal, identifiers of 128 bits in hexadecimal groups.
-/

namespace Rulebook

namespace Text

/-! ## Decimal -/

/-- The decimal digits in the order of their values. -/
def decimalDigits : List Char := ['0', '1', '2', '3', '4', '5', '6', '7', '8', '9']

/-- A number and its decimal digits. No zero stands in front of others. -/
inductive Decimal : Nat → List Char → Prop where
  | one {d : Nat} {c : Char} : decimalDigits[d]? = some c → Decimal d [c]
  | more {n d : Nat} {front : List Char} {c : Char} : 0 < n → Decimal n front →
      decimalDigits[d]? = some c → Decimal (10 * n + d) (front ++ [c])

/-- An integer and its numeral. -/
inductive Numeral : Int → List Char → Prop where
  | natural {n : Nat} {digits : List Char} : Decimal n digits → Numeral n digits
  | negative {n : Nat} {digits : List Char} : 0 < n → Decimal n digits →
      Numeral (-n) ('-' :: digits)

theorem decimalDigits_eq_some {d : Nat} {c : Char} :
    decimalDigits[d]? = some c ↔ d < 10 ∧ Nat.digitChar d = c := by
  by_cases h : d < 10
  · have hall : ∀ d < 10, decimalDigits[d]? = some (Nat.digitChar d) := by decide
    rw [hall d h, Option.some_inj]
    exact ⟨fun he => ⟨h, he⟩, And.right⟩
  · rw [List.getElem?_eq_none (Nat.le_of_not_lt h)]
    exact ⟨nofun, fun hd => absurd hd.1 h⟩

/-- A number is written in its decimal digits in one way. -/
theorem decimal_iff {n : Nat} {digits : List Char} :
    Decimal n digits ↔ digits = Nat.toDigits 10 n := by
  constructor
  · intro h
    induction h with
    | one hc =>
        obtain ⟨hd, rfl⟩ := decimalDigits_eq_some.mp hc
        exact (Nat.toDigits_of_lt_base hd).symm
    | more hn _ hc ih =>
        obtain ⟨hd, rfl⟩ := decimalDigits_eq_some.mp hc
        rw [ih, ← Nat.toDigits_of_lt_base hd, Nat.toDigits_append_toDigits (by decide) hn hd]
  · rintro rfl
    induction n using Nat.strongRecOn with
    | ind n ih =>
        by_cases h : n < 10
        · rw [Nat.toDigits_of_lt_base h]
          exact .one (decimalDigits_eq_some.mpr ⟨h, rfl⟩)
        · -- the last digit comes off at the end
          have hd : n % 10 < 10 := Nat.mod_lt n (by decide)
          have hfront := Decimal.more (by omega) (ih (n / 10) (by omega))
            (decimalDigits_eq_some.mpr ⟨hd, rfl⟩)
          rwa [← Nat.toDigits_of_lt_base hd,
            Nat.toDigits_append_toDigits (by decide) (by omega) hd, Nat.div_add_mod] at hfront

theorem toList_ofNat (n : Nat) : (toString (Int.ofNat n)).toList = Nat.toDigits 10 n :=
  Nat.toList_repr

theorem toList_negSucc (n : Nat) :
    (toString (Int.negSucc n)).toList = '-' :: Nat.toDigits 10 (n + 1) := by
  show ("-" ++ (n + 1).repr).toList = _
  rw [String.toList_append, Nat.toList_repr]
  rfl

/-- An integer has one numeral, and that is how it is written. -/
theorem numeral_iff {n : Int} {text : List Char} : Numeral n text ↔ text = (toString n).toList := by
  constructor
  · intro h
    cases h with
    | natural h => exact (decimal_iff.mp h).trans (toList_ofNat _).symm
    | @negative n digits hn h =>
        obtain ⟨m, rfl⟩ := Nat.exists_eq_add_one.mpr hn
        rw [decimal_iff.mp h]
        exact (toList_negSucc m).symm
  · rintro rfl
    cases n with
    | ofNat m =>
        rw [toList_ofNat]
        exact .natural (decimal_iff.mpr rfl)
    | negSucc m =>
        rw [toList_negSucc]
        exact .negative (Nat.succ_pos m) (decimal_iff.mpr rfl)

theorem digit?_of_isDigit {c : Char} (h : c.isDigit = true) :
    digit? c = some (c.toNat - '0'.toNat) := by
  unfold digit?
  rw [if_pos]
  rw [Char.isDigit_iff_toNat] at h
  exact h

theorem digitsFrom?_eq {digits : List Char} :
    ∀ {acc : Nat}, (∀ c ∈ digits, c.isDigit = true) →
      digitsFrom? acc digits = some (Nat.ofDigitChars 10 digits acc) := by
  induction digits with
  | nil => intro acc _; rfl
  | cons c rest ih =>
      intro acc h
      rw [digitsFrom?, digit?_of_isDigit (h c List.mem_cons_self)]
      exact ih fun d hd => h d (List.mem_cons_of_mem _ hd)

theorem isDigit_of_mem {n : Nat} {c : Char} (h : c ∈ Nat.toDigits 10 n) : c.isDigit = true :=
  Nat.isDigit_of_mem_toDigits (by decide) (by decide) h

/-- A natural number in decimal begins with a digit. -/
theorem exists_toDigits_cons (n : Nat) :
    ∃ c rest, Nat.toDigits 10 n = c :: rest ∧ c ≠ '+' ∧ c ≠ '-' := by
  cases h : Nat.toDigits 10 n with
  | nil => exact absurd h Nat.toDigits_ne_nil
  | cons c rest =>
      have hc : c.isDigit = true := isDigit_of_mem (h ▸ List.mem_cons_self)
      refine ⟨c, rest, rfl, ?_, ?_⟩
      · rintro rfl
        exact absurd hc (by decide)
      · rintro rfl
        exact absurd hc (by decide)

theorem digits?_toDigits (n : Nat) : digits? (Nat.toDigits 10 n) = some n := by
  obtain ⟨c, rest, hcons, _⟩ := exists_toDigits_cons n
  have hfrom : digitsFrom? 0 (Nat.toDigits 10 n) = some n := by
    rw [digitsFrom?_eq fun c hc => isDigit_of_mem hc, Nat.ofDigitChars_ten_toDigits]
  rw [hcons] at hfrom ⊢
  exact hfrom

theorem natBelow?_toDigits {bound n : Nat} (h : n < bound) :
    natBelow? bound (Nat.toDigits 10 n) = some n := by
  have hdigits := digits?_toDigits n
  obtain ⟨c, rest, hcons, hplus, _⟩ := exists_toDigits_cons n
  rw [hcons] at hdigits ⊢
  unfold natBelow?
  split
  · rename_i heq
    cases heq
    exact absurd rfl hplus
  · rw [hdigits]
    exact if_pos h

theorem int?_toString (n : Int) : int? (toString n).toList = some n := by
  cases n with
  | ofNat m =>
      have hdigits := digits?_toDigits m
      obtain ⟨c, rest, hcons, hplus, hminus⟩ := exists_toDigits_cons m
      rw [toList_ofNat]
      rw [hcons] at hdigits ⊢
      -- the first digit is no sign, so all of the text is digits
      unfold int?
      split
      · rename_i heq
        cases heq
        exact absurd rfl hplus
      · rename_i heq
        cases heq
        exact absurd rfl hminus
      · rw [hdigits]
        rfl
  | negSucc m =>
      rw [toList_negSucc, int?, digits?_toDigits]
      rfl

/-- **An integer is read from its decimal digits.** -/
theorem int64?_integerText (n : Int64) : int64? (integerText n).toList = some n := by
  unfold int64? integerText
  rw [int?_toString]
  have hrange : Int64.minValue.toInt ≤ n.toInt ∧ n.toInt ≤ Int64.maxValue.toInt :=
    ⟨n.minValue_le_toInt, n.toInt_le⟩
  show (if _ then some (Int64.ofInt n.toInt) else none) = some n
  rw [if_pos hrange, Int64.ofInt_toInt]

theorem not_mem_toDigits (m : Nat) : '\n' ∉ Nat.toDigits 10 m ∧ '\r' ∉ Nat.toDigits 10 m := by
  refine ⟨fun hm => ?_, fun hm => ?_⟩
  · exact absurd (isDigit_of_mem hm) (by decide)
  · exact absurd (isDigit_of_mem hm) (by decide)

/-- Decimal digits and signs are on one line. -/
theorem not_mem_toString (n : Int) : '\n' ∉ (toString n).toList ∧ '\r' ∉ (toString n).toList := by
  cases n with
  | ofNat m =>
      rw [toList_ofNat]
      exact not_mem_toDigits m
  | negSucc m =>
      rw [toList_negSucc]
      simp [not_mem_toDigits (m + 1)]

/-! ## Hexadecimal -/

theorem length_hexDigits (value : Nat) : ∀ count, (hexDigits value count).length = count := by
  intro count
  induction count generalizing value with
  | zero => rfl
  | succ count ih => simp [hexDigits, ih]

/-- What a digit of a value below sixteen can be. -/
theorem hexDigit?_hexDigit (value : Nat) : hexDigit? (hexDigit value) = some (value % 16) := by
  have hall : ∀ d < 16, hexDigit? (Nat.digitChar d) = some d := by decide
  exact hall _ (Nat.mod_lt _ (by decide))

theorem hexValue?_append (front back : List Char) :
    ∀ acc, hexValue? acc (front ++ back)
      = (hexValue? acc front).bind fun acc => hexValue? acc back := by
  induction front with
  | nil => intro acc; rfl
  | cons c rest ih =>
      intro acc
      rw [List.cons_append, hexValue?, hexValue?]
      cases hexDigit? c with
      | none => rfl
      | some d => exact ih _

theorem hexValue?_hexDigits (value : Nat) :
    ∀ count, hexValue? 0 (hexDigits value count) = some (value % 16 ^ count) := by
  intro count
  induction count generalizing value with
  | zero => simp [hexDigits, hexValue?, Nat.mod_one]
  | succ count ih =>
      rw [hexDigits, hexValue?_append, ih, Option.bind_some, hexValue?, hexDigit?_hexDigit]
      show some (16 * (value / 16 % 16 ^ count) + value % 16) = _
      rw [Nat.pow_succ', Nat.mod_mul, Nat.add_comm]

theorem mem_hexDigits {value count : Nat} {c : Char} (h : c ∈ hexDigits value count) :
    ∃ d < 16, c = Nat.digitChar d := by
  induction count generalizing value with
  | zero => simp [hexDigits] at h
  | succ count ih =>
      rw [hexDigits, List.mem_append] at h
      rcases h with h | h
      · exact ih h
      · exact ⟨_, Nat.mod_lt _ (by decide), List.mem_singleton.mp h⟩

end Text

namespace Uuid

open Text

/-- Digits fall into five groups, of which the hyphens show where they meet. -/
theorem exists_groups {digits : List Char} (h : digits.length = 32) :
    ∃ a b c d e, digits = a ++ b ++ c ++ d ++ e ∧ a.length = 8 ∧ b.length = 4 ∧ c.length = 4 ∧
      d.length = 4 ∧ hyphenate digits = a ++ '-' :: b ++ '-' :: c ++ '-' :: d ++ '-' :: e := by
  refine ⟨digits.take 8, (digits.drop 8).take 4, (digits.drop 12).take 4, (digits.drop 16).take 4,
    digits.drop 20, ?_, ?_, ?_, ?_, ?_, rfl⟩
  · -- what is taken and what is left after it make up what was there
    have hjoin : ∀ i j, j = i + 4 →
        (digits.drop i).take 4 ++ digits.drop j = digits.drop i := by
      intro i j hj
      rw [hj, ← List.drop_drop, List.take_append_drop]
    simp only [List.append_assoc]
    rw [hjoin 16 20 rfl, hjoin 12 16 rfl, hjoin 8 12 rfl, List.take_append_drop]
  all_goals
    simp only [List.length_take, List.length_drop]
    omega

/-- Digits that were joined by hyphens are read as the same digits. -/
theorem ofHyphenated?_hyphenate {digits : List Char} (h : digits.length = 32) :
    ofHyphenated? (hyphenate digits) = ofDigits? digits := by
  obtain ⟨a, b, c, d, e, hsplit, ha, hb, hc, hd, hjoin⟩ := exists_groups h
  -- leaving out the four places of the hyphens gives the digits back
  have hdigits : (hyphenate digits).take 8 ++ ((hyphenate digits).drop 9).take 4
      ++ ((hyphenate digits).drop 14).take 4 ++ ((hyphenate digits).drop 19).take 4
      ++ (hyphenate digits).drop 24 = digits := by
    rw [hjoin, hsplit]
    simp (disch := omega) [List.drop_append, ha, hb, hc, hd, List.drop_of_length_le]
  have hlen : (hyphenate digits).length = 36 := by
    rw [hsplit] at h
    simp only [List.length_append] at h
    rw [hjoin]
    simp only [List.length_append, List.length_cons]
    omega
  unfold ofHyphenated?
  simp only [hdigits]
  rw [if_pos ⟨hlen, trivial⟩]

theorem ofDigits?_digits (id : Uuid) : ofDigits? id.digits = some id := by
  unfold ofDigits? digits
  rw [if_pos (length_hexDigits _ _), hexValue?_hexDigits]
  have hlt : id.value.toNat % 16 ^ 32 = id.value.toNat := Nat.mod_eq_of_lt id.value.isLt
  rw [hlt, Option.map_some, BitVec.ofNat_toNat, BitVec.setWidth_eq]

/-- **An identifier is read from its text.** -/
theorem parse?_text (id : Uuid) : parse? id.text = some id := by
  have hlen : id.digits.length = 32 := length_hexDigits _ _
  obtain ⟨a, b, c, d, e, hsplit, ha, hb, hc, hd, hjoin⟩ := exists_groups hlen
  -- the text begins with a digit, so it is in none of the other forms
  obtain ⟨first, rest, hfirst⟩ : ∃ first rest, a = first :: rest := by
    cases a with
    | nil => simp at ha
    | cons first rest => exact ⟨first, rest, rfl⟩
  have hmem : first ∈ id.digits := by
    rw [hsplit, hfirst]
    simp
  obtain ⟨n, hn, hdigit⟩ := mem_hexDigits hmem
  have hbrace : first ≠ '{' := by
    rw [hdigit]
    exact (by decide : ∀ n < 16, Nat.digitChar n ≠ '{') n hn
  have hurn : first.toLower ≠ 'u' := by
    rw [hdigit]
    exact (by decide : ∀ n < 16, (Nat.digitChar n).toLower ≠ 'u') n hn
  have hstart : hyphenate id.digits
      = first :: (rest ++ '-' :: b ++ '-' :: c ++ '-' :: d ++ '-' :: e) := by
    rw [hjoin, hfirst]
    simp
  have hlen36 : (hyphenate id.digits).length ≠ 32 := by
    rw [hsplit] at hlen
    simp only [List.length_append] at hlen
    rw [hjoin]
    simp only [List.length_append, List.length_cons]
    omega
  unfold parse? text
  rw [String.toList_ofList, if_neg hlen36, if_neg, if_neg, ofHyphenated?_hyphenate hlen,
    ofDigits?_digits]
  · intro hmark
    rw [hstart, List.take_succ_cons, List.map_cons] at hmark
    exact hurn (List.cons.inj hmark).1
  · intro ⟨hhead, _⟩
    rw [hstart, List.head?_cons] at hhead
    exact hbrace (Option.some.inj hhead)

theorem mem_text {id : Uuid} {c : Char} (h : c ∈ id.text.toList) : c = '-' ∨ c ∈ id.digits := by
  have hlen : id.digits.length = 32 := length_hexDigits _ _
  obtain ⟨a, b, c, d, e, hsplit, _, _, _, _, hjoin⟩ := exists_groups hlen
  unfold text at h
  rw [String.toList_ofList, hjoin] at h
  rw [hsplit]
  simp only [List.mem_append, List.mem_cons] at h ⊢
  rcases h with ((((h | h | h) | h | h) | h | h) | h | h) <;> simp [h]

/-- The text of an identifier is on one line. -/
theorem not_mem_text (id : Uuid) : '\n' ∉ id.text.toList ∧ '\r' ∉ id.text.toList := by
  have hall : ∀ c ∈ id.text.toList, c = '-' ∨ ∃ d < 16, c = Nat.digitChar d := by
    intro c hc
    rcases mem_text hc with he | hd
    · exact Or.inl he
    · exact Or.inr (mem_hexDigits hd)
  have hfeed : ∀ d < 16, '\n' ≠ Nat.digitChar d ∧ '\r' ≠ Nat.digitChar d := by decide
  refine ⟨fun hm => ?_, fun hm => ?_⟩
  · rcases hall _ hm with he | ⟨d, hd, he⟩
    · exact absurd he (by decide)
    · exact (hfeed d hd).1 he
  · rcases hall _ hm with he | ⟨d, hd, he⟩
    · exact absurd he (by decide)
    · exact (hfeed d hd).2 he

end Uuid

end Rulebook

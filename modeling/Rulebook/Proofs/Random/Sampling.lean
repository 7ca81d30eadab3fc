import Mathlib.Algebra.Order.Floor.Div
import Mathlib.Data.Set.Card
import Mathlib.Order.Interval.Finset.Nat
import Mathlib.Tactic.NormNum
import Mathlib.Tactic.Positivity
import Mathlib.Tactic.Ring
import Rulebook.Random.Seeded

/-!
# Every integer of an interval is as likely as any other

A word is scaled to the width of the interval: the integer part of the product says
which integer it stands for, and words whose remainder is too great are refused. Seen
from the integer, the words that stand for it are a stretch of consecutive words. The
stretch begins where the scaled word first reaches the integer, and is as long as the
width can be doubled within 64 bits, which has nothing to do with the integer.

A generator may compute all of this with words that wrap around, among which the
width of all integers is zero. `sampled?` says it that way, and nothing is lost.

A generator tries its words in order, so what it draws is what the first word that is
accepted stands for.
-/

namespace Rulebook

variable {low high drawn : Int64} {word : UInt64}

/-! ## In words that wrap around -/

/-- The width of an interval as a word. That of all integers comes to zero. -/
def wrappedWidth (low high : Int64) : UInt64 := (high - low + 1).toUInt64

/-- How many of the highest bits of a word are zero. -/
def leadingZeros (word : UInt64) : Nat := word.toBitVec.clz.toNat

/-- The integer that a word stands for, by way of a product of 128 bits: the low half of it decides
whether the word is accepted, and the high half is added to the low end. -/
def sampled? (low high : Int64) (word : UInt64) : Option Int64 :=
  let width := wrappedWidth low high
  if width = 0 then some word.toInt64
  else
    let zone := (width <<< UInt64.ofNat (leadingZeros width)) - 1
    let product := word.toBitVec.setWidth 128 * width.toBitVec.setWidth 128
    if UInt64.ofBitVec (product.setWidth 64) ≤ zone then
      some (low + (UInt64.ofBitVec ((product >>> 64).setWidth 64)).toInt64)
    else none

/-! ## The width -/

theorem intervalWidth_eq (h : low ≤ high) :
    (intervalWidth low high : Int) = high.toInt - low.toInt + 1 := by
  have hle := Int64.le_iff_toInt_le.mp h
  unfold intervalWidth
  omega

theorem intervalWidth_pos (h : low ≤ high) : 0 < intervalWidth low high := by
  have heq := intervalWidth_eq h
  have hle := Int64.le_iff_toInt_le.mp h
  omega

theorem intervalWidth_le (h : low ≤ high) : intervalWidth low high ≤ limit64 := by
  have heq := intervalWidth_eq h
  have hlow := low.le_toInt
  have hhigh := high.toInt_lt
  unfold limit64
  omega

theorem toNat_wrappedWidth (h : low ≤ high) :
    (wrappedWidth low high).toNat = intervalWidth low high % limit64 := by
  have hle := Int64.le_iff_toInt_le.mp h
  have hlow : low.toInt = low.toBitVec.toInt := rfl
  have hhigh : high.toInt = high.toBitVec.toInt := rfl
  have hword : (wrappedWidth low high).toNat = (high.toBitVec - low.toBitVec + 1#64).toNat := rfl
  rw [BitVec.toInt_eq_toNat_cond] at hlow hhigh
  rw [BitVec.toNat_add, BitVec.toNat_sub] at hword
  rw [hword]
  unfold intervalWidth limit64
  simp only [BitVec.toNat_ofNat]
  omega

theorem wrappedWidth_eq_zero (h : low ≤ high) :
    wrappedWidth low high = 0 ↔ intervalWidth low high = limit64 := by
  have hpos := intervalWidth_pos h
  have hle := intervalWidth_le h
  have hword := toNat_wrappedWidth h
  rw [← UInt64.toNat_inj, hword]
  constructor
  · intro hzero
    by_contra hne
    rw [Nat.mod_eq_of_lt (by omega)] at hzero
    exact hpos.ne' hzero
  · intro hfull
    rw [hfull]
    rfl

/-- A word with so many leading zeros can be doubled as often before it leaves 64 bits. -/
theorem leadingZeros_eq (h : word ≠ 0) : leadingZeros word = 63 - word.toNat.log2 := by
  have hbits : word.toBitVec ≠ 0#64 := fun he => h (UInt64.toBitVec_inj.mp he)
  have hhigh := BitVec.toNat_lt_two_pow_sub_clz (x := word.toBitVec)
  have hlow := BitVec.two_pow_sub_clz_le_toNat_of_ne_zero (by decide) hbits
  have hlt : word.toBitVec.clz.toNat < 64 := by
    have := BitVec.clz_lt_iff_ne_zero.mpr hbits
    simpa [BitVec.lt_def] using this
  change word.toNat < _ at hhigh
  change _ ≤ word.toNat at hlow
  have hne : word.toNat ≠ 0 := fun he => h (UInt64.toNat_inj.mp he)
  -- the word lies between two powers of two, which give its logarithm
  have hlog : word.toNat.log2 = 63 - leadingZeros word := by
    refine le_antisymm ?_ ?_
    · have : word.toNat.log2 < 64 - leadingZeros word := (Nat.log2_lt hne).mpr hhigh
      unfold leadingZeros at *
      omega
    · exact (Nat.le_log2 hne).mpr hlow
  unfold leadingZeros at *
  omega

/-- The width, doubled until it fills 64 bits. -/
def filledWidth (width : Nat) : Nat := width <<< (63 - width.log2)

theorem filledWidth_eq (width : Nat) : filledWidth width = width * 2 ^ (63 - width.log2) :=
  Nat.shiftLeft_eq width _

theorem filledWidth_lt {width : Nat} (hpos : 0 < width) (hlt : width < limit64) :
    filledWidth width < limit64 := by
  have hlog : width.log2 < 64 := (Nat.log2_lt hpos.ne').mpr hlt
  have hself : width < 2 ^ (width.log2 + 1) := Nat.lt_log2_self
  have hexp : width.log2 + 1 + (63 - width.log2) = 64 := by omega
  calc filledWidth width = width * 2 ^ (63 - width.log2) := filledWidth_eq width
    _ < 2 ^ (width.log2 + 1) * 2 ^ (63 - width.log2) :=
        Nat.mul_lt_mul_of_pos_right hself (Nat.two_pow_pos _)
    _ = limit64 := by
        rw [← pow_add, hexp]
        rfl

theorem filledWidth_pos {width : Nat} (hpos : 0 < width) : 0 < filledWidth width := by
  rw [filledWidth_eq]
  positivity

theorem le_acceptedZone {width remainder : Nat} (hpos : 0 < width) :
    remainder ≤ acceptedZone width ↔ remainder < filledWidth width := by
  have := filledWidth_pos hpos
  unfold acceptedZone filledWidth at *
  omega

/-! ## Both ways of computing -/

/-- The zone in words is the width, doubled until it fills 64 bits, less one. -/
theorem toNat_zone (h : low ≤ high) (hlt : intervalWidth low high < limit64) :
    ((wrappedWidth low high <<< UInt64.ofNat (leadingZeros (wrappedWidth low high))) - 1).toNat
      = acceptedZone (intervalWidth low high) := by
  have hpos := intervalWidth_pos h
  have hword := toNat_wrappedWidth h
  rw [Nat.mod_eq_of_lt hlt] at hword
  have hne := mt (wrappedWidth_eq_zero h).mp hlt.ne
  have hdoublings : (UInt64.ofNat (leadingZeros (wrappedWidth low high))).toNat % 64
      = 63 - (intervalWidth low high).log2 := by
    rw [leadingZeros_eq hne, hword, UInt64.toNat_ofNat']
    omega
  have hfilled : (wrappedWidth low high <<<
      UInt64.ofNat (leadingZeros (wrappedWidth low high))).toNat
        = filledWidth (intervalWidth low high) := by
    rw [UInt64.toNat_shiftLeft, hdoublings, hword]
    exact Nat.mod_eq_of_lt (filledWidth_lt hpos hlt)
  -- the shifted width is not zero, so taking one away does not wrap
  have hone : 1 ≤ wrappedWidth low high <<<
      UInt64.ofNat (leadingZeros (wrappedWidth low high)) := by
    rw [UInt64.le_iff_toNat_le, hfilled]
    exact filledWidth_pos hpos
  rw [UInt64.toNat_sub_of_le _ _ hone, hfilled]
  rfl

/-- The product of two words fits 128 bits. -/
theorem toNat_product (word width : UInt64) :
    (word.toBitVec.setWidth 128 * width.toBitVec.setWidth 128).toNat
      = word.toNat * width.toNat := by
  have hword : word.toNat < limit64 := word.toNat_lt
  have hwidth : width.toNat < limit64 := width.toNat_lt
  have hbound : word.toNat * width.toNat < limit64 * limit64 := Nat.mul_lt_mul'' hword hwidth
  have hlimit : limit64 < 2 ^ 128 := by norm_num [limit64]
  rw [BitVec.toNat_mul, BitVec.toNat_setWidth, BitVec.toNat_setWidth]
  change word.toNat % 2 ^ 128 * (width.toNat % 2 ^ 128) % 2 ^ 128 = _
  rw [Nat.mod_eq_of_lt (hword.trans hlimit), Nat.mod_eq_of_lt (hwidth.trans hlimit)]
  exact Nat.mod_eq_of_lt hbound

/-- The high half of a product is added to an integer as a word is. -/
theorem ofInt_add_high (low : Int64) (product : BitVec 128) :
    Int64.ofInt (low.toInt + (product.toNat / limit64 : Nat))
      = low + (UInt64.ofBitVec ((product >>> 64).setWidth 64)).toInt64 := by
  have hhalf : Int64.ofInt (product.toNat / limit64 : Nat)
      = (UInt64.ofBitVec ((product >>> 64).setWidth 64)).toInt64 := by
    apply Int64.toBitVec_inj.mp
    apply BitVec.eq_of_toNat_eq
    rw [Int64.toBitVec_ofInt, BitVec.ofInt_natCast, BitVec.toNat_ofNat]
    change _ = ((product >>> 64).setWidth 64).toNat
    rw [BitVec.toNat_setWidth, BitVec.toNat_ushiftRight, Nat.shiftRight_eq_div_pow]
    rfl
  rw [Int64.ofInt_add, Int64.ofInt_toInt, hhalf]

/-- **Nothing is lost by computing with words.** -/
theorem ofWord?_eq_sampled? (h : low ≤ high) (word : UInt64) :
    ofWord? low high word = sampled? low high word := by
  unfold ofWord? sampled?
  dsimp only
  by_cases hfull : intervalWidth low high = limit64
  · rw [if_pos hfull, if_pos ((wrappedWidth_eq_zero h).mpr hfull)]
  · have hlt := lt_of_le_of_ne (intervalWidth_le h) hfull
    have hword := toNat_wrappedWidth h
    rw [Nat.mod_eq_of_lt hlt] at hword
    rw [if_neg hfull, if_neg (mt (wrappedWidth_eq_zero h).mp hfull), ← hword, ← toNat_product,
      ← ofInt_add_high]
    refine if_congr ?_ rfl rfl
    rw [UInt64.le_iff_toNat_le, toNat_zone h hlt, hword]
    rfl

/-! ## The words of an integer -/

/-- The first word that is scaled to the index or beyond. -/
def firstWord (width index : Nat) : Nat := (index * limit64) ⌈/⌉ width

/-- A word is scaled to the index, with a remainder that is accepted, if it is one of the words that
begin with the first. -/
theorem scaled_iff {width reach index x : Nat} (hpos : 0 < width) (hfit : width * reach ≤ limit64) :
    x * width / limit64 = index ∧ x * width % limit64 < width * reach ↔
      firstWord width index ≤ x ∧ x < firstWord width index + reach := by
  have hfirst : ∀ {y}, firstWord width index ≤ y ↔ index * limit64 ≤ y * width := by
    intro y
    rw [firstWord, ceilDiv_le_iff_le_mul hpos, Nat.mul_comm width y]
  have hlimit : 0 < limit64 := by decide
  -- in terms of the product, the accepted words are a stretch from one multiple of the limit on
  have hproduct : x * width / limit64 = index ∧ x * width % limit64 < width * reach ↔
      index * limit64 ≤ x * width ∧ x * width < index * limit64 + width * reach := by
    have hdiv := Nat.div_add_mod (x * width) limit64
    have hmod := Nat.mod_lt (x * width) hlimit
    constructor
    · rintro ⟨rfl, hlt⟩
      rw [Nat.mul_comm] at hdiv
      omega
    · rintro ⟨hle, hlt⟩
      have hindex : x * width / limit64 = index := by
        refine Nat.div_eq_of_lt_le hle ?_
        rw [Nat.succ_mul]
        omega
      rw [hindex, Nat.mul_comm] at hdiv
      exact ⟨hindex, by omega⟩
  have hlast : x * width < index * limit64 + width * reach ↔ x < firstWord width index + reach := by
    rcases Nat.lt_or_ge x reach with hx | hx
    · have hmul : x * width < width * reach := by
        rw [Nat.mul_comm]
        exact Nat.mul_lt_mul_of_pos_left hx hpos
      constructor
      · intro
        omega
      · intro
        omega
    · obtain ⟨y, rfl⟩ := Nat.exists_eq_add_of_le hx
      have hexpand : (reach + y) * width = width * reach + y * width := by ring
      have hy := not_congr (hfirst (y := y))
      rw [Nat.not_le, Nat.not_le] at hy
      rw [hexpand]
      omega
  rw [hproduct, hlast, hfirst]

/-- How many words are accepted for each integer. -/
def wordsEach (low high : Int64) : Nat := 2 ^ (63 - (intervalWidth low high).log2)

theorem scaled_lt (h : low ≤ high) (word : UInt64) :
    word.toNat * intervalWidth low high / limit64 < intervalWidth low high := by
  have hpos := intervalWidth_pos h
  have hword : word.toNat < limit64 := word.toNat_lt
  rw [Nat.div_lt_iff_lt_mul (by decide), Nat.mul_comm]
  exact Nat.mul_lt_mul_of_pos_left hword hpos

/-- What is added to the low end stays below the high one. -/
theorem toInt_offset (h : low ≤ high) {index : Nat} (hi : index < intervalWidth low high) :
    (Int64.ofInt (low.toInt + index)).toInt = low.toInt + index := by
  have hwidth := intervalWidth_eq h
  have hlow := low.le_toInt
  have hhigh := high.toInt_lt
  exact Int64.toInt_ofInt_of_le (by omega) (by omega)

/-- **What a word stands for lies in the interval.** -/
theorem ofWord?_mem (h : low ≤ high) (hw : ofWord? low high word = some drawn) :
    low ≤ drawn ∧ drawn ≤ high := by
  have hwidth := intervalWidth_eq h
  rw [Int64.le_iff_toInt_le, Int64.le_iff_toInt_le]
  unfold ofWord? at hw
  dsimp only at hw
  split at hw
  · rename_i hfull
    have hlow := drawn.le_toInt
    have hhigh := drawn.toInt_lt
    have hlow' := low.le_toInt
    have hhigh' := high.toInt_lt
    rw [hfull] at hwidth
    unfold limit64 at hwidth
    omega
  · split at hw
    · have hlt := scaled_lt h word
      rw [← Option.some.inj hw, toInt_offset h hlt]
      generalize word.toNat * intervalWidth low high / limit64 = index at hlt
      omega
    · exact absurd hw (by simp)

/-- The words that stand for an integer follow each other. -/
theorem ofWord?_eq_some (h : low ≤ high) (hlt : intervalWidth low high < limit64)
    (hmem : low ≤ drawn ∧ drawn ≤ high) :
    ofWord? low high word = some drawn ↔
      firstWord (intervalWidth low high) (drawn.toInt - low.toInt).toNat ≤ word.toNat ∧
        word.toNat < firstWord (intervalWidth low high) (drawn.toInt - low.toInt).toNat
          + wordsEach low high := by
  have hpos := intervalWidth_pos h
  have hwidth := intervalWidth_eq h
  have hfilled : filledWidth (intervalWidth low high)
      = intervalWidth low high * wordsEach low high := filledWidth_eq _
  have hscaled := scaled_lt h word
  have hoffset := toInt_offset h hscaled
  rw [Int64.le_iff_toInt_le, Int64.le_iff_toInt_le] at hmem
  rw [← scaled_iff hpos (hfilled ▸ (filledWidth_lt hpos hlt).le), ← hfilled, ← le_acceptedZone hpos]
  unfold ofWord?
  dsimp only
  rw [if_neg hlt.ne, Option.ite_none_right_eq_some, Option.some.injEq, ← Int64.toInt_inj, hoffset,
    and_comm]
  -- the words that come to one number are those that scale to its distance from below
  refine and_congr_left fun _ => ?_
  omega

/-- Words between two numbers are counted like the numbers. -/
theorem ncard_words {first count : Nat} (hfit : first + count ≤ limit64) :
    {word : UInt64 | first ≤ word.toNat ∧ word.toNat < first + count}.ncard = count := by
  have himage : {word : UInt64 | first ≤ word.toNat ∧ word.toNat < first + count}
      = UInt64.ofNat '' (Finset.Ico first (first + count)) := by
    rw [Finset.coe_Ico]
    ext word
    constructor
    · intro hw
      exact ⟨word.toNat, hw, UInt64.ofNat_toNat⟩
    · rintro ⟨x, hx, rfl⟩
      have hlt : x < limit64 := hx.2.trans_le hfit
      show first ≤ (UInt64.ofNat x).toNat ∧ (UInt64.ofNat x).toNat < first + count
      rw [UInt64.toNat_ofNat_of_lt' hlt]
      exact hx
  have hinj : Set.InjOn UInt64.ofNat (Finset.Ico first (first + count) : Set Nat) := by
    intro x hx y hy hxy
    simp only [Finset.coe_Ico, Set.mem_Ico] at hx hy
    have heq := congrArg UInt64.toNat hxy
    rwa [UInt64.toNat_ofNat_of_lt' (show x < limit64 by omega),
      UInt64.toNat_ofNat_of_lt' (show y < limit64 by omega)] at heq
  rw [himage, hinj.ncard_image, Set.ncard_coe_finset, Nat.card_Ico, Nat.add_sub_cancel_left]

/-- The last of these words is still a word. -/
theorem firstWord_add_wordsEach_le (h : low ≤ high) (hlt : intervalWidth low high < limit64)
    {index : Nat} (hi : index < intervalWidth low high) :
    firstWord (intervalWidth low high) index + wordsEach low high ≤ limit64 := by
  have hpos := intervalWidth_pos h
  have hreach : 0 < wordsEach low high := Nat.two_pow_pos _
  have hfit : intervalWidth low high * wordsEach low high ≤ limit64 := by
    have hfilled := (filledWidth_lt hpos hlt).le
    rwa [filledWidth_eq] at hfilled
  have hindex : (firstWord (intervalWidth low high) index + wordsEach low high - 1)
      * intervalWidth low high / limit64 = index :=
    ((scaled_iff hpos hfit).mpr ⟨by omega, by omega⟩).1
  rw [← hindex, Nat.div_lt_iff_lt_mul (by decide), Nat.mul_comm] at hi
  have hlast := Nat.lt_of_mul_lt_mul_left hi
  omega

/-- **Every integer of an interval stands for the same number of words.** -/
theorem ncard_ofWord? (h : low ≤ high) (hmem : low ≤ drawn ∧ drawn ≤ high) :
    {word | ofWord? low high word = some drawn}.ncard =
      if wrappedWidth low high = 0 then 1 else 2 ^ leadingZeros (wrappedWidth low high) := by
  have hwidth := intervalWidth_eq h
  have hwrapped := toNat_wrappedWidth h
  by_cases hfull : intervalWidth low high = limit64
  · rw [if_pos ((wrappedWidth_eq_zero h).mpr hfull)]
    -- with the full range a word is the number itself
    have hone : {word | ofWord? low high word = some drawn} = {drawn.toUInt64} := by
      ext word
      show ofWord? low high word = some drawn ↔ word = drawn.toUInt64
      unfold ofWord?
      dsimp only
      rw [if_pos hfull, Option.some.injEq]
      constructor
      · rintro rfl
        rfl
      · rintro rfl
        rfl
    rw [hone, Set.ncard_singleton]
  · have hlt : intervalWidth low high < limit64 := lt_of_le_of_ne (intervalWidth_le h) hfull
    have hne := mt (wrappedWidth_eq_zero h).mp hfull
    -- otherwise each number has as many words as the width was doubled
    have hreach : 2 ^ leadingZeros (wrappedWidth low high) = wordsEach low high := by
      rw [leadingZeros_eq hne, hwrapped, Nat.mod_eq_of_lt hlt, wordsEach]
    have hindex : (drawn.toInt - low.toInt).toNat < intervalWidth low high := by
      rw [Int64.le_iff_toInt_le, Int64.le_iff_toInt_le] at hmem
      omega
    rw [if_neg hne, hreach, ← ncard_words (firstWord_add_wordsEach_le h hlt hindex)]
    exact congrArg Set.ncard (Set.ext fun word => ofWord?_eq_some h hlt hmem)

/-! ## What a generator draws -/

namespace SeededRandom

variable {generator after : SeededRandom}

/-- The generator comes to an integer: words are refused up to one that stands for it. -/
inductive Draws (low high : Int64) : SeededRandom → Int64 → SeededRandom → Prop where
  | accepted {generator : SeededRandom} {drawn : Int64} :
      ofWord? low high generator.next.1 = some drawn →
      Draws low high generator drawn generator.next.2
  | refused {generator after : SeededRandom} {drawn : Int64} :
      ofWord? low high generator.next.1 = none → Draws low high generator.next.2 drawn after →
      Draws low high generator drawn after

/-- Some word that is still ahead is accepted. -/
def Accepts (low high : Int64) (generator : SeededRandom) : Prop :=
  ∃ ahead, (ofWord? low high
    { generator with used := generator.used + ahead : SeededRandom }.next.1).isSome = true

/-- **A draw ends with the first word that is accepted.** -/
theorem draw_of_draws (h : Draws low high generator drawn after) :
    draw low high generator = (drawn, after) := by
  induction h with
  | accepted hword =>
      rw [draw]
      simp only [hword]
  | refused hword _ ih =>
      rw [draw]
      simp only [hword]
      exact ih

/-- A generator that has such a word comes to an integer. -/
theorem exists_draws (h : Accepts low high generator) :
    ∃ drawn after, Draws low high generator drawn after := by
  obtain ⟨ahead, hword⟩ := h
  induction ahead generalizing generator with
  | zero =>
      obtain ⟨drawn, hdrawn⟩ := Option.isSome_iff_exists.mp hword
      exact ⟨drawn, _, .accepted hdrawn⟩
  | succ ahead ih =>
      cases hfirst : ofWord? low high generator.next.1 with
      | some drawn => exact ⟨drawn, _, .accepted hfirst⟩
      | none =>
          -- one word fewer is ahead of the next generator
          have hused : generator.next.2.used + ahead = generator.used + (ahead + 1) :=
            Nat.add_right_comm _ _ _
          have hnext : ∃ drawn after, Draws low high generator.next.2 drawn after := by
            refine ih ?_
            rw [hused]
            exact hword
          obtain ⟨drawn, after, hrest⟩ := hnext
          exact ⟨drawn, after, .refused hfirst hrest⟩

theorem Draws.mem (hle : low ≤ high) (h : Draws low high generator drawn after) :
    low ≤ drawn ∧ drawn ≤ high := by
  induction h with
  | accepted hword => exact ofWord?_mem hle hword
  | refused _ _ ih => exact ih

end SeededRandom

end Rulebook

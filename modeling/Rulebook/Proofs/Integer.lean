import Rulebook.Integer

/-!
# Stopping at the ends of the range

What sums and differences of a script are, said with integers that have no bounds:
the exact result, clamped to the range of 64 bits. A result that lies in the range
is therefore exact.
-/

namespace Rulebook

/-- The integer lies in the range of 64 bits. -/
def FitsInt64 (n : Int) : Prop := Int64.minValue.toInt ≤ n ∧ n ≤ Int64.maxValue.toInt

instance (n : Int) : Decidable (FitsInt64 n) := inferInstanceAs (Decidable (_ ∧ _))

/-- The nearest integer that lies in the range of 64 bits. -/
def clamp (n : Int) : Int := max Int64.minValue.toInt (min n Int64.maxValue.toInt)

variable {n : Int}

theorem clamp_of_fitsInt64 (h : FitsInt64 n) : clamp n = n := by
  obtain ⟨hlow, hhigh⟩ := h
  unfold clamp
  omega

/-- What is not negative can only be too large. -/
theorem clamp_of_nonneg (h : 0 ≤ n) : clamp n = min n Int64.maxValue.toInt := by
  have hlow : Int64.minValue.toInt ≤ 0 := by decide
  have hhigh : 0 ≤ Int64.maxValue.toInt := by decide
  unfold clamp
  omega

theorem toInt_ofInt_of_fitsInt64 (h : FitsInt64 n) : (Int64.ofInt n).toInt = n := by
  obtain ⟨hlow, hhigh⟩ := h
  rw [Int64.toInt_minValue] at hlow
  rw [Int64.toInt_maxValue] at hhigh
  exact Int64.toInt_ofInt_of_le hlow (Int.lt_of_le_sub_one hhigh)

/-- **The ends of the range are where an integer is clamped.** -/
@[simp] theorem toInt_saturate (n : Int) : (saturate n).toInt = clamp n := by
  have hends : Int64.minValue.toInt ≤ Int64.maxValue.toInt := by decide
  unfold saturate
  split
  · unfold clamp
    omega
  · split
    · unfold clamp
      omega
    · have hfits : FitsInt64 n := by
        unfold FitsInt64
        omega
      rw [toInt_ofInt_of_fitsInt64 hfits, clamp_of_fitsInt64 hfits]

theorem toInt_saturatingAdd (a b : Int64) :
    (saturatingAdd a b).toInt = clamp (a.toInt + b.toInt) :=
  toInt_saturate _

theorem toInt_saturatingSub (a b : Int64) :
    (saturatingSub a b).toInt = clamp (a.toInt - b.toInt) :=
  toInt_saturate _

end Rulebook

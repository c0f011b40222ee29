import Mathlib

/-!
# Binary floating point of 64 bits

A `double` is its 64 bits: the sign, eleven bits of exponent and 52 of fraction.

* The values that are no `NaN` are ordered by sign and magnitude, so `key` puts them in the order of
  the integers; both zeros have the key 0.
* `lt` and `eq` are the comparisons of the machine: false as soon as one side is a `NaN`.
* `normal` turns the negative zero into the positive one, and two finite values that compare equal
  have the same normal form.
-/

/-- The bits of a `double`. -/
structure Binary64 where
  bits : Fin 18446744073709551616

namespace Binary64

/-- The bits below the sign. -/
def magnitude (d : Binary64) : ℕ := d.bits.val % 9223372036854775808

def isNegative (d : Binary64) : Bool := 9223372036854775808 ≤ d.bits.val

def infinity : ℕ := 9218868437227405312

def isNaN (d : Binary64) : Bool := infinity < d.magnitude

/-- `std::isfinite`. -/
def isFinite (d : Binary64) : Bool := d.magnitude < infinity

/-- The place of a value among the values. -/
def key (d : Binary64) : ℤ := if d.isNegative then -d.magnitude else d.magnitude

/-- `a < b`. -/
def lt (a b : Binary64) : Bool := !a.isNaN && !b.isNaN && a.key < b.key

/-- `a == b`. -/
def eq (a b : Binary64) : Bool := !a.isNaN && !b.isNaN && a.key = b.key

/-- `a <= b`. -/
def le (a b : Binary64) : Bool := !a.isNaN && !b.isNaN && a.key ≤ b.key

def zero : Binary64 := ⟨0⟩

/-- `1.0`. -/
def one : Binary64 := ⟨4607182418800017408⟩

/-- `2.0`. -/
def two : Binary64 := ⟨4611686018427387904⟩

/-- `3.0`. -/
def three : Binary64 := ⟨4613937818241073152⟩

def normal (d : Binary64) : Binary64 := if d.eq zero then zero else d

variable {a b : Binary64}

theorem isNaN_of_isFinite (h : a.isFinite = true) : a.isNaN = false := by
  unfold isFinite at h
  unfold isNaN
  rw [decide_eq_true_eq] at h
  exact decide_eq_false (Nat.not_lt_of_lt h)

/-- Finite values compare by their keys. -/
theorem lt_iff (ha : a.isFinite = true) (hb : b.isFinite = true) :
    a.lt b = true ↔ a.key < b.key := by
  unfold lt
  rw [isNaN_of_isFinite ha, isNaN_of_isFinite hb]
  exact decide_eq_true_iff

theorem eq_iff (ha : a.isFinite = true) (hb : b.isFinite = true) :
    a.eq b = true ↔ a.key = b.key := by
  unfold eq
  rw [isNaN_of_isFinite ha, isNaN_of_isFinite hb]
  exact decide_eq_true_iff

theorem isFinite_of_eq (ha : a.isFinite = true) (h : a.eq b = true) :
    a.key = b.key ∧ b.isFinite = true := by
  unfold eq at h
  rw [Bool.and_eq_true, decide_eq_true_eq] at h
  refine ⟨h.2, ?_⟩
  have hkey := h.2
  unfold isFinite at ha ⊢
  rw [decide_eq_true_eq] at ha ⊢
  unfold key at hkey
  by_cases hsa : a.isNegative = true <;> by_cases hsb : b.isNegative = true <;>
    simp only [hsa, hsb, if_true, if_false, Bool.false_eq_true] at hkey <;> omega

theorem lt_eq_false_of_le (h : a.le b = true) : b.lt a = false := by
  unfold le at h
  unfold lt
  rw [Bool.and_eq_true, decide_eq_true_eq] at h
  rw [decide_eq_false (not_lt.mpr h.2), Bool.and_false]

theorem le_eq_false_of_lt (h : a.lt b = true) : b.le a = false := by
  unfold lt at h
  unfold le
  rw [Bool.and_eq_true, decide_eq_true_eq] at h
  rw [decide_eq_false (not_le.mpr h.2), Bool.and_false]

/-- A finite value equals itself. -/
theorem eq_self (ha : a.isFinite = true) : a.eq a = true := (eq_iff ha ha).mpr rfl

theorem bits_eq (d : Binary64) :
    d.bits.val = (if d.isNegative then 9223372036854775808 else 0) + d.magnitude := by
  have hlt := d.bits.isLt
  unfold isNegative magnitude
  by_cases h : 9223372036854775808 ≤ d.bits.val
  · rw [if_pos (decide_eq_true h)]
    omega
  · rw [if_neg (by rw [decide_eq_true_eq]; exact h)]
    omega

/-- **The normal form tells values apart**, and nothing else. -/
theorem normal_inj (ha : a.isFinite = true) (hb : b.isFinite = true) :
    a.normal = b.normal ↔ a.eq b = true := by
  have hzero : zero.isFinite = true := by decide
  rw [eq_iff ha hb]
  unfold normal
  by_cases hza : a.eq zero = true
  · have hka : a.key = 0 := (eq_iff ha hzero).mp hza
    rw [if_pos hza, hka]
    by_cases hzb : b.eq zero = true
    · have hkb : b.key = 0 := (eq_iff hb hzero).mp hzb
      rw [if_pos hzb, hkb]
      exact ⟨fun _ => rfl, fun _ => rfl⟩
    · rw [if_neg hzb]
      refine ⟨fun h => ?_, fun h => ?_⟩
      · rw [← h] at hzb
        exact absurd (by decide) hzb
      · exact absurd ((eq_iff hb hzero).mpr h.symm) hzb
  · rw [if_neg hza]
    by_cases hzb : b.eq zero = true
    · have hkb : b.key = 0 := (eq_iff hb hzero).mp hzb
      rw [if_pos hzb, hkb]
      refine ⟨fun h => ?_, fun h => ?_⟩
      · rw [h] at hza
        exact absurd (by decide) hza
      · exact absurd ((eq_iff ha hzero).mpr h) hza
    · rw [if_neg hzb]
      refine ⟨fun h => h ▸ rfl, fun h => ?_⟩
      have hna : a.key ≠ 0 := fun h0 => hza ((eq_iff ha hzero).mpr h0)
      have hbits := bits_eq a
      have hbits' := bits_eq b
      have hsame : a.bits.val = b.bits.val := by
        unfold key at h hna
        by_cases hsa : a.isNegative = true <;> by_cases hsb : b.isNegative = true <;>
          simp only [hsa, hsb, if_true, if_false, Bool.false_eq_true] at h hna hbits hbits' <;> omega
      have heq : a.bits = b.bits := Fin.ext hsame
      cases a
      cases b
      exact congrArg Binary64.mk heq

end Binary64

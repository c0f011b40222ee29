import Mathlib
import SemanticMemory.Lib.Json

/-!
# Texts and clock points

The vocabulary shared by the fact store, the recorder and the daemon.

* `Text` is a byte string: a C++ `string`, or a Python `str` by its UTF-8 bytes, whose byte order is
  the code point order.
* `ascii` is a string literal of the source, all of which are ASCII.
* `cString` is what `sqlite3_bind_text(stmt, i, s.c_str(), -1, …)` stores: the bytes before the
  first NUL.
* `Hlc` is a hybrid logical clock point, ordered lexicographically.  `atOrBefore` and `after` are
  the comparisons as the SQL of both languages spells them, and `atOrBefore_iff`, `after_iff` read
  them in the order of `Hlc`.
-/

namespace SemanticMemory

abbrev Byte := Fin 256

instance lawfulBEqByte : LawfulBEq Byte := inferInstance

abbrev Text := List Byte

instance lawfulBEqText : LawfulBEq Text := inferInstance

/-- The bytes of a literal of the source. -/
def ascii (literal : String) : Text := literal.toList.map fun c => Fin.ofNat 256 c.toNat

/-- The bytes a C string ends at its first NUL. -/
def cString (t : Text) : Text := t.takeWhile (· ≠ 0)

/-! ## Clock points -/

/-- A point of the hybrid logical clock: physical milliseconds, then the logical counter. -/
abbrev Hlc := ℤ ×ₗ ℤ

/-- The point with the given components. -/
def hlc (physicalMs logical : ℤ) : Hlc := toLex (physicalMs, logical)

theorem hlc_le_iff {p l p' l' : ℤ} : hlc p l ≤ hlc p' l' ↔ p < p' ∨ p = p' ∧ l ≤ l' :=
  Prod.Lex.toLex_le_toLex

theorem hlc_lt_iff {p l p' l' : ℤ} : hlc p l < hlc p' l' ↔ p < p' ∨ p = p' ∧ l < l' :=
  Prod.Lex.toLex_lt_toLex

/-- `(x.p < p OR (x.p = p AND x.l <= l))`. -/
def atOrBefore (x : Hlc) (p l : ℤ) : Prop :=
  (ofLex x).1 < p ∨ (ofLex x).1 = p ∧ (ofLex x).2 ≤ l

/-- `(x.p > p OR (x.p = p AND x.l > l))`. -/
def after (x : Hlc) (p l : ℤ) : Prop :=
  (ofLex x).1 > p ∨ (ofLex x).1 = p ∧ (ofLex x).2 > l

instance (x : Hlc) (p l : ℤ) : Decidable (atOrBefore x p l) :=
  inferInstanceAs (Decidable (_ ∨ _ ∧ _))

instance (x : Hlc) (p l : ℤ) : Decidable (after x p l) :=
  inferInstanceAs (Decidable (_ ∨ _ ∧ _))

@[simp] theorem atOrBefore_iff {x : Hlc} {p l : ℤ} : atOrBefore x p l ↔ x ≤ hlc p l :=
  hlc_le_iff.symm

@[simp] theorem after_iff {x : Hlc} {p l : ℤ} : after x p l ↔ hlc p l < x := by
  rw [show x = hlc (ofLex x).1 (ofLex x).2 from rfl, hlc_lt_iff]
  exact or_congr Iff.rfl (and_congr_left' eq_comm)

end SemanticMemory

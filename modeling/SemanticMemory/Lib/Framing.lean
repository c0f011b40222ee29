import Mathlib

/-!
# Length-prefixed framing

A list of words is written as one word, each one behind its length in a code of fixed width.  Words
that are framed alike are alike, as long as the code tells their lengths apart: `frames_inj`.
`bigEndian` is such a code.

What can be read off the head of a word whatever follows is said to delimit itself: `Delimits`.  A
word without a letter does when the letter ends it, a frame does when the code of its length does,
and so does a list of a known length, item by item.
-/

namespace Framing

universe u

variable {α : Type u}

/-! ## Frames -/

def frame (code : ℕ → List α) (word : List α) : List α := code word.length ++ word

def frames (code : ℕ → List α) (words : List (List α)) : List α :=
  (words.map (frame code)).flatten

/-- A code of a fixed width that tells numbers below a bound apart. -/
structure Code (code : ℕ → List α) (width bound : ℕ) : Prop where
  length (n : ℕ) : (code n).length = width
  inj {m n : ℕ} : m < bound → n < bound → code m = code n → m = n

variable {code : ℕ → List α} {width bound : ℕ}

/-- A frame can be read off the head of a word. -/
theorem frame_append_inj (h : Code code width bound) {x y xs ys : List α} (hx : x.length < bound)
    (hy : y.length < bound) (heq : frame code x ++ xs = frame code y ++ ys) : x = y ∧ xs = ys := by
  unfold frame at heq
  rw [List.append_assoc, List.append_assoc] at heq
  obtain ⟨hcode, hrest⟩ := List.append_inj heq ((h.length _).trans (h.length _).symm)
  exact List.append_inj hrest (h.inj hx hy hcode)

/-- **Frames tell words apart.** -/
theorem frames_inj (h : Code code width bound) {xs ys : List (List α)}
    (hlength : xs.length = ys.length) (hxs : ∀ x ∈ xs, x.length < bound)
    (hys : ∀ y ∈ ys, y.length < bound) (heq : frames code xs = frames code ys) : xs = ys := by
  induction xs generalizing ys with
  | nil => exact (List.length_eq_zero_iff.mp hlength.symm).symm
  | cons x xs ih =>
    cases ys with
    | nil => cases hlength
    | cons y ys =>
      obtain ⟨hxy, hrest⟩ := frame_append_inj h (hxs x List.mem_cons_self)
        (hys y List.mem_cons_self) heq
      rw [hxy, ih (Nat.succ.inj hlength) (fun x hx => hxs x (List.mem_cons_of_mem _ hx))
        (fun y hy => hys y (List.mem_cons_of_mem _ hy)) hrest]

/-! ## What is read off the head of a word -/

section Delimits

universe v

variable {β : Type v} {P : β → Prop} {write : β → List α}

/-- What is written can be read off the head of a word. -/
def Delimits (P : β → Prop) (write : β → List α) : Prop :=
  ∀ ⦃x y⦄, P x → P y → ∀ ⦃u v⦄, write x ++ u = write y ++ v → x = y ∧ u = v

/-- A letter that stands in no word ends it. -/
theorem delimits_terminated {stop : α} (hinj : ∀ ⦃x y⦄, P x → P y → write x = write y → x = y)
    (hstop : ∀ x, P x → stop ∉ write x) : Delimits P fun x => write x ++ [stop] := by
  intro x y hx hy u v heq
  rw [List.append_assoc, List.append_assoc, List.singleton_append, List.singleton_append] at heq
  rcases List.append_eq_append_iff.mp heq with ⟨l, hl, hrest⟩ | ⟨l, hl, hrest⟩
  · rcases l with - | ⟨a, l⟩
    · rw [List.append_nil] at hl
      exact ⟨hinj hx hy hl.symm, (List.cons_eq_cons.mp hrest).2⟩
    · obtain ⟨rfl, -⟩ := List.cons_eq_cons.mp hrest
      exact absurd (hl ▸ List.mem_append_right _ List.mem_cons_self) (hstop y hy)
  · rcases l with - | ⟨a, l⟩
    · rw [List.append_nil] at hl
      exact ⟨hinj hx hy hl, (List.cons_eq_cons.mp hrest).2.symm⟩
    · obtain ⟨rfl, -⟩ := List.cons_eq_cons.mp hrest
      exact absurd (hl ▸ List.mem_append_right _ List.mem_cons_self) (hstop x hx)

/-- A frame delimits itself when the code of its length does. -/
theorem Delimits.frame (h : Delimits (fun _ => True) code) :
    Delimits (fun _ => True) (Framing.frame code) := by
  intro x y _ _ u v heq
  unfold Framing.frame at heq
  rw [List.append_assoc, List.append_assoc] at heq
  obtain ⟨hlength, hrest⟩ := h trivial trivial heq
  exact List.append_inj hrest hlength

/-- **A list of a known length is read off** when its items are. -/
theorem Delimits.flatMap (h : Delimits P write) {xs ys : List β} (hlength : xs.length = ys.length)
    (hxs : ∀ x ∈ xs, P x) (hys : ∀ y ∈ ys, P y) {u v : List α}
    (heq : xs.flatMap write ++ u = ys.flatMap write ++ v) : xs = ys ∧ u = v := by
  induction xs generalizing ys with
  | nil =>
    obtain rfl := List.length_eq_zero_iff.mp hlength.symm
    exact ⟨rfl, heq⟩
  | cons x xs ih =>
    cases ys with
    | nil => cases hlength
    | cons y ys =>
      rw [List.flatMap_cons, List.flatMap_cons, List.append_assoc, List.append_assoc] at heq
      obtain ⟨rfl, hrest⟩ := h (hxs x List.mem_cons_self) (hys y List.mem_cons_self) heq
      obtain ⟨hitems, hword⟩ := ih (Nat.succ.inj hlength)
        (fun x hx => hxs x (List.mem_cons_of_mem _ hx))
        (fun y hy => hys y (List.mem_cons_of_mem _ hy)) hrest
      exact ⟨by rw [hitems], hword⟩

end Delimits

/-! ## Big-endian numbers -/

/-- The last `width` digits of `n` to the base `base`, the highest first. -/
def bigEndian (base : ℕ) [NeZero base] : ℕ → ℕ → List (Fin base)
  | 0, _ => []
  | width + 1, n => bigEndian base width (n / base) ++ [Fin.ofNat base n]

variable {base : ℕ} [NeZero base]

theorem length_bigEndian (width n : ℕ) : (bigEndian base width n).length = width := by
  induction width generalizing n with
  | zero => rfl
  | succ width ih => rw [bigEndian, List.length_append, ih, List.length_singleton]

theorem bigEndian_inj (width : ℕ) {m n : ℕ} (hm : m < base ^ width) (hn : n < base ^ width)
    (heq : bigEndian base width m = bigEndian base width n) : m = n := by
  induction width generalizing m n with
  | zero =>
    rw [Nat.pow_zero] at hm hn
    omega
  | succ width ih =>
    rw [Nat.pow_succ] at hm hn
    obtain ⟨hhigh, hlow⟩ := List.append_inj' heq rfl
    have hquotient := ih (Nat.div_lt_of_lt_mul (by rwa [Nat.mul_comm])) (Nat.div_lt_of_lt_mul
      (by rwa [Nat.mul_comm])) hhigh
    have hremainder : m % base = n % base := congrArg Fin.val (List.singleton_inj.mp hlow)
    rw [← Nat.div_add_mod m base, ← Nat.div_add_mod n base, hquotient, hremainder]

/-- **Big-endian numbers of a fixed width are a code.** -/
theorem code_bigEndian (base : ℕ) [NeZero base] (width : ℕ) :
    Code (bigEndian base width) width (base ^ width) where
  length := length_bigEndian width
  inj := bigEndian_inj width

end Framing

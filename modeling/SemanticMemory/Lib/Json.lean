import Mathlib.Data.Nat.Digits.Lemmas
import Mathlib.Data.Fin.Basic
import Mathlib.Tactic

/-!
# JSON texts in ASCII

The values of Python's `json` module, the text `dumps` writes for one and the value `loads` reads
from a text.

* A string is the list of its UTF-16 code units.  Escaped to ASCII, a string is written unit by
  unit, so two strings have the same text exactly when they have the same units, also where a unit
  is half of no pair.
* A dictionary is its items in the order they are written.  A caller that sorts its keys lists the
  items in that order, and then equal dictionaries are equal lists.
* A finite float is its `repr`, which tells floats apart.
* `dumps` writes `separators=(",", ":")` and `ensure_ascii=True`; `loads` also skips white space
  between tokens.  Every text in sight is ASCII.

`loads_dumps` is the round trip, `dumps_inj` follows, and with it equality of values is decidable by
their texts.  `newline_notMem_dumps` is what makes a text a line.
-/

instance Json.neZeroByte : NeZero (256 : ℕ) := ⟨by decide⟩

/-- The `repr` of a finite float: a number with a fraction or an exponent. -/
def Json.isFloatByte (b : Fin 256) : Bool :=
  (48 ≤ b && b ≤ 57) || b = 45 || b = 43 || b = 46 || b = 101

/-- A text that is read as a float. -/
def Json.isFloatLiteral (t : List (Fin 256)) : Bool :=
  t.all Json.isFloatByte && (t.contains 46 || t.contains 101) &&
    match t with
    | 45 :: b :: _ => 48 ≤ b && b ≤ 57
    | b :: _ => 48 ≤ b && b ≤ 57
    | [] => false

/-- The floats that are no numbers of JSON, and that Python writes all the same. -/
inductive NonFinite where
  | nan
  | infinity
  | minusInfinity

inductive Json where
  | null
  | bool (b : Bool)
  | int (n : ℤ)
  | nonFinite (x : NonFinite)
  | float (literal : {t : List (Fin 256) // Json.isFloatLiteral t = true})
  | str (units : List (Fin 65536))
  | arr (items : List Json)
  | obj (fields : List (List (Fin 65536) × Json))

namespace Json

abbrev Bytes := List (Fin 256)

def lit (literal : String) : Bytes := literal.toList.map fun c => Fin.ofNat 256 c.toNat

instance neZeroUnit : NeZero (65536 : ℕ) := ⟨by decide⟩

def units (literal : String) : List (Fin 65536) :=
  literal.toList.map fun c => Fin.ofNat 65536 c.toNat

/-! ## Writing -/

/-- A digit to a base up to sixteen, as `%x` writes it. -/
def hexDigit (n : ℕ) : Fin 256 := Fin.ofNat 256 (if n < 10 then 48 + n else 87 + n)

/-- A natural number in decimal. -/
def showNat (n : ℕ) : Bytes :=
  if n = 0 then [48] else (Nat.digits 10 n).reverse.map hexDigit

/-- `int.__repr__`. -/
def showInt : ℤ → Bytes
  | .ofNat n => showNat n
  | .negSucc n => 45 :: showNat (n + 1)

/-- `'\\u{0:04x}'.format(n)`. -/
def hex4 (n : ℕ) : Bytes :=
  [92, 117, hexDigit (n / 4096), hexDigit (n / 256 % 16), hexDigit (n / 16 % 16), hexDigit (n % 16)]

/-- One unit of a string, escaped. -/
def escape (u : Fin 65536) : Bytes :=
  if u = 34 then [92, 34]
  else if u = 92 then [92, 92]
  else if u = 10 then [92, 110]
  else if u = 13 then [92, 114]
  else if u = 9 then [92, 116]
  else if u = 12 then [92, 102]
  else if u = 8 then [92, 98]
  else if 32 ≤ u ∧ u < 127 then [Fin.ofNat 256 u.val]
  else hex4 u

/-- The units of a string and the closing quote. -/
def showUnits (s : List (Fin 65536)) : Bytes := s.flatMap escape ++ [34]

def showStr (s : List (Fin 65536)) : Bytes := 34 :: showUnits s

/-- `float.__repr__` as `json` spells it. -/
def showNonFinite : NonFinite → Bytes
  | .nan => lit "NaN"
  | .infinity => lit "Infinity"
  | .minusInfinity => lit "-Infinity"

mutual

/-- `json.dumps`. -/
def dumps : Json → Bytes
  | .null => lit "null"
  | .bool true => lit "true"
  | .bool false => lit "false"
  | .int n => showInt n
  | .nonFinite x => showNonFinite x
  | .float literal => literal
  | .str s => showStr s
  | .arr [] => [91, 93]
  | .arr (x :: xs) => 91 :: (dumps x ++ dumpsItems xs)
  | .obj [] => [123, 125]
  | .obj ((k, v) :: fs) => 123 :: (showStr k ++ 58 :: (dumps v ++ dumpsFields fs))

/-- The further items of an array and its closing bracket. -/
def dumpsItems : List Json → Bytes
  | [] => [93]
  | x :: xs => 44 :: (dumps x ++ dumpsItems xs)

/-- The further items of a dictionary and its closing brace. -/
def dumpsFields : List (List (Fin 65536) × Json) → Bytes
  | [] => [125]
  | (k, v) :: fs => 44 :: (showStr k ++ 58 :: (dumps v ++ dumpsFields fs))

end

/-! ## Reading -/

/-- White space between tokens. -/
def skip : Bytes → Bytes
  | [] => []
  | b :: t => if b = 32 ∨ b = 9 ∨ b = 10 ∨ b = 13 then skip t else b :: t

def isNumberByte (b : Fin 256) : Bool := isFloatByte b || b = 69

def hexValue (b : Fin 256) : Option ℕ :=
  if 48 ≤ b ∧ b ≤ 57 then some (b.val - 48)
  else if 97 ≤ b ∧ b ≤ 102 then some (b.val - 87)
  else if 65 ≤ b ∧ b ≤ 70 then some (b.val - 55)
  else none

/-- A natural number in decimal, without a leading zero. -/
def readNat (t : Bytes) : Option ℕ :=
  if t ≠ [] ∧ (∀ b ∈ t, 48 ≤ b ∧ b ≤ 57) ∧ (t.head? = some 48 → t = [48]) then
    some (Nat.ofDigits 10 (t.reverse.map fun b => b.val - 48))
  else none

/-- An integer in decimal. -/
def readInt (t : Bytes) : Option ℤ :=
  match t with
  | [] => none
  | b :: u =>
    if b = 45 then (readNat u).map fun n : ℕ => -(n : ℤ) else (readNat (b :: u)).map fun n : ℕ => (n : ℤ)

/-- The number a token stands for. -/
def readNumber (t : Bytes) : Option Json :=
  if h : isFloatLiteral t = true then some (.float ⟨t, h⟩) else (readInt t).map .int

/-- A value that is neither a string nor a container. -/
def readAtom (t : Bytes) : Option (Json × Bytes) :=
  if (lit "null").isPrefixOf t then some (.null, t.drop 4)
  else if (lit "true").isPrefixOf t then some (.bool true, t.drop 4)
  else if (lit "false").isPrefixOf t then some (.bool false, t.drop 5)
  else if (lit "NaN").isPrefixOf t then some (.nonFinite .nan, t.drop 3)
  else if (lit "Infinity").isPrefixOf t then some (.nonFinite .infinity, t.drop 8)
  else if (lit "-Infinity").isPrefixOf t then some (.nonFinite .minusInfinity, t.drop 9)
  else (readNumber (t.takeWhile isNumberByte)).map fun v => (v, t.dropWhile isNumberByte)

/-- A unit escaped by one letter. -/
def unescape (c : Fin 256) : Option (Fin 65536) :=
  if c = 34 then some 34
  else if c = 92 then some 92
  else if c = 47 then some 47
  else if c = 110 then some 10
  else if c = 114 then some 13
  else if c = 116 then some 9
  else if c = 102 then some 12
  else if c = 98 then some 8
  else none

/-- The unit of four hexadecimal digits. -/
def readHex (t : Bytes) : Option (Fin 65536 × Bytes) :=
  match t with
  | h₃ :: h₂ :: h₁ :: h₀ :: t =>
    (hexValue h₃).bind fun n₃ => (hexValue h₂).bind fun n₂ => (hexValue h₁).bind fun n₁ =>
      (hexValue h₀).map fun n₀ =>
        (Fin.ofNat 65536 (n₃ * 4096 + n₂ * 256 + n₁ * 16 + n₀), t)
  | _ => none

def readEscape (t : Bytes) : Option (Fin 65536 × Bytes) :=
  match t with
  | [] => none
  | c :: t => if c = 117 then readHex t else (unescape c).map fun u => (u, t)

/-- The rest of a string, up to its closing quote. -/
def readUnits : ℕ → Bytes → Option (List (Fin 65536) × Bytes)
  | 0, _ => none
  | fuel + 1, t =>
    match t with
    | [] => none
    | b :: t =>
      if b = 34 then some ([], t)
      else if b < 32 ∨ 127 < b then none
      else if b = 92 then
        (readEscape t).bind fun e => (readUnits fuel e.2).map fun p => (e.1 :: p.1, p.2)
      else (readUnits fuel t).map fun p => (Fin.ofNat 65536 b.val :: p.1, p.2)

/-- A string in quotes, read from behind its opening quote. -/
def readStr (t : Bytes) : Option (List (Fin 65536) × Bytes) := readUnits (t.length + 1) t

/-- One byte that must come next. -/
def expect (b : Fin 256) (t : Bytes) : Option Bytes :=
  match skip t with
  | [] => none
  | c :: t => if c = b then some t else none

/-- A key and the colon behind it. -/
def readKey (t : Bytes) : Option (List (Fin 65536) × Bytes) :=
  (expect 34 t).bind fun t => (readStr t).bind fun p => (expect 58 p.2).map fun t => (p.1, t)

mutual

/-- One value at the head of a text. -/
def readValue : ℕ → Bytes → Option (Json × Bytes)
  | 0, _ => none
  | fuel + 1, t =>
    match skip t with
    | [] => none
    | b :: t =>
      if b = 34 then (readStr t).map fun p => (.str p.1, p.2)
      else if b = 91 then
        match expect 93 t with
        | some t => some (.arr [], t)
        | none => (readValue fuel t).bind fun p =>
            (readItems fuel p.2).map fun q => (.arr (p.1 :: q.1), q.2)
      else if b = 123 then
        match expect 125 t with
        | some t => some (.obj [], t)
        | none => (readKey t).bind fun k => (readValue fuel k.2).bind fun p =>
            (readFields fuel p.2).map fun q => (.obj ((k.1, p.1) :: q.1), q.2)
      else readAtom (b :: t)

/-- The further items of an array. -/
def readItems : ℕ → Bytes → Option (List Json × Bytes)
  | 0, _ => none
  | fuel + 1, t =>
    match expect 93 t with
    | some t => some ([], t)
    | none => (expect 44 t).bind fun t => (readValue fuel t).bind fun p =>
        (readItems fuel p.2).map fun q => (p.1 :: q.1, q.2)

/-- The further items of a dictionary. -/
def readFields : ℕ → Bytes → Option (List (List (Fin 65536) × Json) × Bytes)
  | 0, _ => none
  | fuel + 1, t =>
    match expect 125 t with
    | some t => some ([], t)
    | none => (expect 44 t).bind fun t => (readKey t).bind fun k =>
        (readValue fuel k.2).bind fun p =>
          (readFields fuel p.2).map fun q => ((k.1, p.1) :: q.1, q.2)

end

/-- `json.loads`. -/
def loads (t : Bytes) : Option Json :=
  match readValue (t.length + 1) t with
  | some (v, rest) => if skip rest = [] then some v else none
  | none => none

/-! ## Reading what was written -/

/-- A byte that is no white space. -/
def Solid (b : Fin 256) : Prop := b ≠ 32 ∧ b ≠ 9 ∧ b ≠ 10 ∧ b ≠ 13

instance (b : Fin 256) : Decidable (Solid b) := inferInstanceAs (Decidable (_ ∧ _))

theorem skip_cons {b : Fin 256} (h : Solid b) (t : Bytes) : skip (b :: t) = b :: t := by
  obtain ⟨h₁, h₂, h₃, h₄⟩ := h
  rw [skip, if_neg (by tauto)]

theorem expect_cons {b : Fin 256} (h : Solid b) (t : Bytes) : expect b (b :: t) = some t := by
  rw [expect, skip_cons h]
  exact if_pos rfl

theorem expect_cons_of_ne {b c : Fin 256} (hc : Solid c) (h : c ≠ b) (t : Bytes) :
    expect b (c :: t) = none := by
  rw [expect, skip_cons hc]
  exact if_neg h

/-! ### Strings -/

theorem hexValue_hexDigit {n : ℕ} (h : n < 16) : hexValue (hexDigit n) = some n := by
  revert n
  decide

/-- The four digits of a unit are its value. -/
theorem hex4_value (u : Fin 65536) :
    Fin.ofNat 65536 (u.val / 4096 * 4096 + u.val / 256 % 16 * 256 + u.val / 16 % 16 * 16 +
      u.val % 16) = u := by
  have hsum : u.val / 4096 * 4096 + u.val / 256 % 16 * 256 + u.val / 16 % 16 * 16 + u.val % 16 =
      u.val := by omega
  rw [hsum]
  exact Fin.ext (Nat.mod_eq_of_lt u.isLt)

theorem readHex_hex4 (u : Fin 65536) (t : Bytes) :
    readHex ((hex4 u).drop 2 ++ t) = some (u, t) := by
  show (hexValue _).bind _ = _
  simp only [hexValue_hexDigit (show u.val / 4096 < 16 by omega),
    hexValue_hexDigit (show u.val / 256 % 16 < 16 by omega),
    hexValue_hexDigit (show u.val / 16 % 16 < 16 by omega),
    hexValue_hexDigit (show u.val % 16 < 16 by omega), Option.bind_some, Option.map_some, hex4_value]
  rfl

theorem readUnits_escape (fuel : ℕ) (u : Fin 65536) (t : Bytes) :
    readUnits (fuel + 1) (escape u ++ t) =
      (readUnits fuel t).map fun p => (u :: p.1, p.2) := by
  unfold escape
  split_ifs with h₁ h₂ h₃ h₄ h₅ h₆ h₇ h₈
  · subst h₁; rfl
  · subst h₂; rfl
  · subst h₃; rfl
  · subst h₄; rfl
  · subst h₅; rfl
  · subst h₆; rfl
  · subst h₇; rfl
  · -- the unit stands for itself
    obtain ⟨hlow, hhigh⟩ := h₈
    have hlow' : 32 ≤ u.val := hlow
    have hhigh' : u.val < 127 := hhigh
    have hval : (Fin.ofNat 256 u.val).val = u.val := Nat.mod_eq_of_lt (by omega)
    have h34 : Fin.ofNat 256 u.val ≠ 34 := fun h =>
      h₁ (Fin.ext (hval.symm.trans (congrArg Fin.val h)))
    have h92 : Fin.ofNat 256 u.val ≠ 92 := fun h =>
      h₂ (Fin.ext (hval.symm.trans (congrArg Fin.val h)))
    have hrange : ¬ (Fin.ofNat 256 u.val < 32 ∨ 127 < Fin.ofNat 256 u.val) := by
      simp only [Fin.lt_def, hval]
      rintro (h | h)
      · exact Nat.not_lt.mpr hlow' h
      · exact Nat.lt_asymm hhigh' h
    have hunit : Fin.ofNat 65536 u.val = u := Fin.ext (Nat.mod_eq_of_lt u.isLt)
    simp only [List.cons_append, List.nil_append, readUnits, if_neg h34, if_neg hrange, if_neg h92,
      hval, hunit]
  · have hescape : readEscape ((hex4 u).drop 1 ++ t) = some (u, t) := readHex_hex4 u t
    show (readEscape ((hex4 u).drop 1 ++ t)).bind _ = _
    rw [hescape, Option.bind_some]

theorem readUnits_showUnits (s : List (Fin 65536)) (t : Bytes) {fuel : ℕ}
    (h : s.length < fuel) : readUnits fuel (showUnits s ++ t) = some (s, t) := by
  induction s generalizing fuel with
  | nil =>
    obtain ⟨fuel, rfl⟩ := Nat.exists_eq_succ_of_ne_zero (Nat.ne_zero_of_lt h)
    rfl
  | cons u s ih =>
    obtain ⟨fuel, rfl⟩ := Nat.exists_eq_succ_of_ne_zero (Nat.ne_zero_of_lt h)
    have hs : showUnits (u :: s) ++ t = escape u ++ (showUnits s ++ t) := by
      simp only [showUnits, List.flatMap_cons, List.append_assoc]
    rw [hs, readUnits_escape, ih (Nat.lt_of_succ_lt_succ h)]
    rfl

theorem escape_length_pos (u : Fin 65536) : 0 < (escape u).length := by
  unfold escape hex4
  split_ifs <;> exact Nat.succ_pos _

theorem length_lt_showUnits (s : List (Fin 65536)) : s.length < (showUnits s).length := by
  induction s with
  | nil => exact Nat.one_pos
  | cons u s ih =>
    have hs : showUnits (u :: s) = escape u ++ showUnits s := by
      simp only [showUnits, List.flatMap_cons, List.append_assoc]
    have := escape_length_pos u
    rw [hs, List.length_append, List.length_cons]
    omega

/-- **A string is read back.** -/
theorem readStr_showUnits (s : List (Fin 65536)) (t : Bytes) :
    readStr (showUnits s ++ t) = some (s, t) := by
  refine readUnits_showUnits s t ?_
  have := length_lt_showUnits s
  rw [List.length_append]
  omega

theorem readKey_showStr (k : List (Fin 65536)) (t : Bytes) :
    readKey (showStr k ++ 58 :: t) = some (k, t) := by
  unfold readKey showStr
  rw [List.cons_append, expect_cons (by decide), Option.bind_some, readStr_showUnits,
    Option.bind_some, expect_cons (by decide)]
  rfl

/-! ### Numbers -/

def IsDigit (b : Fin 256) : Prop := 48 ≤ b ∧ b ≤ 57

instance (b : Fin 256) : Decidable (IsDigit b) := inferInstanceAs (Decidable (_ ∧ _))

theorem isFloatByte_of_isDigit {b : Fin 256} (h : IsDigit b) : isFloatByte b = true := by
  obtain ⟨hlow, hhigh⟩ := h
  simp [isFloatByte, hlow, hhigh]

theorem isDigit_hexDigit {n : ℕ} (h : n < 10) : IsDigit (hexDigit n) := by
  revert n
  decide

theorem val_hexDigit {n : ℕ} (h : n < 10) : (hexDigit n).val - 48 = n := by
  revert n
  decide

theorem isDigit_of_mem_showNat {n : ℕ} {b : Fin 256} (h : b ∈ showNat n) : IsDigit b := by
  unfold showNat at h
  split_ifs at h with hn
  · rw [List.mem_singleton.mp h]
    decide
  · obtain ⟨d, hd, rfl⟩ := List.mem_map.mp h
    exact isDigit_hexDigit (Nat.digits_lt_base (by decide) (List.mem_reverse.mp hd))

theorem showNat_ne_nil (n : ℕ) : showNat n ≠ [] := by
  unfold showNat
  split_ifs with hn
  · exact List.cons_ne_nil _ _
  · simpa using Nat.digits_ne_nil_iff_ne_zero.mpr hn

/-- A natural number is read back. -/
theorem readNat_showNat (n : ℕ) : readNat (showNat n) = some n := by
  have hdigits : ∀ b ∈ showNat n, 48 ≤ b ∧ b ≤ 57 := fun b hb => isDigit_of_mem_showNat hb
  unfold readNat
  rcases Nat.eq_zero_or_pos n with rfl | hpos
  · decide +kernel
  have hn : n ≠ 0 := Nat.ne_of_gt hpos
  have hshow : showNat n = (Nat.digits 10 n).reverse.map hexDigit := if_neg hn
  have hvalues : (showNat n).reverse.map (fun b => b.val - 48) = Nat.digits 10 n := by
    rw [hshow, ← List.map_reverse, List.reverse_reverse, List.map_map]
    calc (Nat.digits 10 n).map ((fun b => b.val - 48) ∘ hexDigit)
        = (Nat.digits 10 n).map id :=
          List.map_congr_left fun d hd => val_hexDigit (Nat.digits_lt_base (by decide) hd)
      _ = Nat.digits 10 n := List.map_id _
  have hlead : (showNat n).head? = some 48 → showNat n = [48] := by
    have hne := Nat.digits_ne_nil_iff_ne_zero (b := 10).mpr hn
    have hlast := Nat.getLast_digit_ne_zero 10 hn
    have hlt : (Nat.digits 10 n).getLast hne < 10 :=
      Nat.digits_lt_base (by decide) (List.getLast_mem hne)
    rw [hshow, List.head?_map, List.head?_reverse, List.getLast?_eq_some_getLast hne,
      Option.map_some, Option.some.injEq]
    intro h48
    have hzero := val_hexDigit hlt
    rw [h48] at hzero
    exact absurd hzero.symm hlast
  rw [if_pos ⟨showNat_ne_nil n, hdigits, hlead⟩, hvalues, Nat.ofDigits_digits]

/-- A text that begins like a number. -/
def Lead (t : Bytes) : Prop := ∃ d u, IsDigit d ∧ (t = d :: u ∨ t = 45 :: d :: u)

/-- A text that does not go on with a number. -/
def Stops (t : Bytes) : Prop := ∀ b ∈ t.head?, isNumberByte b = false

theorem lead_showInt (n : ℤ) : Lead (showInt n) := by
  have hnat (m : ℕ) : ∃ d u, IsDigit d ∧ showNat m = d :: u := by
    rcases h : showNat m with - | ⟨d, u⟩
    · exact absurd h (showNat_ne_nil m)
    · exact ⟨d, u, isDigit_of_mem_showNat (h ▸ List.mem_cons_self), rfl⟩
  rcases n with m | m
  · obtain ⟨d, u, hd, h⟩ := hnat m
    exact ⟨d, u, hd, Or.inl h⟩
  · obtain ⟨d, u, hd, h⟩ := hnat (m + 1)
    exact ⟨d, u, hd, Or.inr (congrArg (45 :: ·) h)⟩

theorem lead_float {t : Bytes} (h : isFloatLiteral t = true) : Lead t := by
  unfold isFloatLiteral at h
  rw [Bool.and_eq_true] at h
  have hhead := h.2
  split at hhead
  · next d u =>
    simp only [Bool.and_eq_true, decide_eq_true_eq] at hhead
    exact ⟨d, u, hhead, Or.inr rfl⟩
  · next d u _ =>
    simp only [Bool.and_eq_true, decide_eq_true_eq] at hhead
    exact ⟨d, u, hhead, Or.inl rfl⟩
  · cases hhead

theorem isNumberByte_of_mem_showInt {n : ℤ} {b : Fin 256} (h : b ∈ showInt n) :
    isNumberByte b = true := by
  have hdigit {c : Fin 256} (hc : IsDigit c) : isNumberByte c = true := by
    simp [isNumberByte, isFloatByte_of_isDigit hc]
  rcases n with m | m
  · exact hdigit (isDigit_of_mem_showNat h)
  · rcases List.mem_cons.mp h with rfl | h
    · decide
    · exact hdigit (isDigit_of_mem_showNat h)

theorem isNumberByte_of_mem_float {t : Bytes} (h : isFloatLiteral t = true) {b : Fin 256}
    (hb : b ∈ t) : isNumberByte b = true := by
  unfold isFloatLiteral at h
  rw [Bool.and_eq_true, Bool.and_eq_true] at h
  simp [isNumberByte, List.all_eq_true.mp h.1.1 b hb]

theorem isFloatLiteral_showInt (n : ℤ) : isFloatLiteral (showInt n) = false := by
  have hdigit {b : Fin 256} {m : ℕ} (hb : b ∈ showNat m) : b ≠ 46 ∧ b ≠ 101 := by
    have := isDigit_of_mem_showNat hb
    constructor <;> rintro rfl <;> revert this <;> decide
  have hmem : (46 : Fin 256) ∉ showInt n ∧ (101 : Fin 256) ∉ showInt n := by
    rcases n with m | m
    · exact ⟨fun h => (hdigit h).1 rfl, fun h => (hdigit h).2 rfl⟩
    · constructor <;> intro h <;> rcases List.mem_cons.mp h with h | h
      · cases h
      · exact (hdigit h).1 rfl
      · cases h
      · exact (hdigit h).2 rfl
  unfold isFloatLiteral
  simp [hmem.1, hmem.2]

theorem readInt_showInt (n : ℤ) : readInt (showInt n) = some n := by
  rcases n with m | m
  · have hshow : showInt (.ofNat m) = showNat m := rfl
    rcases h : showNat m with - | ⟨d, u⟩
    · exact absurd h (showNat_ne_nil m)
    · have hd : IsDigit d := isDigit_of_mem_showNat (h ▸ List.mem_cons_self)
      have h45 : d ≠ 45 := by
        rintro rfl
        revert hd
        decide
      rw [hshow, h, readInt, if_neg h45, ← h, readNat_showNat]
      rfl
  · rw [showInt, readInt, if_pos rfl, readNat_showNat]
    rfl

theorem readNumber_showInt (n : ℤ) : readNumber (showInt n) = some (.int n) := by
  have h := isFloatLiteral_showInt n
  rw [readNumber, dif_neg (Bool.eq_false_iff.mp h), readInt_showInt]
  rfl

theorem takeWhile_append_of_stops {t r : Bytes} (ht : ∀ b ∈ t, isNumberByte b = true)
    (hr : Stops r) :
    (t ++ r).takeWhile isNumberByte = t ∧ (t ++ r).dropWhile isNumberByte = r := by
  rw [List.takeWhile_append_of_pos ht, List.dropWhile_append_of_pos ht]
  rcases r with - | ⟨b, r⟩
  · exact ⟨List.append_nil t, rfl⟩
  · have hb := hr b rfl
    rw [List.takeWhile_cons_of_neg (by simp [hb]), List.dropWhile_cons_of_neg (by simp [hb])]
    exact ⟨List.append_nil t, rfl⟩

theorem isPrefixOf_of_ne {a b : Fin 256} (h : a ≠ b) (l m : Bytes) :
    (a :: l).isPrefixOf (b :: m) = false := by
  rw [List.isPrefixOf_cons_cons, beq_false_of_ne h, Bool.false_and]

/-- What begins like a number is none of the words. -/
theorem isPrefixOf_of_lead {t : Bytes} (h : Lead t) (r : Bytes) :
    (lit "null").isPrefixOf (t ++ r) = false ∧ (lit "true").isPrefixOf (t ++ r) = false ∧
      (lit "false").isPrefixOf (t ++ r) = false ∧ (lit "NaN").isPrefixOf (t ++ r) = false ∧
      (lit "Infinity").isPrefixOf (t ++ r) = false ∧
      (lit "-Infinity").isPrefixOf (t ++ r) = false := by
  have hdigit {d b : Fin 256} (hd : IsDigit d) (hb : ¬ IsDigit b) : b ≠ d := by
    rintro rfl
    exact hb hd
  obtain ⟨d, u, hd, rfl | rfl⟩ := h
  · exact ⟨isPrefixOf_of_ne (hdigit hd (by decide)) _ _,
      isPrefixOf_of_ne (hdigit hd (by decide)) _ _, isPrefixOf_of_ne (hdigit hd (by decide)) _ _,
      isPrefixOf_of_ne (hdigit hd (by decide)) _ _, isPrefixOf_of_ne (hdigit hd (by decide)) _ _,
      isPrefixOf_of_ne (hdigit hd (by decide)) _ _⟩
  · exact ⟨isPrefixOf_of_ne (by decide) _ _, isPrefixOf_of_ne (by decide) _ _,
      isPrefixOf_of_ne (by decide) _ _, isPrefixOf_of_ne (by decide) _ _,
      isPrefixOf_of_ne (by decide) _ _, isPrefixOf_of_ne (hdigit hd (by decide)) _ _⟩

/-- **A number is read up to where it stops.** -/
theorem readAtom_number {t r : Bytes} (hlead : Lead t) (ht : ∀ b ∈ t, isNumberByte b = true)
    (hr : Stops r) : readAtom (t ++ r) = (readNumber t).map fun v => (v, r) := by
  obtain ⟨h₁, h₂, h₃, h₄, h₅, h₆⟩ := isPrefixOf_of_lead hlead r
  obtain ⟨htake, hdrop⟩ := takeWhile_append_of_stops ht hr
  simp only [readAtom, h₁, h₂, h₃, h₄, h₅, h₆, htake, hdrop, Bool.false_eq_true, if_false]

/-! ### Values -/

/-- A text a value can begin with. -/
def Opens (t : Bytes) : Prop := ∃ b u, t = b :: u ∧ Solid b ∧ b ≠ 93 ∧ b ≠ 125

theorem Lead.opens {t : Bytes} (h : Lead t) : Opens t := by
  obtain ⟨d, u, hd, rfl | rfl⟩ := h
  · refine ⟨d, u, rfl, ⟨?_, ?_, ?_, ?_⟩, ?_, ?_⟩ <;> rintro rfl <;> revert hd <;> decide
  · exact ⟨45, d :: u, rfl, by decide, by decide, by decide⟩

theorem opens_dumps (v : Json) : Opens (dumps v) := by
  cases v with
  | null => exact ⟨110, _, rfl, by decide, by decide, by decide⟩
  | bool b => cases b <;> exact ⟨_, _, rfl, by decide, by decide, by decide⟩
  | int n => rw [dumps]; exact (lead_showInt n).opens
  | nonFinite x => cases x <;> exact ⟨_, _, rfl, by decide, by decide, by decide⟩
  | float l => rw [dumps]; exact (lead_float l.2).opens
  | str s => rw [dumps]; exact ⟨34, _, rfl, by decide, by decide, by decide⟩
  | arr xs => cases xs <;> rw [dumps] <;> exact ⟨91, _, rfl, by decide, by decide, by decide⟩
  | obj fs =>
    cases fs <;> rw [dumps] <;> exact ⟨123, _, rfl, by decide, by decide, by decide⟩

theorem expect_dumps {b : Fin 256} (hb : b = 93 ∨ b = 125) (v : Json) (t : Bytes) :
    expect b (dumps v ++ t) = none := by
  obtain ⟨c, u, h, hsolid, h93, h125⟩ := opens_dumps v
  rw [h, List.cons_append]
  exact expect_cons_of_ne hsolid (by rcases hb with rfl | rfl <;> assumption) _

theorem readValue_atom {b : Fin 256} (hb : Solid b) (h₁ : b ≠ 34) (h₂ : b ≠ 91) (h₃ : b ≠ 123)
    (fuel : ℕ) (t : Bytes) : readValue (fuel + 1) (b :: t) = readAtom (b :: t) := by
  simp only [readValue, skip_cons hb, if_neg h₁, if_neg h₂, if_neg h₃]

theorem readValue_number {t r : Bytes} (hlead : Lead t) (ht : ∀ b ∈ t, isNumberByte b = true)
    (hr : Stops r) (fuel : ℕ) :
    readValue (fuel + 1) (t ++ r) = (readNumber t).map fun v => (v, r) := by
  rw [← readAtom_number hlead ht hr]
  obtain ⟨d, u, hd, rfl | rfl⟩ := hlead
  · refine readValue_atom ⟨?_, ?_, ?_, ?_⟩ ?_ ?_ ?_ fuel (u ++ r) <;> rintro rfl <;>
      revert hd <;> decide
  · exact readValue_atom (by decide) (by decide) (by decide) (by decide) fuel _

theorem stops_dumpsItems (xs : List Json) (r : Bytes) : Stops (dumpsItems xs ++ r) := by
  cases xs <;> rintro b hb <;> cases hb <;> decide

theorem stops_dumpsFields (fs : List (List (Fin 65536) × Json)) (r : Bytes) :
    Stops (dumpsFields fs ++ r) := by
  rcases fs with - | ⟨⟨k, v⟩, fs⟩ <;> rintro b hb <;> cases hb <;> decide

mutual

/-- **A value is read back.**  By recursion on the value; every container takes one unit of the fuel
for itself, and its first byte pays for it. -/
theorem readValue_dumps (v : Json) {r : Bytes} {fuel : ℕ} (h : (dumps v).length ≤ fuel)
    (hr : Stops r) : readValue fuel (dumps v ++ r) = some (v, r) := by
  obtain ⟨b, u, hb, -⟩ := opens_dumps v
  obtain ⟨fuel, rfl⟩ : ∃ n, fuel = n + 1 := by
    rw [hb, List.length_cons] at h
    exact ⟨fuel - 1, by omega⟩
  cases v with
  | null => exact readValue_atom (by decide) (by decide) (by decide) (by decide) fuel _
  | bool b => cases b <;> exact readValue_atom (by decide) (by decide) (by decide) (by decide) fuel _
  | nonFinite x =>
    cases x <;> exact readValue_atom (by decide) (by decide) (by decide) (by decide) fuel _
  | int n =>
    rw [dumps, readValue_number (lead_showInt n) (fun b hb => isNumberByte_of_mem_showInt hb) hr,
      readNumber_showInt, Option.map_some]
  | float l =>
    rw [dumps, readValue_number (lead_float l.2) (fun b hb => isNumberByte_of_mem_float l.2 hb) hr,
      readNumber, dif_pos l.2, Option.map_some]
  | str s =>
    rw [dumps, showStr, List.cons_append]
    simp only [readValue, skip_cons (show Solid 34 by decide), if_true, readStr_showUnits,
      Option.map_some]
  | arr xs =>
    cases xs with
    | nil =>
      rw [dumps, List.cons_append, List.cons_append, List.nil_append]
      simp only [readValue, skip_cons (show Solid 91 by decide),
        expect_cons (show Solid 93 by decide)]
      rfl
    | cons x xs =>
      rw [dumps, List.cons_append, List.append_assoc]
      rw [dumps, List.length_cons, List.length_append] at h
      simp only [readValue, skip_cons (show Solid 91 by decide), expect_dumps (Or.inl rfl)]
      rw [if_neg (by decide), if_pos trivial,
        readValue_dumps x (by omega) (stops_dumpsItems xs r), Option.bind_some,
        readItems_dumps xs (by omega), Option.map_some]
  | obj fs =>
    cases fs with
    | nil =>
      rw [dumps, List.cons_append, List.cons_append, List.nil_append]
      simp only [readValue, skip_cons (show Solid 123 by decide),
        expect_cons (show Solid 125 by decide)]
      rfl
    | cons f fs =>
      obtain ⟨k, v⟩ := f
      rw [dumps, List.cons_append, List.append_assoc, List.cons_append, List.append_assoc]
      rw [dumps, List.length_cons, List.length_append, List.length_cons, List.length_append] at h
      have hexpect : expect 125 (showStr k ++ 58 :: (dumps v ++ (dumpsFields fs ++ r))) = none :=
        expect_cons_of_ne (by decide) (by decide) _
      simp only [readValue, skip_cons (show Solid 123 by decide), hexpect]
      rw [if_neg (by decide), if_neg (by decide), if_pos trivial, readKey_showStr,
        Option.bind_some, readValue_dumps v (by omega) (stops_dumpsFields fs r), Option.bind_some,
        readFields_dumps fs (by omega), Option.map_some]

theorem readItems_dumps (xs : List Json) {r : Bytes} {fuel : ℕ}
    (h : (dumpsItems xs).length ≤ fuel) : readItems fuel (dumpsItems xs ++ r) = some (xs, r) := by
  obtain ⟨fuel, rfl⟩ : ∃ n, fuel = n + 1 := by
    cases xs <;> rw [dumpsItems, List.length_cons] at h <;> exact ⟨fuel - 1, by omega⟩
  cases xs with
  | nil =>
    rw [dumpsItems, List.cons_append, List.nil_append]
    simp only [readItems, expect_cons (show Solid 93 by decide)]
  | cons x xs =>
    rw [dumpsItems, List.cons_append, List.append_assoc]
    rw [dumpsItems, List.length_cons, List.length_append] at h
    simp only [readItems, expect_cons (show Solid 44 by decide),
      expect_cons_of_ne (show Solid 44 by decide) (show (44 : Fin 256) ≠ 93 by decide)]
    rw [Option.bind_some, readValue_dumps x (by omega) (stops_dumpsItems xs r), Option.bind_some,
      readItems_dumps xs (by omega), Option.map_some]

theorem readFields_dumps (fs : List (List (Fin 65536) × Json)) {r : Bytes} {fuel : ℕ}
    (h : (dumpsFields fs).length ≤ fuel) :
    readFields fuel (dumpsFields fs ++ r) = some (fs, r) := by
  obtain ⟨fuel, rfl⟩ : ∃ n, fuel = n + 1 := by
    rcases fs with - | ⟨⟨k, v⟩, fs⟩ <;> rw [dumpsFields, List.length_cons] at h <;>
      exact ⟨fuel - 1, by omega⟩
  rcases fs with - | ⟨⟨k, v⟩, fs⟩
  · rw [dumpsFields, List.cons_append, List.nil_append]
    simp only [readFields, expect_cons (show Solid 125 by decide)]
  · rw [dumpsFields, List.cons_append, List.append_assoc, List.cons_append, List.append_assoc]
    rw [dumpsFields, List.length_cons, List.length_append, List.length_cons,
      List.length_append] at h
    simp only [readFields, expect_cons (show Solid 44 by decide),
      expect_cons_of_ne (show Solid 44 by decide) (show (44 : Fin 256) ≠ 125 by decide)]
    rw [Option.bind_some, readKey_showStr, Option.bind_some,
      readValue_dumps v (by omega) (stops_dumpsFields fs r), Option.bind_some,
      readFields_dumps fs (by omega), Option.map_some]

end

/-- **The round trip.** -/
theorem loads_dumps (v : Json) : loads (dumps v) = some v := by
  have hread : readValue ((dumps v).length + 1) (dumps v ++ []) = some (v, []) :=
    readValue_dumps v (Nat.le_succ _) nofun
  rw [List.append_nil] at hread
  rw [loads, hread]
  rfl

/-- **A text has one value.** -/
theorem dumps_inj {v w : Json} (h : dumps v = dumps w) : v = w := by
  have hv := loads_dumps v
  rw [h, loads_dumps] at hv
  exact (Option.some.inj hv).symm

instance : DecidableEq Json := fun v w =>
  decidable_of_iff (dumps v = dumps w) ⟨dumps_inj, congrArg dumps⟩

example : loads (lit " [1, -2.5e+3, \"\\u00e9\\n\"]") =
    some (.arr [.int 1, .float ⟨lit "-2.5e+3", by decide⟩, .str [233, 10]]) := by decide +kernel

/-! ## Lines -/

theorem newline_notMem_escape (u : Fin 65536) : (10 : Fin 256) ∉ escape u := by
  have hdigit {n : ℕ} (hn : n < 16) : hexDigit n ≠ 10 := by
    revert n
    decide
  unfold escape hex4
  split_ifs with h₁ h₂ h₃ h₄ h₅ h₆ h₇ h₈
  · decide
  · decide
  · decide
  · decide
  · decide
  · decide
  · decide
  · obtain ⟨hlow, hhigh⟩ := h₈
    have hlow' : 32 ≤ u.val := hlow
    have hhigh' : u.val < 127 := hhigh
    intro h
    have hval := congrArg Fin.val (List.mem_singleton.mp h)
    rw [Fin.val_ofNat, Nat.mod_eq_of_lt (show u.val < 256 by omega)] at hval
    have h10 : u.val = 10 := hval.symm
    omega
  · intro h
    have := u.isLt
    simp only [List.mem_cons, List.not_mem_nil, or_false] at h
    rcases h with h | h | h | h | h | h
    · cases h
    · cases h
    · exact hdigit (by omega) h.symm
    · exact hdigit (by omega) h.symm
    · exact hdigit (by omega) h.symm
    · exact hdigit (by omega) h.symm

theorem newline_notMem_showStr (s : List (Fin 65536)) : (10 : Fin 256) ∉ showStr s := by
  intro h
  rcases List.mem_cons.mp h with h | h
  · cases h
  · rcases List.mem_append.mp h with h | h
    · obtain ⟨u, -, hu⟩ := List.mem_flatMap.mp h
      exact newline_notMem_escape u hu
    · cases List.mem_singleton.mp h

theorem newline_notMem_of_isNumberByte {t : Bytes} (h : ∀ b ∈ t, isNumberByte b = true) :
    (10 : Fin 256) ∉ t := fun h10 => by
  have := h 10 h10
  revert this
  decide

mutual

/-- **A value is written on one line.** -/
theorem newline_notMem_dumps (v : Json) : (10 : Fin 256) ∉ dumps v := by
  cases v with
  | null => decide
  | bool b => cases b <;> decide
  | nonFinite x => cases x <;> decide
  | int n =>
    rw [dumps]
    exact newline_notMem_of_isNumberByte fun b hb => isNumberByte_of_mem_showInt hb
  | float l =>
    rw [dumps]
    exact newline_notMem_of_isNumberByte fun b hb => isNumberByte_of_mem_float l.2 hb
  | str s =>
    rw [dumps]
    exact newline_notMem_showStr s
  | arr xs =>
    cases xs with
    | nil => decide
    | cons x xs =>
      rw [dumps, List.mem_cons, List.mem_append]
      rintro (h | h | h)
      · cases h
      · exact newline_notMem_dumps x h
      · exact newline_notMem_dumpsItems xs h
  | obj fs =>
    cases fs with
    | nil => decide
    | cons f fs =>
      obtain ⟨k, v⟩ := f
      rw [dumps, List.mem_cons, List.mem_append, List.mem_cons, List.mem_append]
      rintro (h | h | h | h | h)
      · cases h
      · exact newline_notMem_showStr k h
      · cases h
      · exact newline_notMem_dumps v h
      · exact newline_notMem_dumpsFields fs h

theorem newline_notMem_dumpsItems (xs : List Json) : (10 : Fin 256) ∉ dumpsItems xs := by
  cases xs with
  | nil => decide
  | cons x xs =>
    rw [dumpsItems, List.mem_cons, List.mem_append]
    rintro (h | h | h)
    · cases h
    · exact newline_notMem_dumps x h
    · exact newline_notMem_dumpsItems xs h

theorem newline_notMem_dumpsFields (fs : List (List (Fin 65536) × Json)) :
    (10 : Fin 256) ∉ dumpsFields fs := by
  rcases fs with - | ⟨⟨k, v⟩, fs⟩
  · decide
  · rw [dumpsFields, List.mem_cons, List.mem_append, List.mem_cons, List.mem_append]
    rintro (h | h | h | h | h)
    · cases h
    · exact newline_notMem_showStr k h
    · cases h
    · exact newline_notMem_dumps v h
    · exact newline_notMem_dumpsFields fs h

end

/-- A value on a line of its own. -/
def line (v : Json) : Bytes := dumps v ++ [10]

/-- The first line of a text, as `readline` returns it, and the rest. -/
def readLine : Bytes → Bytes × Bytes
  | [] => ([], [])
  | b :: t => if b = 10 then ([10], t) else let p := readLine t; (b :: p.1, p.2)

theorem readLine_append {l : Bytes} (h : (10 : Fin 256) ∉ l) (t : Bytes) :
    readLine (l ++ 10 :: t) = (l ++ [10], t) := by
  induction l with
  | nil => rfl
  | cons b l ih =>
    have hb : b ≠ 10 := fun hb => h (hb ▸ List.mem_cons_self)
    rw [List.cons_append, readLine, if_neg hb, ih fun hl => h (List.mem_cons_of_mem _ hl)]
    rfl

/-- **The first line is the first value's.** -/
theorem readLine_line (v : Json) (t : Bytes) : readLine (line v ++ t) = (line v, t) := by
  rw [line, List.append_assoc, List.singleton_append]
  exact readLine_append (newline_notMem_dumps v) t

theorem line_length_pos (v : Json) : 0 < (line v).length := by
  rw [line, List.length_append]
  exact Nat.succ_pos _

/-- The newline behind a value is white space. -/
theorem loads_line (v : Json) : loads (line v) = some v := by
  have hread : readValue ((line v).length + 1) (dumps v ++ [10]) = some (v, [10]) :=
    readValue_dumps v (by rw [line, List.length_append]; omega) fun b hb => by
      cases hb
      decide
  rw [loads, show readValue ((line v).length + 1) (line v) = some (v, [10]) from hread]
  rfl

/-! ## Dictionaries -/

/-- `value.get(key)` of a dictionary: `None` when there is no such key. -/
def get (k : String) : Json → Json
  | .obj fs => ((fs.find? fun f => f.1 = units k).map Prod.snd).getD .null
  | _ => .null

/-- The truth value of a value. -/
def truthy : Json → Bool
  | .null => false
  | .bool b => b
  | .int n => n ≠ 0
  | .nonFinite _ => true
  | .float l => l.1.any fun b => 49 ≤ b && b ≤ 57
  | .str s => s ≠ []
  | .arr xs => !xs.isEmpty
  | .obj fs => !fs.isEmpty

end Json

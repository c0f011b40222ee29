import Mathlib
import SemanticMemory.Facts.Store
import SemanticMemory.Rerank.PrecedingText

/-!
# The migrator's UTF-8

`src/fact_migrator.cc` has a decoder of its own for the projection that is called `recode`:
`IsValidUtf8`, `TruncateToLastUnicodeChars` and `ProjectRow`.

* On a text in UTF-8 the two decoders agree, and the projected row has what the recorder would have
  kept: `truncateToLastUnicodeChars_eq`.
* The lead bytes from `F5` to `F7` have the bit pattern of a lead of four bytes and pass the check
  for values beyond the last scalar, which looks at `F4` only.  So `IsValidUtf8` takes pieces that
  are no scalars: `isValidUtf8_iff`.  On the bytes that hold such a piece the decoders disagree, and
  only there: `agree_iff`.
-/

namespace SemanticMemory.FactMigrator

open Utf8 (IsText encode isContinuation)
open Rerank (lastUnicodeCharacters)

/-! ## The decoder -/

def charLength (b : Byte) : Option ℕ :=
  if b.val < 0x80 then some 1
  else if b.val &&& 0xe0 = 0xc0 then some 2
  else if b.val &&& 0xf0 = 0xe0 then some 3
  else if b.val &&& 0xf8 = 0xf0 then some 4
  else none

/-- The checks of the first two bytes: overlong, overlong, surrogate, overlong, beyond `U+10FFFF`.
-/
def rejected (length : ℕ) (b c : Byte) : Bool :=
  (length = 2 && b.val < 0xc2) ||
  (length = 3 && b.val = 0xe0 && c.val < 0xa0) ||
  (length = 3 && b.val = 0xed && 0xa0 ≤ c.val) ||
  (length = 4 && b.val = 0xf0 && c.val < 0x90) ||
  (length = 4 && b.val = 0xf4 && 0x90 ≤ c.val)

/-- The length of the character at the head, if it passes: the body of the loop of
`IsValidUtf8`. -/
def charAt : Text → Option ℕ
  | [] => none
  | b :: bs =>
    match charLength b with
    | none => none
    | some length =>
      if bs.length < length - 1 then none
      else if (bs.take (length - 1)).all (fun c => c.val &&& 0xc0 = 0x80) = false then none
      else if rejected length b (bs.headD 0) then none
      else some length

/-- The loop of `IsValidUtf8`.  The fuel bounds the characters. -/
def isValidFuel : ℕ → Text → Bool
  | _, [] => true
  | 0, _ :: _ => false
  | fuel + 1, b :: bs =>
    match charAt (b :: bs) with
    | none => false
    | some length => isValidFuel fuel ((b :: bs).drop length)

def isValidUtf8 (text : Text) : Bool := isValidFuel text.length text

/-- `char_starts`: every lead byte that is not of one, two or three bytes is taken for four. -/
def charStarts : ℕ → ℕ → Text → List ℕ
  | _, _, [] => []
  | 0, _, _ :: _ => []
  | fuel + 1, offset, b :: bs =>
    let length := (charLength b).getD 4
    offset :: charStarts fuel (offset + length) ((b :: bs).drop length)

def truncateToLastUnicodeChars (text : Text) (maxChars : ℕ) : Text :=
  if maxChars = 0 then []
  else
    let starts := charStarts text.length 0 text
    if starts.length ≤ maxChars then text
    else text.drop (starts.getD (starts.length - maxChars) 0)

/-- The `projection` of a step. -/
inductive Projection where
  | stamp | recode | dupHlc

/-- What `ProjectRow` reads and writes of a row. -/
structure CanonicalRow where
  missingRequiredField : Bool := false
  eventFormatVersion : ℤ := 0
  precedingText : Text := []
  hlcPhysicalMs : ℤ := 0
  hlcLogical : ℤ := 0

/-- `ProjectRow`; no row where it returns false. -/
def projectRow (row : CanonicalRow) (projection : Projection) : Option CanonicalRow :=
  if row.missingRequiredField then none
  else if row.eventFormatVersion = FactStore.kEventFormatVersion then some row
  else if row.eventFormatVersion < 0 ∨ FactStore.kEventFormatVersion < row.eventFormatVersion then
    none
  else
    match projection with
    | .stamp => some { row with eventFormatVersion := FactStore.kEventFormatVersion }
    | .recode =>
      if isValidUtf8 row.precedingText = false then none
      else some { row with
        precedingText := truncateToLastUnicodeChars row.precedingText 64
        eventFormatVersion := FactStore.kEventFormatVersion }
    | .dupHlc => some { row with
        hlcPhysicalMs := 1
        hlcLogical := 1
        eventFormatVersion := FactStore.kEventFormatVersion }

/-! ## One character -/

/-- The masks of the first byte as ranges. -/
theorem charLength_eq (b : Byte) :
    charLength b =
      if b.val < 128 then some 1
      else if 192 ≤ b.val ∧ b.val < 224 then some 2
      else if 224 ≤ b.val ∧ b.val < 240 then some 3
      else if 240 ≤ b.val ∧ b.val < 248 then some 4
      else none := by
  revert b
  decide +kernel

theorem mask_eq_isContinuation (c : Byte) :
    decide (c.val &&& 0xc0 = 0x80) = isContinuation c := by
  revert c
  decide +kernel

/-- Four bytes that have the form of a scalar from `F5`, `F6` or `F7` on. -/
def Beyond (u : Text) : Prop :=
  ∃ b c d e : Byte, u = [b, c, d, e] ∧ (245 ≤ b.val ∧ b.val < 248) ∧
    isContinuation c = true ∧ isContinuation d = true ∧ isContinuation e = true

variable {bs : Text}

/-- What the loop needs of a character. -/
theorem charAt_eq_some_iff {b : Byte} {n : ℕ} :
    charAt (b :: bs) = some n ↔
      charLength b = some n ∧ n - 1 ≤ bs.length ∧ (bs.take (n - 1)).all isContinuation = true ∧
        rejected n b (bs.headD 0) = false := by
  have hall : ∀ cs : Text, cs.all (fun c => decide (c.val &&& 0xc0 = 0x80)) =
      cs.all isContinuation := fun cs =>
    congrArg cs.all (funext mask_eq_isContinuation)
  rcases hlength : charLength b with - | length
  · simp only [charAt, hlength]
    constructor
    · intro h
      cases h
    · rintro ⟨h, -⟩
      cases h
  simp only [charAt, hlength, hall]
  constructor
  · intro h
    split_ifs at h with hshort hcont hrej
    cases h
    exact ⟨rfl, not_lt.mp hshort, by simpa using hcont, by simpa using hrej⟩
  · rintro ⟨hn, hle, hcont, hrej⟩
    cases hn
    rw [if_neg (not_lt.mpr hle), hcont, hrej, if_neg (by decide), if_neg (by decide)]

theorem isValidChar_iff {m : ℕ} :
    m.isValidChar ↔ m < 55296 ∨ 57343 < m ∧ m < 1114112 := Iff.rfl

theorem rejected_two {b c : Byte} : rejected 2 b c = false ↔ 194 ≤ b.val := by
  simp [rejected]

theorem rejected_three {b c : Byte} :
    rejected 3 b c = false ↔ (b.val = 224 → 160 ≤ c.val) ∧ (b.val = 237 → c.val < 160) := by
  simp [rejected]

theorem rejected_four {b c : Byte} :
    rejected 4 b c = false ↔ (b.val = 240 → 144 ≤ c.val) ∧ (b.val = 244 → c.val < 144) := by
  simp [rejected]

/-- **A character that passes** is a scalar, or four bytes beyond. -/
theorem charAt_iff {n : ℕ} :
    charAt bs = some n ↔
      (∃ c, Utf8.decodeOne bs = some (c, n)) ∨ (n = 4 ∧ Beyond (bs.take 4)) := by
  rcases bs with - | ⟨b, bs⟩
  · constructor
    · intro h
      cases h
    · rintro (⟨c, h⟩ | ⟨-, b, c, d, e, h, -⟩)
      · cases h
      · cases h
  rw [charAt_eq_some_iff, Utf8.exists_decodeOne_iff, charLength_eq]
  constructor
  · rintro ⟨hlength, hle, hcont, hrej⟩
    split_ifs at hlength with h₁ h₂ h₃ h₄
    · cases hlength
      refine .inl ⟨b.val, b.val, ?_, hle, rfl, Nat.zero_le _, .inl (by omega)⟩
      rw [Utf8.lead, if_pos h₁]
    · cases hlength
      rcases bs with - | ⟨c, bs⟩
      · exact absurd hle (by decide)
      have hb := rejected_two.mp hrej
      have hc := Utf8.isContinuation_iff.mp (List.all_eq_true.mp hcont c List.mem_cons_self)
      refine .inl ⟨b.val % 32, b.val % 32 * 64 + c.val % 64, ?_, hle,
        Utf8.follow_eq_some_iff.mpr ⟨hcont, rfl⟩, ?_, .inl (by omega)⟩
      · rw [Utf8.lead, if_neg h₁, if_pos (by omega)]
      · show 128 ≤ _
        omega
    · cases hlength
      rcases bs with - | ⟨c, - | ⟨d, bs⟩⟩
      · exact absurd hle (by decide)
      · exact absurd hle (by simp)
      obtain ⟨hlow, hsur⟩ := rejected_three.mp hrej
      rw [List.headD_cons] at hlow hsur
      have hc := Utf8.isContinuation_iff.mp (List.all_eq_true.mp hcont c List.mem_cons_self)
      refine .inl ⟨b.val % 16, (b.val % 16 * 64 + c.val % 64) * 64 + d.val % 64, ?_, hle,
        Utf8.follow_eq_some_iff.mpr ⟨hcont, rfl⟩, ?_, isValidChar_iff.mpr (by omega)⟩
      · rw [Utf8.lead, if_neg h₁, if_neg (by omega), if_pos h₃]
      · show 2048 ≤ _
        omega
    · cases hlength
      rcases bs with - | ⟨c, - | ⟨d, - | ⟨e, bs⟩⟩⟩
      · exact absurd hle (by decide)
      · exact absurd hle (by simp)
      · exact absurd hle (by simp)
      obtain ⟨hlow, hhigh⟩ := rejected_four.mp hrej
      rw [List.headD_cons] at hlow hhigh
      have hall := List.all_eq_true.mp hcont
      have hc := Utf8.isContinuation_iff.mp (hall c List.mem_cons_self)
      by_cases hb : b.val < 245
      · refine .inl ⟨b.val % 8,
          ((b.val % 8 * 64 + c.val % 64) * 64 + d.val % 64) * 64 + e.val % 64, ?_, hle,
          Utf8.follow_eq_some_iff.mpr ⟨hcont, rfl⟩, ?_, isValidChar_iff.mpr (by omega)⟩
        · rw [Utf8.lead, if_neg h₁, if_neg (by omega), if_neg h₃, if_pos (by omega)]
        · show 65536 ≤ _
          omega
      · exact .inr ⟨rfl, b, c, d, e, rfl, by omega, hall c (by simp), hall d (by simp),
          hall e (by simp)⟩
  · rintro (⟨value, m, hlead, hle, hfollow, hleast, hvalid⟩ |
      ⟨rfl, b', c, d, e, hbs, hb, hc, hd, he⟩)
    · obtain ⟨hcont, hm⟩ := Utf8.follow_eq_some_iff.mp hfollow
      have hrange := isValidChar_iff.mp hvalid
      rcases Utf8.lead_cases hlead with
        ⟨rfl, hv, hb⟩ | ⟨rfl, hv, hb⟩ | ⟨rfl, hv, hb⟩ | ⟨rfl, hv, hb⟩
      · exact ⟨if_pos hb, hle, hcont, rfl⟩
      · refine ⟨?_, hle, hcont, rejected_two.mpr hb.1⟩
        rw [if_neg (by omega), if_pos (by omega)]
      · rcases bs with - | ⟨c, - | ⟨d, bs⟩⟩
        · exact absurd hle (by decide)
        · exact absurd hle (by simp)
        have hc := Utf8.isContinuation_iff.mp (List.all_eq_true.mp hcont c List.mem_cons_self)
        have hval : m = (value * 64 + c.val % 64) * 64 + d.val % 64 := hm
        have hmin : 2048 ≤ m := hleast
        refine ⟨?_, hle, hcont, rejected_three.mpr ?_⟩
        · rw [if_neg (by omega), if_neg (by omega), if_pos (by omega)]
        · rw [List.headD_cons]
          omega
      · rcases bs with - | ⟨c, - | ⟨d, - | ⟨e, bs⟩⟩⟩
        · exact absurd hle (by decide)
        · exact absurd hle (by simp)
        · exact absurd hle (by simp)
        have hc := Utf8.isContinuation_iff.mp (List.all_eq_true.mp hcont c List.mem_cons_self)
        have hval : m = ((value * 64 + c.val % 64) * 64 + d.val % 64) * 64 + e.val % 64 := hm
        have hmin : 65536 ≤ m := hleast
        refine ⟨?_, hle, hcont, rejected_four.mpr ?_⟩
        · rw [if_neg (by omega), if_neg (by omega), if_neg (by omega), if_pos (by omega)]
        · rw [List.headD_cons]
          omega
    · rcases bs with - | ⟨c', - | ⟨d', - | ⟨e', bs⟩⟩⟩
      · cases hbs
      · cases hbs
      · cases hbs
      cases hbs
      refine ⟨?_, by simp, ?_, rejected_four.mpr (by omega)⟩
      · rw [if_neg (by omega), if_neg (by omega), if_neg (by omega), if_pos (by omega)]
      · show [c, d, e].all isContinuation = true
        simp [hc, hd, he]

/-! ## Pieces -/

/-- Scalars, and four bytes beyond here and there. -/
def Pieces (us : List Text) : Prop := ∀ u ∈ us, (∃ c, u = encode c) ∨ Beyond u

/-- The text is scalars and at least one piece beyond. -/
def ReachesBeyond (text : Text) : Prop :=
  ∃ us, Pieces us ∧ text = us.flatten ∧ ∃ u ∈ us, Beyond u

theorem charAt_encode (c : Char) (bs : Text) :
    charAt (encode c ++ bs) = some (encode c).length :=
  charAt_iff.mpr (.inl ⟨c, Utf8.decodeOne_encode c bs⟩)

theorem charAt_beyond {u : Text} (h : Beyond u) (bs : Text) : charAt (u ++ bs) = some 4 := by
  refine charAt_iff.mpr (.inr ⟨rfl, ?_⟩)
  obtain ⟨b, c, d, e, rfl, hb, hrest⟩ := h
  exact ⟨b, c, d, e, rfl, hb, hrest⟩

theorem length_of_beyond {u : Text} (h : Beyond u) : u.length = 4 := by
  obtain ⟨b, c, d, e, rfl, -⟩ := h
  rfl

theorem piece_of_charAt {n : ℕ} (h : charAt bs = some n) :
    0 < n ∧ ((∃ c, bs.take n = encode c) ∨ Beyond (bs.take n)) := by
  rcases charAt_iff.mp h with ⟨c, hc⟩ | ⟨rfl, hbeyond⟩
  · obtain ⟨hn, hbs⟩ := Utf8.encode_of_decodeOne hc
    refine ⟨(Utf8.decodeOne_le hc).1, .inl ⟨c, ?_⟩⟩
    rw [hn, ← hn, hbs, hn, List.take_left]
  · exact ⟨Nat.succ_pos _, .inr hbeyond⟩

/-- A piece is what passes at the head. -/
theorem charAt_of_piece {u : Text} (h : (∃ c, u = encode c) ∨ Beyond u) (bs : Text) :
    charAt (u ++ bs) = some u.length := by
  rcases h with ⟨c, rfl⟩ | hbeyond
  · exact charAt_encode c bs
  · rw [charAt_beyond hbeyond, length_of_beyond hbeyond]

theorem isValidFuel_of_charAt {n : ℕ} (h : charAt bs = some n) (fuel : ℕ) :
    isValidFuel (fuel + 1) bs = isValidFuel fuel (bs.drop n) := by
  cases bs with
  | nil => cases h
  | cons b bs => simp only [isValidFuel, h]

variable {text : Text}

theorem isValidFuel_iff {fuel : ℕ} (hfuel : text.length ≤ fuel) :
    isValidFuel fuel text = true ↔ ∃ us, Pieces us ∧ text = us.flatten := by
  induction fuel generalizing text with
  | zero =>
    cases text with
    | nil => exact ⟨fun _ => ⟨[], by simp [Pieces], rfl⟩, fun _ => rfl⟩
    | cons b text => exact absurd hfuel (Nat.not_succ_le_zero _)
  | succ fuel ih =>
    rcases text with - | ⟨b, text⟩
    · exact ⟨fun _ => ⟨[], by simp [Pieces], rfl⟩, fun _ => rfl⟩
    rw [List.length_cons] at hfuel
    constructor
    · intro h
      rcases hone : charAt (b :: text) with - | n
      · simp only [isValidFuel, hone] at h
        cases h
      obtain ⟨hpos, hpiece⟩ := piece_of_charAt hone
      rw [isValidFuel_of_charAt hone] at h
      obtain ⟨us, hus, hflat⟩ :=
        (ih (by rw [List.length_drop, List.length_cons]; omega)).mp h
      refine ⟨(b :: text).take n :: us, ?_, ?_⟩
      · intro u hu
        rcases List.mem_cons.mp hu with rfl | hu
        · exact hpiece
        · exact hus u hu
      · rw [List.flatten_cons, ← hflat, List.take_append_drop]
    · rintro ⟨us, hus, hflat⟩
      cases us with
      | nil => cases hflat
      | cons u us =>
        rw [List.flatten_cons] at hflat
        have hone : charAt (b :: text) = some u.length := by
          rw [hflat]
          exact charAt_of_piece (hus u List.mem_cons_self) _
        have hpos := (piece_of_charAt hone).1
        rw [isValidFuel_of_charAt hone]
        refine (ih (by rw [List.length_drop, List.length_cons]; omega)).mpr
          ⟨us, fun v hv => hus v (List.mem_cons_of_mem _ hv), ?_⟩
        rw [hflat, List.drop_left]

/-- **What `IsValidUtf8` takes** is scalars and pieces beyond. -/
theorem isValidUtf8_iff : isValidUtf8 text = true ↔ ∃ us, Pieces us ∧ text = us.flatten :=
  isValidFuel_iff le_rfl

/-- A text in UTF-8 has no piece beyond, however it is cut. -/
theorem not_beyond_of_isText {us : List Text} (hus : Pieces us) (htext : IsText us.flatten) :
    ∀ u ∈ us, ¬ Beyond u := by
  induction us with
  | nil =>
    intro u hu
    cases hu
  | cons v us ih =>
    rw [List.flatten_cons] at htext
    have hrest : Pieces us := fun w hw => hus w (List.mem_cons_of_mem _ hw)
    rcases hus v List.mem_cons_self with ⟨c, rfl⟩ | hbeyond
    · rw [Utf8.isText_iff_of_decodeOne (Utf8.decodeOne_encode c us.flatten),
        List.drop_left] at htext
      intro u hu
      rcases List.mem_cons.mp hu with rfl | hu
      · rintro ⟨b, d, e, f, henc, hb, -⟩
        have hone := Utf8.decodeOne_encode c []
        rw [henc] at hone
        obtain ⟨value, hlead, -⟩ := Utf8.decodeOne_cons_some hone
        rcases Utf8.lead_cases hlead with h | h | h | h <;> omega
      · exact ih hrest htext u hu
    · exfalso
      obtain ⟨b, c, d, e, rfl, hb, -⟩ := hbeyond
      refine Utf8.not_isText_of_decodeOne (List.cons_ne_nil _ _) ?_ htext
      have hlead : Utf8.lead b = none := by
        rw [Utf8.lead, if_neg (by omega), if_neg (by omega), if_neg (by omega), if_neg (by omega)]
      simp only [Utf8.decodeOne, hlead]

theorem isText_of_pieces {us : List Text} (hus : Pieces us) (h : ∀ u ∈ us, ¬ Beyond u) :
    IsText us.flatten := by
  induction us with
  | nil => exact Utf8.isText_nil
  | cons v us ih =>
    obtain ⟨s, hs⟩ := ih (fun w hw => hus w (List.mem_cons_of_mem _ hw))
      (fun w hw => h w (List.mem_cons_of_mem _ hw))
    rcases hus v List.mem_cons_self with ⟨c, hc⟩ | hbeyond
    · exact ⟨c :: s, by rw [List.flatten_cons, hs, hc, Utf8.encodeAll_cons]⟩
    · exact absurd hbeyond (h v List.mem_cons_self)

theorem pieces_of_isText (h : IsText text) : ∃ us, Pieces us ∧ text = us.flatten := by
  obtain ⟨s, rfl⟩ := h
  refine ⟨s.map encode, ?_, rfl⟩
  intro u hu
  obtain ⟨c, -, rfl⟩ := List.mem_map.mp hu
  exact .inl ⟨c, rfl⟩

/-- **The decoders take the same texts** but for those with a piece beyond. -/
theorem isValidUtf8_iff_isText :
    (isValidUtf8 text = true ↔ IsText text) ↔ ¬ ReachesBeyond text := by
  rw [isValidUtf8_iff]
  constructor
  · rintro h ⟨us, hus, rfl, u, hu, hbeyond⟩
    exact not_beyond_of_isText hus (h.mp ⟨us, hus, rfl⟩) u hu hbeyond
  · intro h
    refine ⟨?_, pieces_of_isText⟩
    rintro ⟨us, hus, rfl⟩
    exact isText_of_pieces hus fun u hu hbeyond => h ⟨us, hus, rfl, u, hu, hbeyond⟩

/-! ## The last characters -/

theorem charStarts_of_scalarStarts {fuel offset : ℕ} {starts : List ℕ}
    (h : Rerank.scalarStarts fuel offset text = some starts) :
    charStarts fuel offset text = starts := by
  induction fuel generalizing offset text starts with
  | zero =>
    cases text with
    | nil => exact Option.some.inj h
    | cons b text => cases h
  | succ fuel ih =>
    cases text with
    | nil => exact Option.some.inj h
    | cons b text =>
      rcases hone : Utf8.decodeOne (b :: text) with - | ⟨c, length⟩
      · simp only [Rerank.scalarStarts, hone] at h
        cases h
      have hlength : charLength b = some length :=
        (charAt_eq_some_iff.mp (charAt_iff.mpr (.inl ⟨c, hone⟩))).1
      rw [Rerank.scalarStarts_of_decodeOne hone] at h
      obtain ⟨rest, hrest, rfl⟩ := Option.map_eq_some_iff.mp h
      simp only [charStarts, hlength, Option.getD_some]
      rw [ih hrest]

/-- **The two truncations agree** where the recorder's has a value. -/
theorem truncateToLastUnicodeChars_eq {text kept : Text} {limit : ℕ}
    (h : lastUnicodeCharacters text limit = some kept) :
    truncateToLastUnicodeChars text limit = kept := by
  unfold lastUnicodeCharacters at h
  rcases hstarts : Rerank.scalarStarts text.length 0 text with - | starts
  · rw [hstarts] at h
    cases h
  rw [hstarts] at h
  dsimp only at h
  unfold truncateToLastUnicodeChars
  rw [charStarts_of_scalarStarts hstarts]
  by_cases hlimit : limit = 0
  · rw [if_pos hlimit] at h ⊢
    exact Option.some.inj h
  rw [if_neg hlimit] at h ⊢
  by_cases hle : starts.length ≤ limit
  · rw [if_neg (not_lt.mpr hle)] at h
    exact (if_pos hle).trans (Option.some.inj h)
  · rw [if_pos (not_le.mp hle)] at h
    exact (if_neg hle).trans (Option.some.inj h)

/-! ## Where the decoders agree -/

/-- The migrator takes the text when the recorder does, and cuts it where the recorder does. -/
def Agree (text : Text) (limit : ℕ) : Prop :=
  (isValidUtf8 text = true ↔ (lastUnicodeCharacters text limit).isSome = true) ∧
  ∀ kept, lastUnicodeCharacters text limit = some kept →
    truncateToLastUnicodeChars text limit = kept

/-- A row of an old format that can be migrated. -/
def CanonicalRow.Old (row : CanonicalRow) : Prop :=
  row.missingRequiredField = false ∧ 0 ≤ row.eventFormatVersion ∧
    row.eventFormatVersion < FactStore.kEventFormatVersion

/-- The row as the recorder would have stored it, with what it keeps of the text. -/
def CanonicalRow.stored (row : CanonicalRow) (kept : Text) : CanonicalRow :=
  { row with precedingText := kept, eventFormatVersion := FactStore.kEventFormatVersion }

/-- The `recode` projection gives every old row with this text what the recorder would have stored,
and blocks the rows whose text the recorder would have refused. -/
def Recodes (text : Text) : Prop :=
  ∀ row : CanonicalRow, row.Old → row.precedingText = text →
    projectRow row .recode = (lastUnicodeCharacters text 64).map row.stored

theorem projectRow_recode {row : CanonicalRow} (h : row.Old) :
    projectRow row .recode =
      if isValidUtf8 row.precedingText = false then none
      else some (row.stored (truncateToLastUnicodeChars row.precedingText 64)) := by
  obtain ⟨hfield, hle, hlt⟩ := h
  unfold projectRow
  rw [if_neg (by rw [hfield]; decide), if_neg hlt.ne, if_neg (by omega)]
  rfl

theorem agree_of_iff (h : isValidUtf8 text = true ↔ IsText text) (limit : ℕ) : Agree text limit :=
  ⟨h.trans Rerank.isSome_lastUnicodeCharacters_iff.symm, fun _ => truncateToLastUnicodeChars_eq⟩

theorem recodes_of_iff (h : isValidUtf8 text = true ↔ IsText text) : Recodes text := by
  rintro row hold rfl
  rw [projectRow_recode hold]
  rcases hlast : lastUnicodeCharacters row.precedingText 64 with - | kept
  · have hnot : ¬ isValidUtf8 row.precedingText = true := fun hvalid => by
      have hsome : (lastUnicodeCharacters row.precedingText 64).isSome = true :=
        Rerank.isSome_lastUnicodeCharacters_iff.mpr (h.mp hvalid)
      rw [hlast] at hsome
      cases hsome
    exact if_pos (Bool.not_eq_true _ ▸ hnot)
  · have hvalid := h.mpr
      (Rerank.isSome_lastUnicodeCharacters_iff.mp (Option.isSome_of_eq_some hlast))
    rw [if_neg (by rw [hvalid]; decide), truncateToLastUnicodeChars_eq hlast]
    rfl

/-- **Where the migrator does what the recorder would have done**: on every text without a piece
beyond, and on no other. -/
theorem agree_iff (text : Text) (limit : ℕ) :
    (Agree text limit ∧ Recodes text) ↔ ¬ ReachesBeyond text := by
  rw [← isValidUtf8_iff_isText]
  constructor
  · rintro ⟨⟨hiff, -⟩, -⟩
    exact hiff.trans Rerank.isSome_lastUnicodeCharacters_iff
  · intro h
    exact ⟨agree_of_iff h limit, recodes_of_iff h⟩

/-- `F5 80 80 80` passes, and the recorder refuses it. -/
theorem agree_fails : isValidUtf8 [245, 128, 128, 128] = true ∧
    lastUnicodeCharacters [245, 128, 128, 128] 64 = none ∧ ¬ Agree [245, 128, 128, 128] 64 := by
  have hvalid : isValidUtf8 [245, 128, 128, 128] = true := by decide +kernel
  have hnone : lastUnicodeCharacters [245, 128, 128, 128] 64 = none := by decide +kernel
  refine ⟨hvalid, hnone, ?_⟩
  rintro ⟨hiff, -⟩
  have hsome := hiff.mp hvalid
  rw [hnone] at hsome
  cases hsome

end SemanticMemory.FactMigrator

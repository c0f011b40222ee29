import Mathlib
import SemanticMemory.Lib.Utf8

/-!
# Texts in UTF-8

Some bytes are a text when they are the encoding of a string: no overlong form, no surrogate, no
value beyond the last scalar, no scalar that is cut short and no stray byte, as none of these is in
an encoding.

* `encode_of_decodeOne`: what is read as a scalar is the scalar's encoding.  So there is one string
  for a text at most, and reading one scalar after the other tells a text from what is none.
* `isText_append_iff`: behind a text, the bytes are a text when what follows is.
-/

namespace Utf8

def IsText (bs : Bytes) : Prop := ∃ s : List Char, bs = encodeAll s

theorem isText_nil : IsText [] := ⟨[], rfl⟩

/-! ## What is read is what was encoded -/

/-- The bytes of a first byte by its length. -/
theorem lead_cases {b : Fin 256} {length value : ℕ} (h : lead b = some (length, value)) :
    (length = 1 ∧ value = b.val ∧ b.val < 128) ∨
    (length = 2 ∧ value = b.val % 32 ∧ 194 ≤ b.val ∧ b.val < 224) ∨
    (length = 3 ∧ value = b.val % 16 ∧ 224 ≤ b.val ∧ b.val < 240) ∨
    (length = 4 ∧ value = b.val % 8 ∧ 240 ≤ b.val ∧ b.val < 245) := by
  unfold lead at h
  split_ifs at h with h₁ h₂ h₃ h₄
  · cases h
    exact .inl ⟨rfl, rfl, h₁⟩
  · cases h
    exact .inr (.inl ⟨rfl, rfl, h₂⟩)
  · cases h
    exact .inr (.inr (.inl ⟨rfl, rfl, h₃⟩))
  · cases h
    exact .inr (.inr (.inr ⟨rfl, rfl, h₄⟩))

theorem isContinuation_iff {b : Fin 256} :
    isContinuation b = true ↔ 128 ≤ b.val ∧ b.val < 192 := by
  unfold isContinuation
  rw [Bool.and_eq_true, decide_eq_true_eq, decide_eq_true_eq]

variable {bs : Bytes}

/-- A value that goes on has a continuation byte at its head. -/
theorem follow_cons_some {m n : ℕ} {b : Fin 256} (h : follow m (b :: bs) = some n) :
    (128 ≤ b.val ∧ b.val < 192) ∧ follow (m * 64 + b.val % 64) bs = some n := by
  rw [follow] at h
  by_cases hb : isContinuation b = true
  · rw [if_pos hb] at h
    exact ⟨isContinuation_iff.mp hb, h⟩
  · rw [if_neg hb] at h
    cases h

variable {c : Char} {n : ℕ}

/-- What a reading says about the bytes. -/
theorem decodeOne_cons_some {b : Fin 256} (h : decodeOne (b :: bs) = some (c, n)) :
    ∃ value, lead b = some (n, value) ∧ n - 1 ≤ bs.length ∧
      follow value (bs.take (n - 1)) = some c.val.toNat ∧ least n ≤ c.val.toNat := by
  rw [decodeOne] at h
  rcases hlead : lead b with - | ⟨length, value⟩
  · rw [hlead] at h
    cases h
  rw [hlead] at h
  dsimp only at h
  by_cases hshort : bs.length < length - 1
  · rw [if_pos hshort] at h
    cases h
  rw [if_neg hshort] at h
  rcases hfollow : follow value (bs.take (length - 1)) with - | m
  · rw [hfollow] at h
    cases h
  rw [hfollow] at h
  dsimp only at h
  by_cases hleast : m < least length
  · rw [if_pos hleast] at h
    cases h
  rw [if_neg hleast] at h
  by_cases hvalid : m.isValidChar
  · rw [dif_pos hvalid] at h
    cases h
    exact ⟨value, rfl, not_lt.mp hshort, hfollow, not_lt.mp hleast⟩
  · rw [dif_neg hvalid] at h
    cases h

/-- Continuation bytes add their six bits each. -/
theorem follow_eq_some_iff {value m : ℕ} {cs : Bytes} :
    follow value cs = some m ↔
      cs.all isContinuation = true ∧ m = cs.foldl (fun n b => n * 64 + b.val % 64) value := by
  induction cs generalizing value with
  | nil =>
    rw [follow, Option.some.injEq]
    exact ⟨fun h => ⟨rfl, h.symm⟩, fun h => h.2.symm⟩
  | cons b cs ih =>
    rw [follow, List.all_cons, Bool.and_eq_true, List.foldl_cons]
    by_cases hb : isContinuation b = true
    · rw [if_pos hb, ih]
      exact ⟨fun h => ⟨⟨hb, h.1⟩, h.2⟩, fun h => ⟨h.1.2, h.2⟩⟩
    · rw [if_neg hb]
      exact ⟨fun h => absurd h (by simp), fun h => absurd h.1.1 hb⟩

/-- **When a scalar is read**, in terms of its bytes. -/
theorem exists_decodeOne_iff {b : Fin 256} :
    (∃ c, decodeOne (b :: bs) = some (c, n)) ↔
      ∃ value m, lead b = some (n, value) ∧ n - 1 ≤ bs.length ∧
        follow value (bs.take (n - 1)) = some m ∧ least n ≤ m ∧ m.isValidChar := by
  constructor
  · rintro ⟨c, hc⟩
    obtain ⟨value, hlead, hlength, hfollow, hleast⟩ := decodeOne_cons_some hc
    exact ⟨value, c.val.toNat, hlead, hlength, hfollow, hleast, c.valid⟩
  · rintro ⟨value, m, hlead, hlength, hfollow, hleast, hvalid⟩
    refine ⟨Char.ofNatAux m hvalid, ?_⟩
    rw [decodeOne, hlead]
    simp only [hfollow]
    rw [if_neg (not_lt.mpr hlength), if_neg (not_lt.mpr hleast), dif_pos hvalid]

theorem ofNat_val (b : Fin 256) (h : n = b.val) : Fin.ofNat 256 n = b := by
  refine Fin.ext ?_
  rw [h]
  exact Nat.mod_eq_of_lt b.isLt

/-- **What is read as a scalar is its encoding.** -/
theorem encode_of_decodeOne (h : decodeOne bs = some (c, n)) :
    n = (encode c).length ∧ bs = encode c ++ bs.drop n := by
  rcases bs with - | ⟨b, bs⟩
  · cases h
  obtain ⟨value, hlead, hlength, hfollow, hleast⟩ := decodeOne_cons_some h
  have henc : b :: bs.take (n - 1) = encode c ∧ 0 < n := by
    rcases lead_cases hlead with ⟨hn, hv, hb⟩ | ⟨hn, hv, hb⟩ | ⟨hn, hv, hb⟩ | ⟨hn, hv, hb⟩
    · subst hn
      refine ⟨?_, Nat.one_pos⟩
      have hval : value = c.val.toNat := Option.some.inj hfollow
      unfold encode
      rw [if_pos (by omega), ofNat_val b (by omega)]
      rfl
    · subst hn
      refine ⟨?_, Nat.succ_pos _⟩
      rcases bs with - | ⟨d, bs⟩
      · exact absurd hlength (Nat.not_succ_le_zero _)
      obtain ⟨hd, hrest⟩ := follow_cons_some hfollow
      have hval := Option.some.inj hrest
      have hmin : 128 ≤ c.val.toNat := hleast
      unfold encode
      rw [if_neg (by omega), if_pos (by omega), ofNat_val b (by omega), ofNat_val d (by omega)]
      rfl
    · subst hn
      refine ⟨?_, Nat.succ_pos _⟩
      rcases bs with - | ⟨d, - | ⟨e, bs⟩⟩
      · exact absurd hlength (by decide)
      · exact absurd hlength (by simp)
      obtain ⟨hd, hrest⟩ := follow_cons_some hfollow
      obtain ⟨he, hlast⟩ := follow_cons_some hrest
      have hval := Option.some.inj hlast
      have hmin : 2048 ≤ c.val.toNat := hleast
      unfold encode
      rw [if_neg (by omega), if_neg (by omega), if_pos (by omega), ofNat_val b (by omega),
        ofNat_val d (by omega), ofNat_val e (by omega)]
      rfl
    · subst hn
      refine ⟨?_, Nat.succ_pos _⟩
      rcases bs with - | ⟨d, - | ⟨e, - | ⟨f, bs⟩⟩⟩
      · exact absurd hlength (by decide)
      · exact absurd hlength (by simp)
      · exact absurd hlength (by simp)
      obtain ⟨hd, hrest⟩ := follow_cons_some hfollow
      obtain ⟨he, hlast⟩ := follow_cons_some hrest
      obtain ⟨hf, hend⟩ := follow_cons_some hlast
      have hval := Option.some.inj hend
      have hmin : 65536 ≤ c.val.toNat := hleast
      have hmax : c.val.toNat < 55296 ∨ 57343 < c.val.toNat ∧ c.val.toNat < 1114112 := c.valid
      unfold encode
      rw [if_neg (by omega), if_neg (by omega), if_neg (by omega), ofNat_val b (by omega),
        ofNat_val d (by omega), ofNat_val e (by omega), ofNat_val f (by omega)]
      rfl
  obtain ⟨hbytes, hpos⟩ := henc
  have hn : n = n - 1 + 1 := by omega
  refine ⟨?_, ?_⟩
  · rw [← hbytes, List.length_cons, List.length_take, Nat.min_eq_left hlength]
    exact hn
  · rw [← hbytes, List.cons_append]
    refine congrArg (b :: ·) ?_
    have hdrop : (b :: bs).drop n = bs.drop (n - 1) := by
      rw [hn]
      rfl
    rw [hdrop, List.take_append_drop]

/-- **Behind a scalar**, the bytes are a text when the rest is one. -/
theorem isText_iff_of_decodeOne (h : decodeOne bs = some (c, n)) :
    IsText bs ↔ IsText (bs.drop n) := by
  obtain ⟨hn, hbs⟩ := encode_of_decodeOne h
  constructor
  · rintro ⟨s, hs⟩
    cases s with
    | nil =>
      rw [hs] at h
      cases h
    | cons d s =>
      have hhead := decodeOne_encodeAll_cons d s []
      rw [List.append_nil, ← hs, h] at hhead
      cases hhead
      refine ⟨s, ?_⟩
      rw [hs, encodeAll_cons, List.drop_left]
  · rintro ⟨s, hs⟩
    refine ⟨c :: s, ?_⟩
    rw [encodeAll_cons, ← hs]
    exact hbs

/-- Where no scalar stands there is no text. -/
theorem not_isText_of_decodeOne (hne : bs ≠ []) (h : decodeOne bs = none) : ¬ IsText bs := by
  rintro ⟨s, hs⟩
  cases s with
  | nil => exact hne hs
  | cons c s =>
    have hhead := decodeOne_encodeAll_cons c s []
    rw [List.append_nil, ← hs, h] at hhead
    cases hhead

/-- **Behind a text**, the bytes are a text when what follows is one. -/
theorem isText_append_iff (s : List Char) (bs : Bytes) :
    IsText (encodeAll s ++ bs) ↔ IsText bs := by
  induction s with
  | nil => exact Iff.rfl
  | cons c s ih =>
    rw [isText_iff_of_decodeOne (decodeOne_encodeAll_cons c s bs), encodeAll_cons,
      List.append_assoc, List.drop_left]
    exact ih

/-- A text is the encoding of one string. -/
theorem encodeAll_injective : Function.Injective encodeAll := by
  intro s u h
  rw [← decode_encodeAll s, h, decode_encodeAll]

/-- The bytes of a replacement character that is cut short. -/
def CutReplacement (bs : Bytes) : Prop := bs = [239] ∨ bs = [239, 191]

theorem decode_cutReplacement (h : CutReplacement bs) : decode bs = [replacement] := by
  rcases h with rfl | rfl
  · decide +kernel
  · decide +kernel

theorem encode_replacement : encode replacement = [239, 191, 189] := by decide +kernel

/-- A beginning of some text in which no scalar stands first, and which decodes to a text that
starts with `c`: a replacement character cut short. -/
theorem cutReplacement_of_decodeOne {bs rest : Bytes} {s : List Char} (hne : bs ≠ [])
    (hnone : decodeOne bs = none) (hbs : bs <+: encode c ++ rest) (h : decode bs = c :: s) :
    c = replacement ∧ s = [] ∧ CutReplacement bs := by
  have hstep : decodeStep bs = (replacement, badLength bs) := by rw [decodeStep, hnone]
  have hc : c = replacement := by
    rw [decode_cons hne, hstep] at h
    exact (List.cons.inj h).1.symm
  subst hc
  have hcut : CutReplacement bs := by
    rw [encode_replacement] at hbs
    match bs, hbs with
    | [], _ => exact absurd rfl hne
    | [b], hbs =>
      obtain ⟨_, hb⟩ := hbs
      exact .inl (by rw [(List.cons.inj hb).1])
    | [b, d], hbs =>
      obtain ⟨_, hb⟩ := hbs
      exact .inr (by rw [(List.cons.inj hb).1, (List.cons.inj (List.cons.inj hb).2).1])
    | b :: d :: e :: bs, hbs =>
      -- the whole character would stand there
      obtain ⟨_, hb⟩ := hbs
      obtain ⟨hb, htail⟩ := List.cons.inj hb
      obtain ⟨hd, htail⟩ := List.cons.inj htail
      obtain ⟨he, -⟩ := List.cons.inj htail
      have hone := decodeOne_encode replacement bs
      rw [encode_replacement, ← hb, ← hd, ← he] at hone
      exact absurd (hnone.symm.trans hone) (by simp)
  refine ⟨rfl, ?_, hcut⟩
  rw [decode_cutReplacement hcut] at h
  exact (List.cons.inj h).2.symm

/-- **Which beginnings of a text decode to the whole text**: the text itself, and, where it ends
with a replacement character, the text with that character cut short. -/
theorem decode_prefix_iff {s : List Char} (hbs : bs <+: encodeAll s) :
    decode bs = s ↔
      bs = encodeAll s ∨
        ∃ t cut, s = t ++ [replacement] ∧ CutReplacement cut ∧ bs = encodeAll t ++ cut := by
  constructor
  · intro h
    induction s generalizing bs with
    | nil => exact .inl (List.prefix_nil.mp hbs)
    | cons c s ih =>
      have hne : bs ≠ [] := by
        rintro rfl
        cases h
      rw [encodeAll_cons] at hbs
      cases hone : decodeOne bs with
      | none =>
        obtain ⟨rfl, rfl, hcut⟩ := cutReplacement_of_decodeOne hne hone hbs h
        exact .inr ⟨[], bs, rfl, hcut, rfl⟩
      | some r =>
        obtain ⟨d, n⟩ := r
        obtain ⟨-, hsplit⟩ := encode_of_decodeOne hone
        have hstep : decodeStep bs = (d, n) := by rw [decodeStep, hone]
        rw [decode_cons hne, hstep] at h
        obtain ⟨rfl, hrest⟩ := List.cons.inj h
        have hdrop : bs.drop n <+: encodeAll s := by
          rw [hsplit] at hbs
          exact (List.prefix_append_right_inj _).mp hbs
        rcases ih hdrop hrest with hall | ⟨t, cut, rfl, hcut, hbytes⟩
        · left
          rw [hsplit, hall, encodeAll_cons]
        · right
          refine ⟨d :: t, cut, rfl, hcut, ?_⟩
          rw [hsplit, hbytes, encodeAll_cons, List.append_assoc]
  · rintro (rfl | ⟨t, cut, rfl, hcut, rfl⟩)
    · exact decode_encodeAll s
    · rw [decode_encodeAll_append, decode_cutReplacement hcut]

end Utf8

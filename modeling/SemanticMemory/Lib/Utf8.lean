import Mathlib
import SemanticMemory.Lib.Json

/-!
# UTF-8

A scalar value is a `Char`.

* `encode` is the encoding of a scalar, of one to four bytes, and `encodeAll` that of a string.
* `decodeOne` reads the scalar at the head of some bytes, if there is one: an overlong form, a
  surrogate and a value beyond the last scalar are none.
* `decodeOne_encode`: what is encoded is read back, whatever follows; and no encoding has a scalar in
  its middle: `decodeOne_of_isContinuation`.
* `decode` reads on to the end and puts `U+FFFD` for every maximal part that begins a scalar and
  does not end it, and for every other byte.  Encodings on either side are read back whatever bytes
  they stand next to: `decode_encodeAll_append`, `decode_append_encodeAll`.
-/

namespace Utf8

abbrev Bytes := List (Fin 256)

/-- A byte of the form `10xxxxxx`. -/
def isContinuation (b : Fin 256) : Bool := 128 ≤ b.val && b.val < 192

def encode (c : Char) : Bytes :=
  let n := c.val.toNat
  if n < 128 then [Fin.ofNat 256 n]
  else if n < 2048 then [Fin.ofNat 256 (192 + n / 64), Fin.ofNat 256 (128 + n % 64)]
  else if n < 65536 then
    [Fin.ofNat 256 (224 + n / 4096), Fin.ofNat 256 (128 + n / 64 % 64), Fin.ofNat 256 (128 + n % 64)]
  else
    [Fin.ofNat 256 (240 + n / 262144), Fin.ofNat 256 (128 + n / 4096 % 64),
      Fin.ofNat 256 (128 + n / 64 % 64), Fin.ofNat 256 (128 + n % 64)]

def encodeAll (s : List Char) : Bytes := s.flatMap encode

/-- The length of a scalar by its first byte, and what the first byte has of the value. -/
def lead (b : Fin 256) : Option (ℕ × ℕ) :=
  if b.val < 128 then some (1, b.val)
  else if 194 ≤ b.val ∧ b.val < 224 then some (2, b.val % 32)
  else if 224 ≤ b.val ∧ b.val < 240 then some (3, b.val % 16)
  else if 240 ≤ b.val ∧ b.val < 245 then some (4, b.val % 8)
  else none

/-- The least value of a length. -/
def least : ℕ → ℕ
  | 2 => 128
  | 3 => 2048
  | 4 => 65536
  | _ => 0

/-- The value of some continuation bytes after a value. -/
def follow : ℕ → Bytes → Option ℕ
  | n, [] => some n
  | n, b :: bs => if isContinuation b then follow (n * 64 + b.val % 64) bs else none

/-- The scalar at the head of some bytes, and its length. -/
def decodeOne : Bytes → Option (Char × ℕ)
  | [] => none
  | b :: bs =>
    match lead b with
    | none => none
    | some (length, value) =>
      if bs.length < length - 1 then none
      else match follow value (bs.take (length - 1)) with
        | none => none
        | some n =>
          if n < least length then none
          else if h : n.isValidChar then some (Char.ofNatAux n h, length) else none

theorem val_ofNat {n : ℕ} (h : n < 256) : (Fin.ofNat 256 n).val = n := Nat.mod_eq_of_lt h

theorem isContinuation_ofNat (n : ℕ) : isContinuation (Fin.ofNat 256 (128 + n % 64)) = true := by
  unfold isContinuation
  rw [val_ofNat (by omega), Bool.and_eq_true, decide_eq_true_eq, decide_eq_true_eq]
  omega

/-- A continuation byte adds its six bits. -/
theorem follow_ofNat (m n : ℕ) (bs : Bytes) :
    follow m (Fin.ofNat 256 (128 + n % 64) :: bs) = follow (m * 64 + n % 64) bs := by
  rw [follow, if_pos (isContinuation_ofNat n), val_ofNat (by omega)]
  congr 2
  omega

variable {bs : Bytes}

/-- What a scalar's first byte and its continuation bytes are read as. -/
theorem decodeOne_of_follow (cs : Bytes) (value : ℕ) {b : Fin 256} {c : Char}
    (hlead : lead b = some (cs.length + 1, value)) (hfollow : follow value cs = some c.val.toNat)
    (hleast : least (cs.length + 1) ≤ c.val.toNat) :
    decodeOne (b :: cs ++ bs) = some (c, cs.length + 1) := by
  have hvalid : c.val.toNat.isValidChar := c.valid
  rw [List.cons_append, decodeOne, hlead]
  simp only [Nat.add_sub_cancel, List.take_left, hfollow, List.length_append]
  rw [if_neg (by omega), if_neg (by omega), dif_pos hvalid]
  refine congrArg some (Prod.ext (Char.ext ?_) rfl)
  exact UInt32.toNat_inj.mp rfl

/-- **What is encoded is read back**, whatever follows. -/
theorem decodeOne_encode (c : Char) (bs : Bytes) :
    decodeOne (encode c ++ bs) = some (c, (encode c).length) := by
  have hrange : c.val.toNat < 55296 ∨ 57343 < c.val.toNat ∧ c.val.toNat < 1114112 := c.valid
  unfold encode
  by_cases h₁ : c.val.toNat < 128
  · rw [if_pos h₁]
    refine decodeOne_of_follow [] (c.val.toNat) ?_ rfl (Nat.zero_le _)
    rw [lead, val_ofNat (by omega), if_pos h₁]
    rfl
  by_cases h₂ : c.val.toNat < 2048
  · rw [if_neg h₁, if_pos h₂]
    refine decodeOne_of_follow [_] (c.val.toNat / 64) ?_ ?_ (by
      show 128 ≤ _
      omega)
    · rw [lead, val_ofNat (by omega), if_neg (by omega), if_pos (by omega)]
      refine congrArg some (Prod.ext rfl ?_)
      show (192 + c.val.toNat / 64) % 32 = c.val.toNat / 64
      omega
    · rw [follow_ofNat, follow]
      exact congrArg some (by omega)
  by_cases h₃ : c.val.toNat < 65536
  · rw [if_neg h₁, if_neg h₂, if_pos h₃]
    refine decodeOne_of_follow [_, _] (c.val.toNat / 4096) ?_ ?_ (by
      show 2048 ≤ _
      omega)
    · rw [lead, val_ofNat (by omega), if_neg (by omega), if_neg (by omega), if_pos (by omega)]
      refine congrArg some (Prod.ext rfl ?_)
      show (224 + c.val.toNat / 4096) % 16 = c.val.toNat / 4096
      omega
    · rw [follow_ofNat, follow_ofNat, follow]
      exact congrArg some (by omega)
  · rw [if_neg h₁, if_neg h₂, if_neg h₃]
    refine decodeOne_of_follow [_, _, _] (c.val.toNat / 262144) ?_ ?_ (by
      show 65536 ≤ _
      omega)
    · rw [lead, val_ofNat (by omega), if_neg (by omega), if_neg (by omega), if_neg (by omega),
        if_pos (by omega)]
      refine congrArg some (Prod.ext rfl ?_)
      show (240 + c.val.toNat / 262144) % 8 = c.val.toNat / 262144
      omega
    · rw [follow_ofNat, follow_ofNat, follow_ofNat, follow]
      exact congrArg some (by omega)

/-- No scalar begins with a continuation byte. -/
theorem decodeOne_of_isContinuation {b : Fin 256} (h : isContinuation b = true) (bs : Bytes) :
    decodeOne (b :: bs) = none := by
  unfold isContinuation at h
  rw [Bool.and_eq_true, decide_eq_true_eq, decide_eq_true_eq] at h
  rw [decodeOne, lead, if_neg (by omega), if_neg (by omega), if_neg (by omega), if_neg (by omega)]

theorem length_encode_pos (c : Char) : 0 < (encode c).length := by
  unfold encode
  by_cases h₁ : c.val.toNat < 128
  · rw [if_pos h₁]
    exact Nat.one_pos
  by_cases h₂ : c.val.toNat < 2048
  · rw [if_neg h₁, if_pos h₂]
    exact Nat.succ_pos _
  by_cases h₃ : c.val.toNat < 65536
  · rw [if_neg h₁, if_neg h₂, if_pos h₃]
    exact Nat.succ_pos _
  · rw [if_neg h₁, if_neg h₂, if_neg h₃]
    exact Nat.succ_pos _

theorem encodeAll_cons (c : Char) (s : List Char) : encodeAll (c :: s) = encode c ++ encodeAll s :=
  rfl

theorem encodeAll_append (s u : List Char) : encodeAll (s ++ u) = encodeAll s ++ encodeAll u :=
  List.flatMap_append

/-- The encoding of a string is read back from its head. -/
theorem decodeOne_encodeAll_cons (c : Char) (s : List Char) (bs : Bytes) :
    decodeOne (encodeAll (c :: s) ++ bs) = some (c, (encode c).length) := by
  rw [encodeAll_cons, List.append_assoc, decodeOne_encode]

/-! ## Decoding with replacement -/

/-- A byte that may follow a first byte: no overlong form, no surrogate, no value that is too
large. -/
def secondOk (b c : Fin 256) : Bool :=
  isContinuation c && (b.val ≠ 224 || 160 ≤ c.val) && (b.val ≠ 237 || c.val < 160) &&
  (b.val ≠ 240 || 144 ≤ c.val) && (b.val ≠ 244 || c.val < 144)

/-- The length of the maximal part that begins a scalar, where no scalar stands. -/
def badLength : Bytes → ℕ
  | b :: c :: bs =>
    match lead b with
    | none => 1
    | some (length, _) =>
      if length < 2 || !secondOk b c then 1
      else match bs with
        | d :: _ => if length = 4 && isContinuation d then 3 else 2
        | [] => 2
  | _ => 1

/-- The character that stands for what is no scalar. -/
def replacement : Char := '\uFFFD'

/-- The next character and how many bytes it takes. -/
def decodeStep (bs : Bytes) : Char × ℕ :=
  match decodeOne bs with
  | some r => r
  | none => (replacement, badLength bs)

def decodeFuel : ℕ → Bytes → List Char
  | _, [] => []
  | 0, _ :: _ => []
  | fuel + 1, b :: bs =>
    (decodeStep (b :: bs)).1 :: decodeFuel fuel ((b :: bs).drop (decodeStep (b :: bs)).2)

/-- Decoding with `errors="replace"`. -/
def decode (bs : Bytes) : List Char := decodeFuel bs.length bs

theorem badLength_pos (bs : Bytes) : 0 < badLength bs := by
  unfold badLength
  split
  · split
    · exact Nat.one_pos
    · split
      · exact Nat.one_pos
      · split
        · split <;> exact Nat.succ_pos _
        · exact Nat.succ_pos _
  · exact Nat.one_pos

theorem badLength_le (h : bs ≠ []) : badLength bs ≤ bs.length := by
  rcases bs with - | ⟨b, - | ⟨c, - | ⟨d, bs⟩⟩⟩
  · exact absurd rfl h
  · exact le_rfl
  all_goals
    unfold badLength
    dsimp only
    split
    · exact Nat.succ_le_succ (Nat.zero_le _)
    · split
      · exact Nat.succ_le_succ (Nat.zero_le _)
      · simp only [List.length_cons]
        first
          | omega
          | (split <;> omega)

/-- A scalar that is read is not longer than its bytes. -/
theorem decodeOne_le {c : Char} {n : ℕ} (h : decodeOne bs = some (c, n)) :
    0 < n ∧ n ≤ bs.length := by
  rcases bs with - | ⟨b, bs⟩
  · cases h
  rw [decodeOne] at h
  rcases hlead : lead b with - | ⟨length, value⟩
  · rw [hlead] at h
    cases h
  have hpos : 0 < length := by
    unfold lead at hlead
    split_ifs at hlead <;> · cases hlead; omega
  rw [hlead] at h
  dsimp only at h
  split_ifs at h with hlength
  rcases hfollow : follow value (bs.take (length - 1)) with - | m
  · rw [hfollow] at h
    cases h
  rw [hfollow] at h
  dsimp only at h
  split_ifs at h
  cases h
  rw [List.length_cons]
  omega

theorem decodeStep_pos (bs : Bytes) : 0 < (decodeStep bs).2 := by
  unfold decodeStep
  rcases h : decodeOne bs with - | ⟨c, n⟩
  · exact badLength_pos bs
  · exact (decodeOne_le h).1

theorem decodeStep_le (hne : bs ≠ []) : (decodeStep bs).2 ≤ bs.length := by
  unfold decodeStep
  rcases h : decodeOne bs with - | ⟨c, n⟩
  · exact badLength_le hne
  · exact (decodeOne_le h).2

/-- More fuel than bytes changes nothing. -/
theorem decodeFuel_eq {fuel : ℕ} (h : bs.length ≤ fuel) : decodeFuel fuel bs = decode bs := by
  induction fuel using Nat.strong_induction_on generalizing bs with
  | _ fuel ih =>
    rcases bs with - | ⟨b, bs⟩
    · cases fuel <;> rfl
    cases fuel with
    | zero => cases h
    | succ fuel =>
      have hdrop : ((b :: bs).drop (decodeStep (b :: bs)).2).length ≤ bs.length := by
        have := decodeStep_pos (b :: bs)
        rw [List.length_drop, List.length_cons]
        omega
      rw [List.length_cons] at h
      unfold decode
      rw [List.length_cons, decodeFuel, decodeFuel, ih fuel (Nat.lt_succ_self _) (by omega)]
      by_cases hlt : bs.length < fuel + 1
      · rw [ih bs.length hlt hdrop]
      · omega

/-- **Decoding takes one character after the other.** -/
theorem decode_cons (h : bs ≠ []) :
    decode bs = (decodeStep bs).1 :: decode (bs.drop (decodeStep bs).2) := by
  rcases bs with - | ⟨b, bs⟩
  · exact absurd rfl h
  have hdrop : ((b :: bs).drop (decodeStep (b :: bs)).2).length ≤ bs.length := by
    have := decodeStep_pos (b :: bs)
    rw [List.length_drop, List.length_cons]
    omega
  rw [← decodeFuel_eq hdrop]
  rfl

/-- What decodes to nothing is nothing. -/
theorem eq_nil_of_decode (h : decode bs = []) : bs = [] := by
  by_contra hne
  rw [decode_cons hne] at h
  cases h

/-- **An encoding is read back**, whatever bytes follow it. -/
theorem decode_encodeAll_append (s : List Char) (bs : Bytes) :
    decode (encodeAll s ++ bs) = s ++ decode bs := by
  induction s with
  | nil => rfl
  | cons c s ih =>
    have hstep : decodeStep (encodeAll (c :: s) ++ bs) = (c, (encode c).length) := by
      unfold decodeStep
      rw [decodeOne_encodeAll_cons]
    have hne : encodeAll (c :: s) ++ bs ≠ [] := by
      intro hnil
      have hlength := congrArg List.length hnil
      have hpos := length_encode_pos c
      rw [encodeAll_cons, List.length_append, List.length_append, List.length_nil] at hlength
      omega
    rw [decode_cons hne, hstep, encodeAll_cons, List.append_assoc, List.drop_left, ih,
      List.cons_append]

theorem decode_encodeAll (s : List Char) : decode (encodeAll s) = s := by
  have h := decode_encodeAll_append s []
  rw [List.append_nil] at h
  exact h.trans (List.append_nil s)

/-- No continuation byte stands at the head. -/
def Starts (bs : Bytes) : Prop := ∀ b ∈ bs.head?, isContinuation b = false

theorem starts_encodeAll (s : List Char) : Starts (encodeAll s) := by
  intro b hb
  cases s with
  | nil => cases hb
  | cons c s =>
    by_contra hcont
    rw [Bool.not_eq_false] at hcont
    have hone := decodeOne_encodeAll_cons c s []
    rw [List.append_nil] at hone
    rcases hbytes : encodeAll (c :: s) with - | ⟨b', bs⟩
    · rw [hbytes] at hone
      cases hone
    · rw [hbytes] at hb hone
      cases Option.some.inj hb
      rw [decodeOne_of_isContinuation hcont] at hone
      cases hone

/-- What is no continuation byte ends a value too early. -/
theorem follow_append_of_not_isContinuation {n : ℕ} {c : Fin 256} {rest : Bytes}
    (h : isContinuation c = false) : follow n (bs ++ c :: rest) = none := by
  induction bs generalizing n with
  | nil => rw [List.nil_append, follow, if_neg (by rw [h]; decide)]
  | cons b bs ih =>
    rw [List.cons_append, follow]
    by_cases hb : isContinuation b = true
    · rw [if_pos hb]
      exact ih
    · rw [if_neg hb]

/-- **A scalar does not reach beyond its bytes** into bytes that start anew. -/
theorem decodeOne_append {bs u : Bytes} (hne : bs ≠ []) (hu : Starts u) :
    decodeOne (bs ++ u) = decodeOne bs := by
  rcases bs with - | ⟨b, bs⟩
  · exact absurd rfl hne
  rw [List.cons_append, decodeOne, decodeOne]
  rcases lead b with - | ⟨length, value⟩
  · rfl
  dsimp only
  by_cases hle : length - 1 ≤ bs.length
  · rw [List.take_append_of_le_length hle, if_neg (by rw [List.length_append]; omega),
      if_neg (by omega)]
  · rw [if_pos (show bs.length < length - 1 by omega)]
    by_cases hshort : (bs ++ u).length < length - 1
    · rw [if_pos hshort]
    · rw [if_neg hshort]
      rcases u with - | ⟨c, u⟩
      · rw [List.append_nil] at hshort
        omega
      · have htake : (bs ++ c :: u).take (length - 1) =
            bs ++ c :: u.take (length - 1 - bs.length - 1) := by
          rw [List.take_append, List.take_of_length_le (by omega),
            show length - 1 - bs.length = (length - 1 - bs.length - 1) + 1 by omega,
            List.take_succ_cons]
          rfl
        rw [htake, follow_append_of_not_isContinuation (hu c rfl)]

theorem badLength_append {bs u : Bytes} (hne : bs ≠ []) (hu : Starts u) :
    badLength (bs ++ u) = badLength bs := by
  rcases bs with - | ⟨b, - | ⟨c, - | ⟨d, bs⟩⟩⟩
  · exact absurd rfl hne
  · rcases u with - | ⟨c, u⟩
    · rfl
    · have hc := hu c rfl
      have hsecond : secondOk b c = false := by
        unfold secondOk
        rw [hc]
        rfl
      show badLength (b :: c :: u) = 1
      unfold badLength
      dsimp only
      rw [hsecond]
      split
      · rfl
      · rw [if_pos (by simp)]
  · rcases u with - | ⟨d, u⟩
    · rfl
    · have hd := hu d rfl
      show badLength (b :: c :: d :: u) = badLength [b, c]
      unfold badLength
      dsimp only
      rw [hd]
      simp
  · rfl

theorem decodeStep_append {bs u : Bytes} (hne : bs ≠ []) (hu : Starts u) :
    decodeStep (bs ++ u) = decodeStep bs := by
  unfold decodeStep
  rw [decodeOne_append hne hu, badLength_append hne hu]

/-- **An encoding is read back**, whatever bytes stand before it. -/
theorem decode_append_encodeAll (bs : Bytes) (s : List Char) :
    decode (bs ++ encodeAll s) = decode bs ++ s := by
  generalize hn : bs.length = n
  induction n using Nat.strong_induction_on generalizing bs with
  | _ n ih =>
    by_cases hne : bs = []
    · rw [hne]
      exact decode_encodeAll s
    have hle := decodeStep_le hne
    have hpos := decodeStep_pos bs
    have hne' : bs ++ encodeAll s ≠ [] := List.append_ne_nil_of_left_ne_nil hne _
    rw [decode_cons hne', decodeStep_append hne (starts_encodeAll s),
      List.drop_append_of_le_length hle, decode_cons hne, List.cons_append,
      ih (bs.drop (decodeStep bs).2).length (by rw [List.length_drop]; omega) _ rfl]

/-- **Where two texts meet**: bytes that split an encoding, and decode to the two texts, are the two
encodings. -/
theorem split_of_decode {x y : Bytes} {s u : List Char} (h : x ++ y = encodeAll (s ++ u))
    (hx : decode x = s) (hy : decode y = u) : x = encodeAll s ∧ y = encodeAll u := by
  rw [encodeAll_append] at h
  rcases List.append_eq_append_iff.mp h with ⟨z, hs, hyz⟩ | ⟨z, hxz, hu⟩
  · have hz : z = [] := by
      refine eq_nil_of_decode ?_
      rw [hyz, decode_append_encodeAll] at hy
      exact List.append_left_eq_self.mp hy
    rw [hz] at hs hyz
    exact ⟨(hs.trans (List.append_nil x)).symm, hyz⟩
  · have hz : z = [] := by
      refine eq_nil_of_decode ?_
      rw [hxz, decode_encodeAll_append] at hx
      exact List.append_right_eq_self.mp hx
    rw [hz] at hxz hu
    exact ⟨hxz.trans (List.append_nil _), hu.symm⟩

end Utf8

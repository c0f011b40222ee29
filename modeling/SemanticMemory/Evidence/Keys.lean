import Mathlib
import SemanticMemory.Evidence.Oracle
import SemanticMemory.Lib.Utf8Text

/-!
# One key on two paths

`canonicalize_segment_input` of `daemon/oracle.py` lowers the ASCII letters and normalizes then.
The key of an event read from the facts, or from a delta row, is canonicalized once; a row of a base
generation stores the key, and `StoredEvent.key` canonicalizes it again.

* NFC is a parameter, with the documented facts that are used of it (`StandardNfc`).
* The Kelvin sign is a singleton of the letter `K`, and it comes after the lowering.  Where it
  composes with no mark behind it, the first pass leaves a capital that the second lowers
  (`BareKelvin`).
* `canonicalize_iff`: everywhere else the two passes agree, and with them the keys of both paths.

The texts of the model are UTF-8, and the lowering of bytes is that of the letters
(`canonicalize_encodeAll`).
-/

namespace SemanticMemory.Oracle

open FactStore Utf8

/-! ## Canonicalization -/

/-- `"A" <= character <= "Z"`. -/
def isCapital (c : Char) : Bool := 65 ≤ c.toNat && c.toNat ≤ 90

/-- `chr(ord(character) + 32)` of a capital. -/
def lowered (c : Char) : Char := if isCapital c then Char.ofNat (c.toNat + 32) else c

/-- `canonicalize_segment_input`, of a string. -/
def canonicalizeString (nfc : List Char → List Char) (text : List Char) : List Char :=
  if text = [] then text else nfc (text.map lowered)

/-- U+212A. -/
def kelvinSign : Char := '\u212A'

/-! ## Lowering -/

variable {c : Char}

theorem lowered_capital (h : isCapital c = true) :
    (lowered c).toNat = c.toNat + 32 ∧ 65 ≤ c.toNat ∧ c.toNat ≤ 90 := by
  rw [lowered, if_pos h]
  rw [isCapital, Bool.and_eq_true, decide_eq_true_eq, decide_eq_true_eq] at h
  refine ⟨?_, h⟩
  rw [Char.toNat_ofNat, if_pos (.inl (by omega))]

theorem lowered_of_not (h : isCapital c = false) : lowered c = c := by
  rw [lowered, h]
  rfl

theorem isCapital_lowered (c : Char) : isCapital (lowered c) = false := by
  rcases h : isCapital c with _ | _
  · rw [lowered_of_not h]
    exact h
  · obtain ⟨heq, hle, hle'⟩ := lowered_capital h
    rw [isCapital, heq, Bool.and_eq_false_iff, decide_eq_false_iff_not, decide_eq_false_iff_not]
    omega

theorem lowered_eq_kelvinSign : lowered c = kelvinSign ↔ c = kelvinSign := by
  rcases h : isCapital c with _ | _
  · rw [lowered_of_not h]
  · obtain ⟨heq, hle, hle'⟩ := lowered_capital h
    refine ⟨fun hkelvin => ?_, fun hkelvin => ?_⟩
    · have := congrArg Char.toNat hkelvin
      rw [heq, show kelvinSign.toNat = 8490 from rfl] at this
      omega
    · rw [hkelvin, show kelvinSign.toNat = 8490 from rfl] at hle'
      omega

/-- Lowering keeps the ASCII letters among themselves. -/
theorem lowered_lt_iff : (lowered c).toNat < 128 ↔ c.toNat < 128 := by
  rcases h : isCapital c with _ | _
  · rw [lowered_of_not h]
  · obtain ⟨heq, hle, hle'⟩ := lowered_capital h
    omega

/-- Nothing above ASCII is lowered. -/
theorem map_lowered_eq_self {s : List Char} (h : ∀ c ∈ s, isCapital c = false) :
    s.map lowered = s := by
  conv_rhs => rw [← List.map_id s]
  exact List.map_congr_left fun c hc => lowered_of_not (h c hc)

/-! ## Normal forms -/

/-- A string without capitals and Kelvin signs. -/
def Quiet (s : List Char) : Prop := ∀ c ∈ s, isCapital c = false ∧ c ≠ kelvinSign

/-- What is used of NFC: facts of the Unicode standard. -/
structure StandardNfc (nfc : List Char → List Char) : Prop where
  idempotent : ∀ s, nfc (nfc s) = nfc s
  /-- The Kelvin sign decomposes to the letter, for good. -/
  singleton : ∀ u v, nfc (u ++ kelvinSign :: v) = nfc (u ++ 'K' :: v)
  kelvinSign_notMem : ∀ s, kelvinSign ∉ nfc s
  /-- No ASCII character composes with what stands before it. -/
  boundary : ∀ (c : Char) (u v : List Char), c.toNat < 128 →
    nfc (u ++ c :: v) = nfc u ++ nfc (c :: v)
  /-- An ASCII character stays, or composes with a mark behind it. -/
  head : ∀ (c : Char) (v : List Char), c.toNat < 128 →
    ∃ d w, nfc (c :: v) = d :: w ∧ (d = c ∨ 128 ≤ d.toNat) ∧
      (Quiet v → ∀ e ∈ w, isCapital e = false)
  /-- Nothing but a Kelvin sign becomes a capital. -/
  quiet : ∀ s, Quiet s → ∀ c ∈ nfc s, isCapital c = false

/-- **A Kelvin sign that composes with no mark behind it.** -/
def BareKelvin (nfc : List Char → List Char) (x : List Char) : Prop :=
  ∃ u v, x = u ++ kelvinSign :: v ∧ (nfc (kelvinSign :: v)).head? = some 'K'

section Nfc

variable {nfc : List Char → List Char}

theorem StandardNfc.boundary_kelvinSign (h : StandardNfc nfc) (u v : List Char) :
    nfc (u ++ kelvinSign :: v) = nfc u ++ nfc (kelvinSign :: v) := by
  have hsingle := h.singleton [] v
  rw [List.nil_append, List.nil_append] at hsingle
  rw [h.singleton, hsingle]
  exact h.boundary 'K' u v (by decide)

theorem StandardNfc.kelvinSign_quiet (h : StandardNfc nfc) {v : List Char} (hv : Quiet v) :
    (∃ c ∈ nfc (kelvinSign :: v), isCapital c = true) ↔
      (nfc (kelvinSign :: v)).head? = some 'K' := by
  have hsingle := h.singleton [] v
  rw [List.nil_append, List.nil_append] at hsingle
  obtain ⟨d, w, heq, hd, hw⟩ := h.head 'K' v (by decide)
  rw [hsingle, heq, List.head?_cons]
  constructor
  · rintro ⟨c, hc, hcapital⟩
    rcases List.mem_cons.mp hc with rfl | hc
    · rcases hd with rfl | hd
      · rfl
      · rw [isCapital, Bool.and_eq_true, decide_eq_true_eq, decide_eq_true_eq] at hcapital
        omega
    · rw [hw hv c hc] at hcapital
      exact absurd hcapital Bool.false_ne_true
  · intro hK
    obtain rfl := Option.some.inj hK
    exact ⟨'K', List.mem_cons_self, by decide⟩

/-- The head of a normal form ends at the next boundary. -/
theorem StandardNfc.head?_kelvinSign (h : StandardNfc nfc) (v w : List Char) :
    (nfc (kelvinSign :: v) ++ w).head? = (nfc (kelvinSign :: v)).head? := by
  have hsingle := h.singleton [] v
  rw [List.nil_append, List.nil_append] at hsingle
  obtain ⟨d, rest, heq, -, -⟩ := h.head 'K' v (by decide)
  rw [hsingle, heq]
  rfl

theorem StandardNfc.bareKelvin_append (h : StandardNfc nfc) {u b : List Char}
    (hb : kelvinSign ∉ b) : BareKelvin nfc (u ++ kelvinSign :: b) ↔
      BareKelvin nfc u ∨ (nfc (kelvinSign :: b)).head? = some 'K' := by
  have hhead (w : List Char) : (nfc (kelvinSign :: (w ++ kelvinSign :: b))).head? =
      (nfc (kelvinSign :: w)).head? := by
    rw [← List.cons_append, h.boundary_kelvinSign, h.head?_kelvinSign]
  constructor
  · rintro ⟨u', v', heq, hK⟩
    rcases List.append_eq_append_iff.mp heq with ⟨w, rfl, hw⟩ | ⟨w, rfl, hw⟩
    · rcases w with _ | ⟨d, w⟩
      · obtain rfl := (List.cons.inj hw).2
        exact .inr hK
      · obtain ⟨rfl, rfl⟩ := List.cons.inj hw
        exact absurd (List.mem_append_right w List.mem_cons_self) hb
    · rcases w with _ | ⟨d, w⟩
      · obtain rfl := (List.cons.inj hw).2
        exact .inr hK
      · obtain ⟨rfl, rfl⟩ := List.cons.inj hw
        exact .inl ⟨u', w, rfl, (hhead w) ▸ hK⟩
  · rintro (⟨u', w, rfl, hK⟩ | hK)
    · exact ⟨u', w ++ kelvinSign :: b, by rw [List.append_assoc, List.cons_append],
        (hhead w).trans hK⟩
    · exact ⟨u, b, rfl, hK⟩

/-- **Where a capital arises.**  The induction is on the length, from the last Kelvin sign. -/
theorem StandardNfc.exists_capital_iff (h : StandardNfc nfc) (z : List Char)
    (hz : ∀ c ∈ z, isCapital c = false) :
    (∃ c ∈ nfc z, isCapital c = true) ↔ BareKelvin nfc z := by
  by_cases hmem : kelvinSign ∈ z
  · obtain ⟨rest, before, hsplit, hrest⟩ :=
      List.eq_append_cons_of_mem (List.mem_reverse.mpr hmem)
    have heq : z = before.reverse ++ kelvinSign :: rest.reverse := by
      have := congrArg List.reverse hsplit
      rw [List.reverse_reverse, List.reverse_append, List.reverse_cons, List.append_assoc] at this
      exact this
    have hb : kelvinSign ∉ rest.reverse := fun hb => hrest (List.mem_reverse.mp hb)
    have hlength : before.reverse.length < z.length := by
      rw [heq, List.length_append, List.length_cons]
      omega
    have hbefore : ∀ c ∈ before.reverse, isCapital c = false := fun c hc =>
      hz c (heq ▸ List.mem_append_left _ hc)
    have hquiet : Quiet rest.reverse := fun c hc =>
      ⟨hz c (heq ▸ List.mem_append_right _ (List.mem_cons_of_mem _ hc)), fun hk => hb (hk ▸ hc)⟩
    have ih := h.exists_capital_iff before.reverse hbefore
    rw [heq, h.bareKelvin_append hb, h.boundary_kelvinSign, ← ih, ← h.kelvinSign_quiet hquiet]
    simp only [List.mem_append, or_and_right, exists_or]
  · refine ⟨fun ⟨c, hc, hcapital⟩ => ?_, fun ⟨u, v, heq, _⟩ => ?_⟩
    · rw [h.quiet z (fun d hd => ⟨hz d hd, fun hk => hmem (hk ▸ hd)⟩) c hc] at hcapital
      exact absurd hcapital Bool.false_ne_true
    · exact absurd (heq ▸ List.mem_append_right u List.mem_cons_self) hmem
termination_by z.length

/-- Lowering does not change what a Kelvin sign composes with. -/
theorem StandardNfc.head?_map_lowered (h : StandardNfc nfc) (v : List Char) :
    (nfc (kelvinSign :: v.map lowered)).head? = (nfc (kelvinSign :: v)).head? := by
  by_cases hascii : ∃ c ∈ v, c.toNat < 128
  · obtain ⟨c, hc, hlt⟩ := hascii
    obtain ⟨m, rest, heq⟩ := List.append_of_mem hc
    have hlength : m.length < v.length := by
      rw [heq, List.length_append, List.length_cons]
      omega
    have ih := h.head?_map_lowered m
    have hlow : (lowered c).toNat < 128 := lowered_lt_iff.mpr hlt
    rw [heq, List.map_append, List.map_cons, ← List.cons_append, ← List.cons_append,
      h.boundary _ _ _ hlow, h.boundary _ _ _ hlt, h.head?_kelvinSign, h.head?_kelvinSign, ih]
  · have hcapital : ∀ c ∈ v, isCapital c = false := by
      intro c hc
      by_contra hcap
      rw [Bool.not_eq_false, isCapital, Bool.and_eq_true, decide_eq_true_eq, decide_eq_true_eq]
        at hcap
      exact hascii ⟨c, hc, by omega⟩
    rw [map_lowered_eq_self hcapital]
termination_by v.length

theorem StandardNfc.bareKelvin_map_lowered (h : StandardNfc nfc) (x : List Char) :
    BareKelvin nfc (x.map lowered) ↔ BareKelvin nfc x := by
  constructor
  · rintro ⟨u, v, heq, hK⟩
    obtain ⟨u', rest, rfl, rfl, hrest⟩ := List.map_eq_append_iff.mp heq
    obtain ⟨c, v', rfl, hc, rfl⟩ := List.map_eq_cons_iff.mp hrest
    obtain rfl := lowered_eq_kelvinSign.mp hc
    exact ⟨u', v', rfl, (h.head?_map_lowered v') ▸ hK⟩
  · rintro ⟨u, v, rfl, hK⟩
    refine ⟨u.map lowered, v.map lowered, ?_, (h.head?_map_lowered v).trans hK⟩
    rw [List.map_append, List.map_cons, lowered_eq_kelvinSign.mpr rfl]

/-- **The two passes agree where no Kelvin sign is left bare.** -/
theorem StandardNfc.canonicalizeString_idempotent_iff (h : StandardNfc nfc) (x : List Char) :
    canonicalizeString nfc (canonicalizeString nfc x) = canonicalizeString nfc x ↔
      ¬ BareKelvin nfc x := by
  have hlower : ∀ c ∈ x.map lowered, isCapital c = false := by
    intro c hc
    obtain ⟨d, -, rfl⟩ := List.mem_map.mp hc
    exact isCapital_lowered d
  have hcapital := (h.exists_capital_iff (x.map lowered) hlower).trans (h.bareKelvin_map_lowered x)
  by_cases hx : x = []
  · subst hx
    refine ⟨fun _ ⟨u, v, heq, _⟩ => ?_, fun _ => rfl⟩
    exact absurd heq.symm (List.append_ne_nil_of_right_ne_nil u (List.cons_ne_nil _ _))
  have hfirst : canonicalizeString nfc x = nfc (x.map lowered) := if_neg hx
  rw [hfirst, ← hcapital]
  constructor
  · rintro heq ⟨c, hc, hcap⟩
    have hne : nfc (x.map lowered) ≠ [] := List.ne_nil_of_mem hc
    rw [canonicalizeString, if_neg hne] at heq
    have hquiet : Quiet ((nfc (x.map lowered)).map lowered) := by
      intro d hd
      obtain ⟨e, he, rfl⟩ := List.mem_map.mp hd
      exact ⟨isCapital_lowered e, fun hk =>
        h.kelvinSign_notMem _ (lowered_eq_kelvinSign.mp hk ▸ he)⟩
    rw [← heq] at hc
    rw [h.quiet _ hquiet c hc] at hcap
    exact Bool.false_ne_true hcap
  · intro hnone
    have hsame : (nfc (x.map lowered)).map lowered = nfc (x.map lowered) :=
      map_lowered_eq_self fun c hc => Bool.eq_false_iff.mpr fun hcap => hnone ⟨c, hc, hcap⟩
    rw [canonicalizeString]
    split_ifs
    · rfl
    · rw [hsame, h.idempotent]

end Nfc

/-! ## Texts -/

/-- Every byte of a character beyond ASCII is beyond ASCII. -/
theorem val_of_mem_encode (hc : 128 ≤ c.toNat) {b : Fin 256} (hb : b ∈ encode c) : 128 ≤ b.val := by
  have hlt : c.toNat < 1114112 := by
    rcases c.valid with h | h
    · exact Nat.lt_trans h (by decide)
    · exact h.2
  have hn : c.val.toNat = c.toNat := rfl
  unfold encode at hb
  dsimp only at hb
  rw [hn] at hb
  split_ifs at hb
  · omega
  all_goals
    simp only [List.mem_cons, List.not_mem_nil, or_false] at hb
    rcases hb with rfl | rfl | rfl | rfl <;> rw [val_ofNat (by omega)] <;> omega

/-- The byte of an ASCII character. -/
theorem encode_of_lt (hc : c.toNat < 128) : encode c = [Fin.ofNat 256 c.toNat] := by
  unfold encode
  exact if_pos hc

/-- **The bytes of a lowered character are the lowered bytes.** -/
theorem encode_lowered (c : Char) : encode (lowered c) = (encode c).map fun b =>
    if 65 ≤ b.val && b.val ≤ 90 then Fin.ofNat 256 (b.val + 32) else b := by
  by_cases hc : c.toNat < 128
  · have hval : (Fin.ofNat 256 c.toNat).val = c.toNat := val_ofNat (by omega)
    rw [encode_of_lt hc, encode_of_lt (lowered_lt_iff.mpr hc), List.map_singleton, hval]
    rcases hcapital : isCapital c with _ | _
    · rw [lowered_of_not hcapital]
      rw [isCapital] at hcapital
      rw [hcapital]
      rfl
    · rw [(lowered_capital hcapital).1]
      rw [isCapital] at hcapital
      rw [hcapital]
      rfl
  · have hcapital : isCapital c = false := by
      rw [isCapital, Bool.and_eq_false_iff, decide_eq_false_iff_not, decide_eq_false_iff_not]
      omega
    rw [lowered_of_not hcapital]
    conv_lhs => rw [← List.map_id (encode c)]
    refine List.map_congr_left fun b hb => ?_
    have hle := val_of_mem_encode (by omega) hb
    rw [if_neg]
    · rfl
    · rw [Bool.and_eq_true, decide_eq_true_eq, decide_eq_true_eq]
      omega

/-- **The canonicalization of texts is that of their strings.** -/
theorem canonicalize_encodeAll {t : Texts} {nfc : List Char → List Char}
    (ht : ∀ s, t.nfc (encodeAll s) = encodeAll (nfc s)) (x : List Char) :
    t.canonicalizeSegmentInput (encodeAll x) = encodeAll (canonicalizeString nfc x) := by
  have hlower : (encodeAll x).map (fun b =>
      if 65 ≤ b.val && b.val ≤ 90 then Fin.ofNat 256 (b.val + 32) else b) =
        encodeAll (x.map lowered) := by
    induction x with
    | nil => rfl
    | cons c x ih => rw [encodeAll_cons, List.map_append, ih, List.map_cons, encodeAll_cons,
        encode_lowered]
  have hnil : encodeAll x = [] ↔ x = [] :=
    ⟨fun h => encodeAll_injective (h.trans rfl), fun h => h ▸ rfl⟩
  rw [Texts.canonicalizeSegmentInput, canonicalizeString]
  by_cases hx : x = []
  · rw [if_pos hx, if_pos (hnil.mpr hx)]
  · rw [if_neg hx, if_neg fun h => hx (hnil.mp h), hlower, ht]

/-! ## The two paths -/

/-- A row of `metadata.json`, by `_metadata_row`. -/
structure MetadataRow where
  eventId : Text
  choiceProblemKey : Key
  candidate : Text
  hlc : Hlc

/-- The row that `build_generation` writes for an event of the facts. -/
def buildRow (t : Texts) (stored : StoredEvent) : MetadataRow where
  eventId := stored.eventId
  choiceProblemKey :=
    t.choiceProblemKey stored.schemaId stored.category stored.canonicalSegmentInput
  candidate := stored.finalSelectionText
  hlc := stored.hlc

/-- The event that `_build_snapshot` serves from a base row, for the commit that it finds. -/
def baseEvent (row : MetadataRow) (commitId : Text) : StoredEvent where
  eventId := row.eventId
  commitId := commitId
  schemaId := row.choiceProblemKey.1
  canonicalSegmentInput := row.choiceProblemKey.2.2
  category := row.choiceProblemKey.2.1
  finalSelectionText := row.candidate
  hlc := row.hlc

/-- The event that `_build_snapshot` serves from a delta row, which holds the input as the facts do.
-/
def deltaEvent (stored : StoredEvent) : StoredEvent := stored.served

/-- **One key on both paths, where no Kelvin sign is left bare.**  For every string, the second
canonicalization changes nothing, and an event with that input has one key, from a base row, a delta
row and the facts, if and only if no Kelvin sign of the input stands without a mark that it composes
with. -/
theorem canonicalize_iff {nfc : List Char → List Char} (hnfc : StandardNfc nfc) {t : Texts}
    (ht : ∀ s, t.nfc (encodeAll s) = encodeAll (nfc s)) (x : List Char) :
    (canonicalizeString nfc (canonicalizeString nfc x) = canonicalizeString nfc x ↔
      ¬ BareKelvin nfc x) ∧
    ∀ (stored : StoredEvent) (commitId : Text), stored.canonicalSegmentInput = encodeAll x →
      (eventKey t (baseEvent (buildRow t stored) commitId) = eventKey t stored ∧
        eventKey t (baseEvent (buildRow t stored) commitId) = eventKey t (deltaEvent stored) ↔
          ¬ BareKelvin nfc x) := by
  have hidempotent := hnfc.canonicalizeString_idempotent_iff x
  refine ⟨hidempotent, fun stored commitId hstored => ?_⟩
  have hfirst : eventKey t stored =
      (stored.schemaId, stored.category, encodeAll (canonicalizeString nfc x)) := by
    rw [eventKey, Texts.choiceProblemKey, hstored, canonicalize_encodeAll ht]
  have hsecond : eventKey t (baseEvent (buildRow t stored) commitId) = (stored.schemaId,
      stored.category, encodeAll (canonicalizeString nfc (canonicalizeString nfc x))) := by
    rw [eventKey, Texts.choiceProblemKey, ← canonicalize_encodeAll ht, ← canonicalize_encodeAll ht,
      ← hstored]
    rfl
  have hdelta : eventKey t (deltaEvent stored) = eventKey t stored := rfl
  rw [hdelta, and_self, hfirst, hsecond, ← hidempotent]
  exact ⟨fun h => encodeAll_injective (Prod.mk.inj (Prod.mk.inj h).2).2, fun h => by rw [h]⟩

/-! ## A bare Kelvin sign -/

def singletonOf (c : Char) : Char := if c = kelvinSign then 'K' else c

theorem singletonOf_of_ne (h : c ≠ kelvinSign) : singletonOf c = c := if_neg h

theorem singletonOf_ne (c : Char) : singletonOf c ≠ kelvinSign := by
  rw [singletonOf]
  split_ifs with h
  · decide
  · exact h

theorem standardNfc_singletonOf : StandardNfc (List.map singletonOf) where
  idempotent s := by
    rw [List.map_map]
    exact List.map_congr_left fun c _ => singletonOf_of_ne (singletonOf_ne c)
  singleton u v := by
    rw [List.map_append, List.map_append, List.map_cons, List.map_cons]
    rfl
  kelvinSign_notMem s := by
    intro h
    obtain ⟨c, -, hc⟩ := List.mem_map.mp h
    exact singletonOf_ne c hc
  boundary c u v _ := List.map_append
  head c v hc := by
    have hne : c ≠ kelvinSign := by
      rintro rfl
      exact absurd hc (by decide)
    refine ⟨c, v.map singletonOf, by rw [List.map_cons, singletonOf_of_ne hne], .inl rfl, ?_⟩
    intro hv e he
    obtain ⟨d, hd, rfl⟩ := List.mem_map.mp he
    rw [singletonOf_of_ne (hv d hd).2]
    exact (hv d hd).1
  quiet s hs c hc := by
    obtain ⟨d, hd, rfl⟩ := List.mem_map.mp hc
    rw [singletonOf_of_ne (hs d hd).2]
    exact (hs d hd).1

/-- The texts of the strings that `singletonOf` normalizes. -/
def singletonTexts : Texts where
  nfc text := encodeAll ((decode text).map singletonOf)
  simplify := id

theorem singletonTexts_nfc (s : List Char) :
    singletonTexts.nfc (encodeAll s) = encodeAll (s.map singletonOf) := by
  change encodeAll ((decode (encodeAll s)).map singletonOf) = _
  rw [decode_encodeAll]

theorem canonicalize_iff_letter : ¬ BareKelvin (List.map singletonOf) ['K'] ∧
    canonicalizeString (List.map singletonOf) (canonicalizeString (List.map singletonOf) ['K']) =
      canonicalizeString (List.map singletonOf) ['K'] := by
  have hbare : ¬ BareKelvin (List.map singletonOf) ['K'] := by
    rintro ⟨u, v, heq, -⟩
    have hmem : kelvinSign ∈ ['K'] := heq ▸ List.mem_append_right u List.mem_cons_self
    exact absurd (List.mem_singleton.mp hmem) (by decide)
  exact ⟨hbare,
    (canonicalize_iff standardNfc_singletonOf singletonTexts_nfc ['K']).1.mpr hbare⟩

/-- An event whose input is the Kelvin sign. -/
def kelvinEvent : StoredEvent where
  eventId := [4]
  commitId := [3]
  schemaId := [1]
  canonicalSegmentInput := encodeAll [kelvinSign]
  category := [2]
  finalSelectionText := [5]
  hlc := hlc 1 0

/-- **The Kelvin sign alone has two keys**: the letter `K` after one pass, and `k` after two. -/
theorem canonicalize_kelvinSign : StandardNfc (List.map singletonOf) ∧
    canonicalizeString (List.map singletonOf) [kelvinSign] = ['K'] ∧
    canonicalizeString (List.map singletonOf)
      (canonicalizeString (List.map singletonOf) [kelvinSign]) = ['k'] ∧
    eventKey singletonTexts kelvinEvent = ([1], [2], encodeAll ['K']) ∧
    eventKey singletonTexts (baseEvent (buildRow singletonTexts kelvinEvent) [3]) =
      ([1], [2], encodeAll ['k']) :=
  ⟨standardNfc_singletonOf, by decide, by decide, by decide +kernel, by decide +kernel⟩

end SemanticMemory.Oracle

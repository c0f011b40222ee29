import Mathlib.Data.List.Basic
import Mathlib.Data.List.Nodup
import Mathlib.Data.List.Induction
import Mathlib.Logic.Function.Basic

/-!
# A register of what is live and what is logged

A register maps the keys of values that wait in a line (`live`), or have gone from it to a log, to
their contents.  Some logged values are exempt: when the register is made again from the log alone
(`rebuilt`), they are passed over.  `base` says how many values were logged at that moment.

* `Known`: the register knows whatever is live, and whatever is logged but for the exempt values
  before `base`.  Two values with one key are an exempt one before `base` and a later one.
* `Exact`: it knows nothing else.

A value joins the line (`add`), leaves it and is forgotten (`remove`), or goes to the log
(`publish`).  `rebuilt_eq` compares a rebuilt register with one that was never rebuilt.
-/

namespace Register

universe u v w

variable {α : Type u} {κ : Type v} {ν : Type w}
variable (key : α → κ) (val : α → ν) (exempt : α → Prop)

/-- A logged value is one that the register has to know. -/
def Counts (base i : ℕ) (a : α) : Prop := ¬ exempt a ∨ base ≤ i

/-- The register knows what is live and what counts in the log. -/
structure Known (map : κ → Option ν) (live log : List α) (base : ℕ) : Prop where
  ofLive : ∀ a ∈ live, map (key a) = some (val a)
  nodup : (live.map key).Nodup
  ofLog : ∀ i a, log[i]? = some a → Counts exempt base i a → map (key a) = some (val a)
  apart : ∀ a ∈ live, ∀ i b, log[i]? = some b → key b = key a → ¬ Counts exempt base i b
  unique : ∀ i j a b, log[i]? = some a → log[j]? = some b → i < j → key a = key b →
    ¬ Counts exempt base i a

/-- The register knows only what is live and what counts in the log. -/
def Exact (map : κ → Option ν) (live log : List α) (base : ℕ) : Prop :=
  ∀ k v, map k = some v → (∃ a ∈ live, key a = k ∧ val a = v) ∨
    ∃ i a, log[i]? = some a ∧ Counts exempt base i a ∧ key a = k ∧ val a = v

variable {key val exempt} {map map' : κ → Option ν} {live log : List α} {base : ℕ}

theorem known_nil : Known key val exempt (fun _ => none) [] [] base where
  ofLive _ ha := absurd ha List.not_mem_nil
  nodup := List.nodup_nil
  ofLog _ _ ha := nomatch ha
  apart _ ha := absurd ha List.not_mem_nil
  unique _ _ _ _ ha := nomatch ha

theorem exact_nil : Exact key val exempt (fun _ => none) live log base :=
  fun _ _ h => nomatch h

/-! ## The line -/

section Line

variable [DecidableEq κ]

/-- A value whose key is not known joins the line. -/
theorem Known.add (h : Known key val exempt map live log base) {a : α} (ha : map (key a) = none) :
    Known key val exempt (Function.update map (key a) (some (val a))) (live ++ [a]) log base := by
  have hlive (b : α) (hb : b ∈ live) : key b ≠ key a := by
    intro heq
    rw [← heq, h.ofLive b hb] at ha
    cases ha
  have hlog (i : ℕ) (b : α) (hb : log[i]? = some b) (hc : Counts exempt base i b) :
      key b ≠ key a := by
    intro heq
    rw [← heq, h.ofLog i b hb hc] at ha
    cases ha
  refine ⟨fun b hb => ?_, ?_, fun i b hb hc => ?_, fun b hb i b' hb' heq hc => ?_, h.unique⟩
  · rcases List.mem_append.mp hb with hb | hb
    · rw [Function.update_of_ne (hlive b hb), h.ofLive b hb]
    · rw [List.mem_singleton.mp hb, Function.update_self]
  · rw [List.map_append, List.map_singleton]
    refine List.Nodup.append h.nodup (List.nodup_singleton _) ?_
    intro k hk hk'
    obtain ⟨b, hb, rfl⟩ := List.mem_map.mp hk
    exact hlive b hb (List.mem_singleton.mp hk')
  · rw [Function.update_of_ne (hlog i b hb hc), h.ofLog i b hb hc]
  · rcases List.mem_append.mp hb with hb | hb
    · exact h.apart b hb i b' hb' heq hc
    · rw [List.mem_singleton.mp hb] at heq
      exact hlog i b' hb' hc heq

theorem Exact.add (h : Exact key val exempt map live log base) (a : α) :
    Exact key val exempt (Function.update map (key a) (some (val a))) (live ++ [a]) log base := by
  intro k v hv
  by_cases hk : k = key a
  · rw [hk, Function.update_self] at hv
    exact Or.inl ⟨a, List.mem_append_right _ (List.mem_singleton_self a), hk.symm,
      Option.some.inj hv⟩
  · rw [Function.update_of_ne hk] at hv
    rcases h k v hv with ⟨b, hb, hrest⟩ | hlog
    · exact Or.inl ⟨b, List.mem_append_left _ hb, hrest⟩
    · exact Or.inr hlog

/-- A value leaves the line and is forgotten. -/
theorem Known.remove {xs ys : List α} {a : α}
    (h : Known key val exempt map (xs ++ a :: ys) log base) :
    Known key val exempt (Function.update map (key a) none) (xs ++ ys) log base := by
  have hperm : (xs ++ a :: ys).Perm (a :: (xs ++ ys)) := List.perm_middle
  have hmem (b : α) (hb : b ∈ xs ++ ys) : b ∈ xs ++ a :: ys :=
    hperm.mem_iff.mpr (List.mem_cons_of_mem _ hb)
  have hnodup := (hperm.map key).nodup_iff.mp h.nodup
  rw [List.map_cons, List.nodup_cons] at hnodup
  have hne (b : α) (hb : b ∈ xs ++ ys) : key b ≠ key a := fun heq =>
    hnodup.1 (heq ▸ List.mem_map_of_mem hb)
  refine ⟨fun b hb => ?_, hnodup.2, fun i b hb hc => ?_, fun b hb => h.apart b (hmem b hb),
    h.unique⟩
  · rw [Function.update_of_ne (hne b hb), h.ofLive b (hmem b hb)]
  · have hba : key b ≠ key a := fun heq =>
      h.apart a (hperm.mem_iff.mpr List.mem_cons_self) i b hb heq hc
    rw [Function.update_of_ne hba, h.ofLog i b hb hc]

theorem Exact.remove {xs ys : List α} {a : α}
    (h : Exact key val exempt map (xs ++ a :: ys) log base) :
    Exact key val exempt (Function.update map (key a) none) (xs ++ ys) log base := by
  intro k v hv
  have hk : k ≠ key a := by
    rintro rfl
    rw [Function.update_self] at hv
    cases hv
  rw [Function.update_of_ne hk] at hv
  rcases h k v hv with ⟨b, hb, hkey, hval⟩ | hlog
  · refine Or.inl ⟨b, ?_, hkey, hval⟩
    rcases List.mem_append.mp hb with hb | hb
    · exact List.mem_append_left _ hb
    · rcases List.mem_cons.mp hb with rfl | hb
      · exact absurd hkey.symm hk
      · exact List.mem_append_right _ hb
  · exact Or.inr hlog

end Line

/-- Values leave the line without being forgotten. -/
theorem Known.sublist {live' : List α} (h : Known key val exempt map live log base)
    (hsub : live'.Sublist live) : Known key val exempt map live' log base where
  ofLive a ha := h.ofLive a (hsub.subset ha)
  nodup := h.nodup.sublist (hsub.map key)
  ofLog := h.ofLog
  apart a ha := h.apart a (hsub.subset ha)
  unique := h.unique

/-! ## The log -/

/-- The values at the head of the line go to the log. -/
theorem Known.publish {pub rest : List α}
    (h : Known key val exempt map (pub ++ rest) log base) :
    Known key val exempt map rest (log ++ pub) base := by
  have hnodup := h.nodup
  rw [List.map_append, List.nodup_append] at hnodup
  obtain ⟨hpub, hrest, hdisjoint⟩ := hnodup
  have hleft (a : α) (ha : a ∈ pub) : a ∈ pub ++ rest := List.mem_append_left _ ha
  refine ⟨fun a ha => h.ofLive a (List.mem_append_right _ ha), hrest, fun i a ha hc => ?_,
    fun a ha i b hb heq hc => ?_, fun i j a b ha hb hij heq hc => ?_⟩
  · by_cases hi : i < log.length
    · rw [List.getElem?_append_left hi] at ha
      exact h.ofLog i a ha hc
    · rw [List.getElem?_append_right (Nat.le_of_not_lt hi)] at ha
      exact h.ofLive a (hleft a (List.mem_of_getElem? ha))
  · by_cases hi : i < log.length
    · rw [List.getElem?_append_left hi] at hb
      exact h.apart a (List.mem_append_right _ ha) i b hb heq hc
    · rw [List.getElem?_append_right (Nat.le_of_not_lt hi)] at hb
      exact hdisjoint _ (List.mem_map_of_mem (List.mem_of_getElem? hb)) _ (List.mem_map_of_mem ha)
        heq
  · by_cases hj : j < log.length
    · rw [List.getElem?_append_left hj] at hb
      rw [List.getElem?_append_left (Nat.lt_trans hij hj)] at ha
      exact h.unique i j a b ha hb hij heq hc
    · rw [List.getElem?_append_right (Nat.le_of_not_lt hj)] at hb
      by_cases hi : i < log.length
      · rw [List.getElem?_append_left hi] at ha
        exact h.apart b (hleft b (List.mem_of_getElem? hb)) i a ha heq hc
      · rw [List.getElem?_append_right (Nat.le_of_not_lt hi)] at ha
        -- both are new, at different places
        have hlt : i - log.length < (pub.map key).length := by
          rw [List.length_map]
          exact (List.getElem?_eq_some_iff.mp ha).1
        have hsame : (pub.map key)[i - log.length]? = (pub.map key)[j - log.length]? := by
          rw [List.getElem?_map, List.getElem?_map, ha, hb, Option.map_some, Option.map_some, heq]
        have hplace := (List.getElem?_inj hlt hpub).mp hsame
        omega

theorem Exact.publish {pub rest : List α} (hbase : base ≤ log.length)
    (h : Exact key val exempt map (pub ++ rest) log base) :
    Exact key val exempt map rest (log ++ pub) base := by
  intro k v hv
  rcases h k v hv with ⟨a, ha, hkey, hval⟩ | ⟨i, a, ha, hc, hkey, hval⟩
  · rcases List.mem_append.mp ha with ha | ha
    · obtain ⟨i, hi⟩ := List.mem_iff_getElem?.mp ha
      refine Or.inr ⟨log.length + i, a, ?_, Or.inr (by omega), hkey, hval⟩
      rw [List.getElem?_append_right (Nat.le_add_right _ _), Nat.add_sub_cancel_left, hi]
    · exact Or.inl ⟨a, ha, hkey, hval⟩
  · have hi := (List.getElem?_eq_some_iff.mp ha).1
    exact Or.inr ⟨i, a, (List.getElem?_append_left hi).trans ha, hc, hkey, hval⟩

/-! ## A register made from the log -/

section Rebuilt

variable (key val exempt) [DecidableEq κ] [DecidablePred exempt]

/-- The register of a log, the values taken one after the other. -/
def rebuiltFrom (map : κ → Option ν) : List α → κ → Option ν
  | [] => map
  | a :: log =>
    rebuiltFrom (if exempt a then map else Function.update map (key a) (some (val a))) log

def rebuilt (log : List α) : κ → Option ν := rebuiltFrom key val exempt (fun _ => none) log

theorem rebuiltFrom_append (map : κ → Option ν) (log log' : List α) :
    rebuiltFrom key val exempt map (log ++ log') =
      rebuiltFrom key val exempt (rebuiltFrom key val exempt map log) log' := by
  induction log generalizing map with
  | nil => rfl
  | cons a log ih => rw [List.cons_append, rebuiltFrom, ih, rebuiltFrom]

/-- A value at the end of the log. -/
theorem rebuilt_concat (log : List α) (a : α) :
    rebuilt key val exempt (log ++ [a]) =
      if exempt a then rebuilt key val exempt log
      else Function.update (rebuilt key val exempt log) (key a) (some (val a)) := by
  rw [rebuilt, rebuiltFrom_append]
  rfl

variable {key val exempt}

/-- What is known already is taken again. -/
theorem rebuiltFrom_of_known {log : List α} (h : ∀ a ∈ log, map (key a) = some (val a)) :
    rebuiltFrom key val exempt map log = map := by
  induction log with
  | nil => rfl
  | cons a log ih =>
    have hsame : Function.update map (key a) (some (val a)) = map := by
      rw [← h a List.mem_cons_self, Function.update_eq_self]
    rw [rebuiltFrom, hsame, ite_self, ih fun b hb => h b (List.mem_cons_of_mem _ hb)]

/-- A rebuilt register knows the value of a key that is not exempt, if no other one follows. -/
theorem rebuilt_known {log : List α}
    (hunique : ∀ (i j : ℕ) (a b : α), log[i]? = some a → log[j]? = some b → i < j →
      key a = key b → exempt a)
    {a : α} (ha : a ∈ log) (hexempt : ¬ exempt a) :
    rebuilt key val exempt log (key a) = some (val a) := by
  induction log using List.reverseRecOn with
  | nil => cases ha
  | append_singleton log b ih =>
    have hold (i : ℕ) (a : α) (h : log[i]? = some a) : (log ++ [b])[i]? = some a :=
      (List.getElem?_append_left (List.getElem?_eq_some_iff.mp h).1).trans h
    have hlast : (log ++ [b])[log.length]? = some b := List.getElem?_concat_length
    have ih' := ih fun i j a b ha hb hij heq => hunique i j a b (hold i a ha) (hold j b hb) hij heq
    rw [rebuilt_concat]
    rcases List.mem_append.mp ha with ha | ha
    · obtain ⟨i, hi⟩ := List.mem_iff_getElem?.mp ha
      have hne : key a ≠ key b := fun heq =>
        hexempt (hunique i log.length a b (hold i a hi) hlast
          (List.getElem?_eq_some_iff.mp hi).1 heq)
      split_ifs
      · exact ih' ha
      · rw [Function.update_of_ne hne]
        exact ih' ha
    · obtain rfl := List.mem_singleton.mp ha
      rw [if_neg hexempt, Function.update_self]

/-- A rebuilt register knows only values that are not exempt. -/
theorem rebuilt_exact {log : List α} {k : κ} {v : ν} (hv : rebuilt key val exempt log k = some v) :
    ∃ a ∈ log, ¬ exempt a ∧ key a = k ∧ val a = v := by
  induction log using List.reverseRecOn with
  | nil => cases hv
  | append_singleton log b ih =>
    rw [rebuilt_concat] at hv
    have hrec (h : rebuilt key val exempt log k = some v) :
        ∃ a ∈ log ++ [b], ¬ exempt a ∧ key a = k ∧ val a = v := by
      obtain ⟨a, ha, hrest⟩ := ih h
      exact ⟨a, List.mem_append_left _ ha, hrest⟩
    split_ifs at hv with hexempt
    · exact hrec hv
    · by_cases hk : k = key b
      · rw [hk, Function.update_self] at hv
        exact ⟨b, List.mem_append_right _ (List.mem_singleton_self b), hexempt, hk.symm,
          Option.some.inj hv⟩
      · rw [Function.update_of_ne hk] at hv
        exact hrec hv

/-- **A register is made again from the log**, with nothing in the line. -/
theorem Known.rebuild (h : Known key val exempt map live log base) :
    Known key val exempt (rebuilt key val exempt log) [] log log.length where
  ofLive _ ha := absurd ha List.not_mem_nil
  nodup := List.nodup_nil
  ofLog i a ha hc := by
    have hi := (List.getElem?_eq_some_iff.mp ha).1
    have hexempt : ¬ exempt a := hc.resolve_right (by omega)
    refine rebuilt_known (fun i j a b ha hb hij heq => ?_) (List.mem_of_getElem? ha) hexempt
    by_contra hnot
    exact h.unique i j a b ha hb hij heq (Or.inl hnot)
  apart _ ha := absurd ha List.not_mem_nil
  unique i j a b ha hb hij heq hc := by
    have hj := (List.getElem?_eq_some_iff.mp hb).1
    rcases hc with hc | hc
    · exact h.unique i j a b ha hb hij heq (Or.inl hc)
    · omega

theorem exact_rebuilt : Exact key val exempt (rebuilt key val exempt log) [] log base := by
  intro k v hv
  obtain ⟨a, ha, hexempt, hkey, hval⟩ := rebuilt_exact hv
  obtain ⟨i, hi⟩ := List.mem_iff_getElem?.mp ha
  exact Or.inr ⟨i, a, hi, Or.inl hexempt, hkey, hval⟩

/-- **A rebuilt register and one that never was rebuilt** agree on every key that no exempt value
bears. -/
theorem rebuilt_eq (h : Known key val exempt map [] log 0) (hexact : Exact key val exempt map [] log 0)
    {k : κ} (hk : ∀ a ∈ log, key a = k → ¬ exempt a) : rebuilt key val exempt log k = map k := by
  cases hmap : map k with
  | none =>
    cases hrebuilt : rebuilt key val exempt log k with
    | none => rfl
    | some v =>
      obtain ⟨a, ha, -, rfl, -⟩ := rebuilt_exact hrebuilt
      obtain ⟨i, hi⟩ := List.mem_iff_getElem?.mp ha
      rw [h.ofLog i a hi (Or.inr (Nat.zero_le i))] at hmap
      cases hmap
  | some v =>
    rcases hexact k v hmap with ⟨a, ha, -⟩ | ⟨i, a, ha, -, rfl, rfl⟩
    · cases ha
    · have hmem := List.mem_of_getElem? ha
      refine h.rebuild.ofLog i a ha (Or.inl (hk a hmem rfl))

end Rebuilt

end Register

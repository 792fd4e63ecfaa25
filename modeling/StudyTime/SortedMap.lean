/-
**Finite maps kept in the order of their keys.**

A map is the list of its entries, strictly increasing by key.  The order is part of the type, so a
map has one representation: two maps with the same look-ups are equal, list their entries alike
and are written alike.

Main definitions:

* `KeyOrder` — a total order on keys, given as a three-way comparison;
* `SortedMap` — the maps, with `get?`, `insert`, `erase` and `filterKeys`.

Main results:

* `SortedMap.get?_insert`, `SortedMap.get?_erase`, `SortedMap.get?_filterKeys` — each operation is
  known by its look-ups;
* `SortedMap.ext` — **a map is determined by its look-ups**.
-/

set_option relaxedAutoImplicit false
set_option autoImplicit false

namespace StudyTime

/-- A total order on keys, as a three-way comparison. -/
class KeyOrder (κ : Type) where
  /-- Where the first key stands, seen from the second. -/
  cmp : κ → κ → Ordering
  /-- Keys that compare equal are the same key. -/
  eq_of_cmp : ∀ {a b : κ}, cmp a b = .eq → a = b
  /-- A key compares equal to itself. -/
  cmp_self : ∀ a : κ, cmp a a = .eq
  /-- Comparing the other way round gives the opposite answer. -/
  cmp_swap : ∀ a b : κ, cmp b a = (cmp a b).swap
  /-- The order is transitive. -/
  cmp_trans : ∀ {a b c : κ}, cmp a b = .lt → cmp b c = .lt → cmp a c = .lt

namespace KeyOrder

variable {κ : Type} [KeyOrder κ]

@[simp] theorem cmp_eq_iff {a b : κ} : cmp a b = .eq ↔ a = b :=
  ⟨eq_of_cmp, fun h => h ▸ cmp_self a⟩

theorem cmp_gt_iff {a b : κ} : cmp a b = .gt ↔ cmp b a = .lt := by
  rw [cmp_swap a b]
  cases cmp a b <;> simp

theorem ne_of_lt {a b : κ} (h : cmp a b = .lt) : a ≠ b := by
  intro e
  rw [cmp_eq_iff.2 e] at h
  exact Ordering.noConfusion h

end KeyOrder

/-! ### Orders on the keys in use -/

/-- Texts compare by the code points of their characters, the first difference deciding.  Their UTF-8
forms stand in the same order, since a larger code point has the larger form. -/
def compareChars : List Char → List Char → Ordering
  | [], [] => .eq
  | [], _ :: _ => .lt
  | _ :: _, [] => .gt
  | a :: as, b :: bs =>
    if a.toNat < b.toNat then .lt else if b.toNat < a.toNat then .gt else compareChars as bs

theorem compareChars_self : ∀ s : List Char, compareChars s s = .eq
  | [] => rfl
  | a :: as => by simp [compareChars, compareChars_self as]

theorem eq_of_compareChars : ∀ {s t : List Char}, compareChars s t = .eq → s = t
  | [], [], _ => rfl
  | [], _ :: _, h => by simp [compareChars] at h
  | _ :: _, [], h => by simp [compareChars] at h
  | a :: as, b :: bs, h => by
    simp only [compareChars] at h
    split at h
    · exact Ordering.noConfusion h
    · split at h
      · exact Ordering.noConfusion h
      · have hab : a = b := Char.toNat_inj.1 (by omega)
        rw [hab, eq_of_compareChars h]

theorem compareChars_swap : ∀ s t : List Char, compareChars t s = (compareChars s t).swap
  | [], [] => rfl
  | [], _ :: _ => rfl
  | _ :: _, [] => rfl
  | a :: as, b :: bs => by
    simp only [compareChars]
    by_cases hab : a.toNat < b.toNat
    · simp [hab, show ¬ b.toNat < a.toNat by omega]
    · by_cases hba : b.toNat < a.toNat
      · simp [hab, hba]
      · simp [hab, hba, compareChars_swap as bs]

theorem compareChars_trans :
    ∀ {s t u : List Char}, compareChars s t = .lt → compareChars t u = .lt →
      compareChars s u = .lt
  | [], [], _, h, _ => by simp [compareChars] at h
  | _ :: _, [], _, h, _ => by simp [compareChars] at h
  | _, _ :: _, [], _, h => by simp [compareChars] at h
  | [], _ :: _, _ :: _, _, _ => rfl
  | a :: as, b :: bs, c :: cs, h, h' => by
    simp only [compareChars] at h h' ⊢
    by_cases hab : a.toNat < b.toNat
    · by_cases hbc : b.toNat < c.toNat
      · simp [show a.toNat < c.toNat by omega]
      · by_cases hcb : c.toNat < b.toNat
        · simp [hbc, hcb] at h'
        · simp [show a.toNat < c.toNat by omega]
    · by_cases hba : b.toNat < a.toNat
      · simp [hab, hba] at h
      · simp only [hab, hba, if_false] at h
        by_cases hbc : b.toNat < c.toNat
        · simp [show a.toNat < c.toNat by omega]
        · by_cases hcb : c.toNat < b.toNat
          · simp [hbc, hcb] at h'
          · simp only [hbc, hcb, if_false] at h'
            simp only [show ¬ a.toNat < c.toNat by omega, show ¬ c.toNat < a.toNat by omega,
              if_false]
            exact compareChars_trans h h'

instance : KeyOrder String where
  cmp a b := compareChars a.toList b.toList
  eq_of_cmp h := String.toList_inj.1 (eq_of_compareChars h)
  cmp_self _ := compareChars_self _
  cmp_swap _ _ := compareChars_swap _ _
  cmp_trans h h' := compareChars_trans h h'

/-- Numbers compare by size. -/
def compareNat (a b : Nat) : Ordering :=
  if a < b then .lt else if b < a then .gt else .eq

instance : KeyOrder Nat where
  cmp := compareNat
  eq_of_cmp {a b} h := by
    simp only [compareNat] at h
    split at h
    · exact Ordering.noConfusion h
    · split at h
      · exact Ordering.noConfusion h
      · omega
  cmp_self a := by simp [compareNat]
  cmp_swap a b := by
    simp only [compareNat]
    by_cases hab : a < b
    · simp [hab, show ¬ b < a by omega]
    · by_cases hba : b < a <;> simp [hab, hba]
  cmp_trans {a b c} h h' := by
    have hab : a < b := by
      simp only [compareNat] at h
      split at h
      · assumption
      · split at h <;> exact Ordering.noConfusion h
    have hbc : b < c := by
      simp only [compareNat] at h'
      split at h'
      · assumption
      · split at h' <;> exact Ordering.noConfusion h'
    simp [compareNat, show a < c by omega]

/-- Pairs compare by their first parts, and by their second parts where these are equal. -/
instance {κ μ : Type} [KeyOrder κ] [KeyOrder μ] : KeyOrder (κ × μ) where
  cmp a b := (KeyOrder.cmp a.1 b.1).then (KeyOrder.cmp a.2 b.2)
  eq_of_cmp {a b} h := by
    have h := Ordering.then_eq_eq.1 h
    exact Prod.ext (KeyOrder.eq_of_cmp h.1) (KeyOrder.eq_of_cmp h.2)
  cmp_self a := by simp
  cmp_swap a b := by
    rw [KeyOrder.cmp_swap a.1 b.1, KeyOrder.cmp_swap a.2 b.2, Ordering.swap_then]
  cmp_trans {a b c} h h' := by
    rw [Ordering.then_eq_lt] at h h' ⊢
    rcases h with h | ⟨h₁, h₂⟩ <;> rcases h' with h' | ⟨h'₁, h'₂⟩
    · exact .inl (KeyOrder.cmp_trans h h')
    · exact .inl (KeyOrder.eq_of_cmp h'₁ ▸ h)
    · exact .inl (KeyOrder.eq_of_cmp h₁ ▸ h')
    · exact .inr ⟨by rw [KeyOrder.eq_of_cmp h₁]; exact h'₁, KeyOrder.cmp_trans h₂ h'₂⟩

/-! ### Maps -/

/-- A finite map: its entries, strictly increasing by key. -/
structure SortedMap (κ ν : Type) [KeyOrder κ] where
  entries : List (κ × ν)
  /-- Every entry stands before all those that follow it. -/
  sorted : entries.Pairwise fun a b => KeyOrder.cmp a.1 b.1 = .lt

namespace SortedMap

variable {κ ν : Type} [KeyOrder κ]

/-- The map without entries. -/
def empty : SortedMap κ ν := ⟨[], .nil⟩

instance : EmptyCollection (SortedMap κ ν) := ⟨empty⟩
instance : Inhabited (SortedMap κ ν) := ⟨empty⟩

/-- The value of the first entry with this key. -/
def lookup (k : κ) : List (κ × ν) → Option ν
  | [] => none
  | (k', v) :: rest => if KeyOrder.cmp k k' = .eq then some v else lookup k rest

/-- The value kept under a key. -/
def get? (m : SortedMap κ ν) (k : κ) : Option ν := lookup k m.entries

/-- Puts an entry in its place, over any entry with the same key. -/
def insertEntry (k : κ) (v : ν) : List (κ × ν) → List (κ × ν)
  | [] => [(k, v)]
  | (k', v') :: rest =>
    match KeyOrder.cmp k k' with
    | .lt => (k, v) :: (k', v') :: rest
    | .eq => (k, v) :: rest
    | .gt => (k', v') :: insertEntry k v rest

theorem mem_insertEntry {k : κ} {v : ν} {e : κ × ν} :
    ∀ {l : List (κ × ν)}, e ∈ insertEntry k v l → e = (k, v) ∨ e ∈ l
  | [], h => by simpa [insertEntry] using h
  | (k', v') :: rest, h => by
    simp only [insertEntry] at h
    split at h
    · rcases List.mem_cons.1 h with h | h
      · exact .inl h
      · exact .inr h
    · rcases List.mem_cons.1 h with h | h
      · exact .inl h
      · exact .inr (List.mem_cons_of_mem _ h)
    · rcases List.mem_cons.1 h with h | h
      · exact .inr (h ▸ List.mem_cons_self)
      · rcases mem_insertEntry h with h | h
        · exact .inl h
        · exact .inr (List.mem_cons_of_mem _ h)

theorem pairwise_insertEntry (k : κ) (v : ν) :
    ∀ {l : List (κ × ν)}, l.Pairwise (fun a b => KeyOrder.cmp a.1 b.1 = .lt) →
      (insertEntry k v l).Pairwise fun a b => KeyOrder.cmp a.1 b.1 = .lt
  | [], _ => by simp [insertEntry]
  | (k', v') :: rest, h => by
    obtain ⟨hhead, htail⟩ := List.pairwise_cons.1 h
    simp only [insertEntry]
    split
    next hlt =>
      refine List.pairwise_cons.2 ⟨fun e he => ?_, h⟩
      rcases List.mem_cons.1 he with rfl | he
      · exact hlt
      · exact KeyOrder.cmp_trans hlt (hhead e he)
    next heq =>
      cases KeyOrder.eq_of_cmp heq
      exact List.pairwise_cons.2 ⟨hhead, htail⟩
    next hgt =>
      refine List.pairwise_cons.2 ⟨fun e he => ?_, pairwise_insertEntry k v htail⟩
      rcases mem_insertEntry he with rfl | he
      · exact KeyOrder.cmp_gt_iff.1 hgt
      · exact hhead e he

/-- Keeps a value under a key, in place of the one kept there before. -/
def insert (m : SortedMap κ ν) (k : κ) (v : ν) : SortedMap κ ν :=
  ⟨insertEntry k v m.entries, pairwise_insertEntry k v m.sorted⟩

/-- Keeps only the entries whose key passes. -/
def filterKeys (m : SortedMap κ ν) (p : κ → Bool) : SortedMap κ ν :=
  ⟨m.entries.filter (fun e => p e.1), m.sorted.filter _⟩

/-- Drops the entry with this key. -/
def erase (m : SortedMap κ ν) (k : κ) : SortedMap κ ν :=
  m.filterKeys fun k' => !(KeyOrder.cmp k k' == .eq)

/-- The entries in the order of their keys. -/
def toList (m : SortedMap κ ν) : List (κ × ν) := m.entries

/-! ### Look-ups -/

@[simp] theorem get?_empty (k : κ) : (∅ : SortedMap κ ν).get? k = none := rfl

theorem lookup_insertEntry_self (k : κ) (v : ν) :
    ∀ l : List (κ × ν), lookup k (insertEntry k v l) = some v
  | [] => by simp [insertEntry, lookup]
  | (k', v') :: rest => by
    simp only [insertEntry]
    split
    · simp [lookup]
    · simp [lookup]
    next hgt => simp [lookup, hgt, lookup_insertEntry_self k v rest]

theorem lookup_insertEntry_of_ne {k k' : κ} (v : ν) (h : k' ≠ k) :
    ∀ l : List (κ × ν), lookup k' (insertEntry k v l) = lookup k' l
  | [] => by simp [insertEntry, lookup, h]
  | (k₀, v₀) :: rest => by
    simp only [insertEntry]
    split
    · simp [lookup, h]
    next heq =>
      cases KeyOrder.eq_of_cmp heq
      simp [lookup, h]
    · simp [lookup, lookup_insertEntry_of_ne v h rest]

@[simp] theorem get?_insert_self (m : SortedMap κ ν) (k : κ) (v : ν) :
    (m.insert k v).get? k = some v :=
  lookup_insertEntry_self k v m.entries

theorem get?_insert_of_ne (m : SortedMap κ ν) {k k' : κ} (v : ν) (h : k' ≠ k) :
    (m.insert k v).get? k' = m.get? k' :=
  lookup_insertEntry_of_ne v h m.entries

/-- A key is looked up after an insertion as before it, the inserted key apart. -/
theorem get?_insert [DecidableEq κ] (m : SortedMap κ ν) (k k' : κ) (v : ν) :
    (m.insert k v).get? k' = if k' = k then some v else m.get? k' := by
  split
  next h => rw [h, get?_insert_self]
  next h => exact get?_insert_of_ne m v h

theorem lookup_filter (p : κ → Bool) (k : κ) :
    ∀ l : List (κ × ν),
      lookup k (l.filter fun e => p e.1) = if p k then lookup k l else none
  | [] => by simp [lookup]
  | (k', v) :: rest => by
    by_cases hk : k = k'
    · cases hk
      by_cases hp : p k
      · simp [hp, lookup]
      · simp [hp, lookup_filter p k rest]
    · by_cases hp : p k'
      · simp [hp, lookup, hk, lookup_filter p k rest]
      · simp [hp, lookup, hk, lookup_filter p k rest]

/-- Only the keys that pass are still found. -/
theorem get?_filterKeys (m : SortedMap κ ν) (p : κ → Bool) (k : κ) :
    (m.filterKeys p).get? k = if p k then m.get? k else none :=
  lookup_filter p k m.entries

@[simp] theorem get?_erase_self (m : SortedMap κ ν) (k : κ) : (m.erase k).get? k = none := by
  simp [erase, get?_filterKeys, KeyOrder.cmp_self]

theorem get?_erase_of_ne (m : SortedMap κ ν) {k k' : κ} (h : k' ≠ k) :
    (m.erase k).get? k' = m.get? k' := by
  have hk : ¬ KeyOrder.cmp k k' = .eq := fun e => h (KeyOrder.eq_of_cmp e).symm
  simp [erase, get?_filterKeys, hk]

/-- A key is looked up after an erasure as before it, the erased key apart. -/
theorem get?_erase [DecidableEq κ] (m : SortedMap κ ν) (k k' : κ) :
    (m.erase k).get? k' = if k' = k then none else m.get? k' := by
  split
  next h => rw [h, get?_erase_self]
  next h => exact get?_erase_of_ne m h

/-! ### Look-ups determine the map -/

theorem lookup_eq_none_of_lt {k : κ} :
    ∀ {l : List (κ × ν)}, (∀ e ∈ l, KeyOrder.cmp k e.1 = .lt) → lookup k l = none
  | [], _ => rfl
  | (k', v) :: rest, h => by
    have hk : k ≠ k' := KeyOrder.ne_of_lt (h _ List.mem_cons_self)
    simp only [lookup, KeyOrder.cmp_eq_iff, hk, if_false]
    exact lookup_eq_none_of_lt fun e he => h e (List.mem_cons_of_mem _ he)

theorem eq_of_lookup :
    ∀ {l l' : List (κ × ν)}, l.Pairwise (fun a b => KeyOrder.cmp a.1 b.1 = .lt) →
      l'.Pairwise (fun a b => KeyOrder.cmp a.1 b.1 = .lt) →
      (∀ k, lookup k l = lookup k l') → l = l'
  | [], [], _, _, _ => rfl
  | [], (k, v) :: rest, _, _, h => by simpa [lookup] using h k
  | (k, v) :: rest, [], _, _, h => by simpa [lookup] using h k
  | (k, v) :: rest, (k', v') :: rest', hl, hl', h => by
    obtain ⟨hhead, htail⟩ := List.pairwise_cons.1 hl
    obtain ⟨hhead', htail'⟩ := List.pairwise_cons.1 hl'
    have hkk : k = k' := by
      rcases hc : KeyOrder.cmp k k' with _ | _ | _
      · have hnone : lookup k ((k', v') :: rest') = none := by
          refine lookup_eq_none_of_lt fun e he => ?_
          rcases List.mem_cons.1 he with rfl | he
          · exact hc
          · exact KeyOrder.cmp_trans hc (hhead' e he)
        have hk := h k
        rw [hnone] at hk
        simp [lookup] at hk
      · exact KeyOrder.eq_of_cmp hc
      · have hc' : KeyOrder.cmp k' k = .lt := KeyOrder.cmp_gt_iff.1 hc
        have hnone : lookup k' ((k, v) :: rest) = none := by
          refine lookup_eq_none_of_lt fun e he => ?_
          rcases List.mem_cons.1 he with rfl | he
          · exact hc'
          · exact KeyOrder.cmp_trans hc' (hhead e he)
        have hk := h k'
        rw [hnone] at hk
        simp [lookup] at hk
    cases hkk
    have hv : v = v' := by simpa [lookup] using h k
    cases hv
    have hrest : rest = rest' := by
      refine eq_of_lookup htail htail' fun k₀ => ?_
      by_cases hk : k₀ = k
      · cases hk
        rw [lookup_eq_none_of_lt hhead, lookup_eq_none_of_lt hhead']
      · simpa [lookup, hk] using h k₀
    rw [hrest]

/-- **A map is determined by its look-ups.** -/
theorem ext {m m' : SortedMap κ ν} (h : ∀ k, m.get? k = m'.get? k) : m = m' := by
  cases m with
  | mk l hl =>
    cases m' with
    | mk l' hl' =>
      have : l = l' := eq_of_lookup hl hl' h
      cases this
      rfl

theorem get?_foldl_insert :
    ∀ {l : List (κ × ν)}, l.Pairwise (fun a b => KeyOrder.cmp a.1 b.1 = .lt) →
      ∀ (m : SortedMap κ ν) (k : κ),
        (l.foldl (fun m e => m.insert e.1 e.2) m).get? k = (lookup k l).or (m.get? k)
  | [], _, m, k => rfl
  | (k', v') :: rest, h, m, k => by
    obtain ⟨hhead, htail⟩ := List.pairwise_cons.1 h
    rw [List.foldl_cons, get?_foldl_insert htail]
    by_cases hk : k = k'
    · cases hk
      simp [lookup, lookup_eq_none_of_lt hhead]
    · simp [lookup, hk, get?_insert_of_ne m v' hk]

/-- A map is rebuilt from its entries. -/
theorem foldl_insert_toList (m : SortedMap κ ν) :
    m.toList.foldl (fun m e => m.insert e.1 e.2) ∅ = m := by
  refine ext fun k => ?_
  rw [toList, get?_foldl_insert m.sorted, get?_empty, Option.or_none]
  rfl

/-- The keys of a map are listed in strictly increasing order. -/
theorem pairwise_toList (m : SortedMap κ ν) :
    m.toList.Pairwise fun a b => KeyOrder.cmp a.1 b.1 = .lt :=
  m.sorted

end SortedMap

end StudyTime

/-
**Objects as lists of their members.**

A table keeps one value for each name and forgets in which order the members stood in the text.  To say
what becomes of repeated and shuffled members, an object is read here as the plain list of its members:
none of them is lost, and the table is the map with these entries.

Main definitions:

* `SortedMap.ofList` — the map with these entries, of which the last one with a key counts;
* `Json.Translates` — two readers of members that note the same, up to a translation;
* `Json.Codec.entries` — objects as lists of their members.

Main results:

* `SortedMap.get?_ofList` — **of entries with one key the last is found**;
* `Json.Codec.Lawful.entries` — no member is lost and none changes its place;
* `Json.readTable_eq_map` — **a table is read as the map with the members of the object**;
* `Json.Codec.Lawful.table` — tables of lawful codecs.
-/

import StudyTime.Proofs.Json.Codecs

set_option relaxedAutoImplicit false
set_option autoImplicit false

namespace StudyTime

/-! ### Maps from entries in any order -/

namespace SortedMap

variable {κ ν : Type} [KeyOrder κ]

/-- The map with these entries.  Of entries with one key the last counts. -/
def ofList (es : List (κ × ν)) : SortedMap κ ν := es.foldl (fun m e => m.insert e.1 e.2) ∅

theorem ofList_toList (m : SortedMap κ ν) : ofList m.toList = m := m.foldl_insert_toList

theorem ofList_append_singleton (es : List (κ × ν)) (k : κ) (v : ν) :
    ofList (es ++ [(k, v)]) = (ofList es).insert k v := by
  rw [ofList, List.foldl_append]
  rfl

/-- **Of entries with one key the last is found.** -/
theorem get?_ofList (es : List (κ × ν)) (k : κ) : (ofList es).get? k = lookup k es.reverse := by
  -- induction from the end of the list, where the entries stand that count
  induction h : es.reverse generalizing es with
  | nil =>
      rw [List.reverse_eq_nil_iff.1 h]
      rfl
  | cons e before ih =>
      obtain ⟨k', v⟩ := e
      have hes : es = before.reverse ++ [(k', v)] := by
        rw [← List.reverse_reverse es, h, List.reverse_cons]
      rw [hes, ofList_append_singleton]
      by_cases hk : k = k'
      · simp [lookup, hk]
      · rw [get?_insert_of_ne _ _ hk, ih before.reverse (List.reverse_reverse before)]
        simp [lookup, hk]

end SortedMap

namespace Json

/-! ### Readers up to a translation -/

namespace Reader

variable {α β γ : Type}

theorem ext_run {r r' : Reader α} (h : ∀ cs, r.run cs = r'.run cs) : r = r' := by
  cases r
  cases r'
  congr 1
  funext cs
  exact h cs

theorem run_map (f : α → β) (r : Reader α) (cs : List Char) :
    (r.map f).run cs = (r.run cs).map fun read => (f read.1, read.2) := by
  cases hrun : r.run cs with
  | error e =>
      rw [run_map_error hrun]
      rfl
  | ok read =>
      rw [run_map_ok hrun]
      rfl

theorem map_map (f : α → β) (g : β → γ) (r : Reader α) :
    (r.map f).map g = r.map fun a => g (f a) := by
  refine ext_run fun cs => ?_
  rw [run_map, run_map, run_map]
  cases r.run cs <;> rfl

end Reader

/-- A text is parsed as the translation of what the other codec parses. -/
theorem Codec.parse_of_reader_eq_map {α β : Type} {c : Codec α} {c' : Codec β} {f : β → α}
    (h : c.reader = c'.reader.map f) (text : String) :
    c.parse text = (c'.parse text).map f := by
  rw [Codec.parse, Codec.parse, h, Reader.run_map]
  cases c'.reader.run text.toList with
  | error e => rfl
  | ok read =>
      simp only [Except.map]
      cases skipBlank read.2 <;> rfl

section Translation

variable {σ τ : Type}

/-- What the second reader of members notes is what the first one notes, translated. -/
def Translates (g : σ → τ) (field : σ → String → Except ReadError (Reader σ))
    (field' : τ → String → Except ReadError (Reader τ)) : Prop :=
  ∀ acc name, field' (g acc) name = (field acc name).map (Reader.map g)

variable {g : σ → τ} {field : σ → String → Except ReadError (Reader σ)}
  {field' : τ → String → Except ReadError (Reader τ)}

namespace Translates

theorem memberValue (h : Translates g field field') (acc : σ) (cs : List Char) :
    Json.memberValue field' (g acc) cs =
      (Json.memberValue field acc cs).map fun read => (g read.1, read.2) := by
  unfold Json.memberValue
  cases textBody cs with
  | error e => rfl
  | ok read =>
      simp only [h acc (String.ofList read.1)]
      cases field acc (String.ofList read.1) with
      | error e => rfl
      | ok value =>
          simp only [Except.map]
          cases colon read.2 with
          | error e => rfl
          | ok rest => exact Reader.run_map g value rest

/-- The members of an object are noted alike, up to the translation. -/
theorem members (h : Translates g field field') (acc : σ) (cs : List Char) :
    Json.members field' (g acc) cs =
      (Json.members field acc cs).map fun read => (g read.1, read.2) := by
  have hvalue := h.memberValue acc cs
  cases hread : Json.memberValue field acc cs with
  | error e =>
      rw [hread] at hvalue
      rw [members_of_error hvalue, members_of_error hread]
      rfl
  | ok read =>
      obtain ⟨acc', after⟩ := read
      have hafterName := length_lt_of_memberValue hread
      rw [hread] at hvalue
      rw [members_of_memberValue hvalue, members_of_memberValue hread]
      cases hafter : skipBlank after with
      | nil => rfl
      | cons c rest =>
          have hrestLength := length_lt_of_skipBlank hafter
          simp only
          split
          · rfl
          split
          · cases hrest : skipBlank rest with
            | nil => rfl
            | cons c' rest' =>
                have hnextLength := length_lt_of_skipBlank hrest
                simp only
                split
                · -- behind a comma and a quote stands the next member
                  exact h.members acc' rest'
                · rfl
          · rfl
termination_by cs.length

theorem objectBody (h : Translates g field field') (acc : σ) (cs : List Char) :
    Json.objectBody field' (g acc) cs =
      (Json.objectBody field acc cs).map fun read => (g read.1, read.2) := by
  unfold Json.objectBody
  cases skipBlank cs with
  | nil => rfl
  | cons c rest =>
      simp only
      split
      · rfl
      split
      · exact h.members acc rest
      · rfl

end Translates

end Translation

/-! ### Lists of members -/

section Entries

variable {α : Type}

/-- Notes a member behind those that stand before it. -/
def entry (r : Reader α) (es : List (String × α)) (name : String) :
    Except ReadError (Reader (List (String × α))) :=
  .ok (r.map fun a => es ++ [(name, a)])

/-- The members of the object at the front of what is ahead, in the order of the text. -/
def entriesValue (r : Reader α) (cs : List Char) :
    Except ReadError (List (String × α) × List Char) :=
  match skipBlank cs with
  | [] => .error .ended
  | c :: rest =>
    if c = braceOpen then objectBody (entry r) [] rest else .error (wrongType (c :: rest))

theorem length_le_of_entriesValue {r : Reader α} {cs rest : List Char} {es : List (String × α)}
    (h : entriesValue r cs = .ok (es, rest)) : rest.length ≤ cs.length := by
  unfold entriesValue at h
  split at h
  · cases h
  next h₀ =>
    have := length_lt_of_skipBlank h₀
    split at h
    · have := length_le_of_objectBody h
      omega
    · cases h

/-- Reads an object as the list of its members. -/
def readEntries (r : Reader α) : Reader (List (String × α)) :=
  ⟨entriesValue r, length_le_of_entriesValue⟩

/-- Objects as lists of their members: in any order, and of each name as many as there are. -/
def Codec.entries (c : Codec α) : Codec (List (String × α)) where
  tree es := .object (es.map fun e => (e.1, c.tree e.2))
  reader := readEntries c.reader

theorem Codec.Lawful.takes_entry {c : Codec α} (h : c.Lawful) (es : List (String × α)) :
    ∀ before : List (String × α),
      Takes (entry c.reader) before (es.map fun e => (e.1, c.tree e.2)) (before ++ es) := by
  induction es with
  | nil =>
      intro before
      rw [List.append_nil]
      exact .nil before
  | cons e es ih =>
      obtain ⟨name, a⟩ := e
      intro before
      have hrest := ih (before ++ [(name, a)])
      rw [List.append_assoc, List.singleton_append] at hrest
      exact .cons rfl ((h a).map fun a => before ++ [(name, a)]) hrest

/-- **No member is lost and none changes its place.** -/
theorem Codec.Lawful.entries {c : Codec α} (h : c.Lawful) : c.entries.Lawful := by
  intro es l hl depth blank rest hblank hrest
  obtain ⟨body, hbody, hobject⟩ := (h.takes_entry es []).objectBody_write hl depth rest
  change entriesValue c.reader (blank ++ (Tree.write l depth (.object _) ++ rest)) = _
  rw [hbody, entriesValue, hblank.skip_append _ (by decide)]
  simp [hobject]

theorem translates_entry (r : Reader α) :
    Translates SortedMap.ofList (entry r)
      fun m name => .ok (r.map fun a => SortedMap.insert m name a) := by
  intro es name
  simp only [entry, Except.map, Reader.map_map, SortedMap.ofList_append_singleton]

/-- **A table is read as the map with the members of the object.** -/
theorem readTable_eq_map (r : Reader α) : readTable r = (readEntries r).map SortedMap.ofList := by
  refine Reader.ext_run fun cs => ?_
  rw [Reader.run_map]
  change tableValue r cs = (entriesValue r cs).map _
  unfold tableValue entriesValue
  cases skipBlank cs with
  | nil => rfl
  | cons c rest =>
      simp only
      split
      · exact (translates_entry r).objectBody [] rest
      · rfl

/-- **A codec for tables is lawful** if the one for their values is. -/
theorem Codec.Lawful.table {c : Codec α} (h : c.Lawful) : (Codec.table c).Lawful := by
  intro m
  -- the entries are written in the order of their keys, and putting them in again gives the table
  have hentries := (h.entries m.toList).map SortedMap.ofList
  rw [SortedMap.ofList_toList] at hentries
  change Finds (readTable c.reader) (c.entries.tree m.toList) m
  rw [readTable_eq_map]
  exact hentries

end Entries

end Json

end StudyTime

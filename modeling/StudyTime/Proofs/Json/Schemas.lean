/-
**Written records are read back.**

The written form of a record is an object with one member for each field, in the order of the
fields.  When the reader comes to a member, its field is not noted yet, since no field stands twice
in that order; at the end every field is noted, so no default is used and no field is missing.

The fields of a record can also be read in another way and their values translated afterwards, as a
table is read from the list of its members.  Such a draft of a record has the same fields under the same
names, and the record is read as the one that its draft stands for.

Main definitions:

* `Json.Schema.Draft` — another way to read the fields of a record.

Main results:

* `Json.Schema.takes_memberTrees` — the members of a written record are welcome one after the other;
* `Json.Schema.lawful_codecOf` — **the codec of a record type is lawful** if those of its fields are;
* `Json.Schema.Draft.reader_eq_map` — **a record is read as the one that its draft stands for**.
-/

import StudyTime.Json.Schema
import StudyTime.Proofs.Json.Members

set_option relaxedAutoImplicit false
set_option autoImplicit false

namespace StudyTime.Json.Schema

variable {α : Type} (s : Schema α)

/-! ### Slots -/

@[simp] theorem put_self (slots : s.Slots) (f : s.Field) (v : s.Value f) :
    s.put slots f v f = some v := by
  simp [put]

theorem put_of_ne (slots : s.Slots) {f g : s.Field} (v : s.Value f) (h : f ≠ g) :
    s.put slots f v g = slots g := by
  simp [put, h]

/-- A field is found under its name. -/
theorem fieldNamed_name (f : s.Field) : s.fieldNamed (s.name f) = some f :=
  find?_name s.name_injective (s.mem_order f)

/-- A member of an unknown name is passed over. -/
theorem member_of_unknown {slots : s.Slots} {name : String} (h : s.fieldNamed name = none) :
    s.member slots name = .ok (skipValue.map fun _ => slots) := by
  rw [member, h]

/-- A member is refused if its field is noted. -/
theorem member_of_noted {slots : s.Slots} {name : String} {f : s.Field}
    (h : s.fieldNamed name = some f) (hslot : (slots f).isSome) :
    s.member slots name = .error .mismatch := by
  rw [member, h]
  exact if_pos hslot

/-- A member is welcome as long as its field is not noted. -/
theorem member_of_open {slots : s.Slots} {name : String} {f : s.Field}
    (h : s.fieldNamed name = some f) (hslot : slots f = none) :
    s.member slots name = .ok ((s.codec f).reader.map fun v => s.put slots f v) := by
  rw [member, h]
  exact if_neg (by simp [hslot])

/-- Where every field has a value or a default, the record is made of them. -/
theorem build?_of_values {slots : s.Slots} {a : α}
    (h : ∀ f, s.valueOrDefault slots f = some (s.get a f)) : s.build? slots = some a := by
  have hall : ∀ f ∈ s.order, (s.valueOrDefault slots f).isSome := by
    intro f _
    simp [h f]
  rw [build?, dif_pos hall]
  simp only [h, Option.get_some, s.make_get]

/-- A field without a value and without a default is missed. -/
theorem build?_of_none {slots : s.Slots} {f : s.Field} (h : s.valueOrDefault slots f = none) :
    s.build? slots = none := by
  refine dif_neg fun hall => ?_
  have hsome := hall f (s.mem_order f)
  simp [h] at hsome

/-- Once every field is noted, the record is made of what was noted. -/
theorem build?_of_all {slots : s.Slots} {a : α} (h : ∀ f, slots f = some (s.get a f)) :
    s.build? slots = some a := by
  refine s.build?_of_values fun f => ?_
  rw [valueOrDefault, h f, Option.some_or]

/-! ### Reading back -/

/-- The values of these fields of a record, noted one after the other. -/
def putAll (a : α) (fs : List s.Field) (slots : s.Slots) : s.Slots :=
  fs.foldl (fun slots f => s.put slots f (s.get a f)) slots

theorem putAll_of_not_mem (a : α) {f : s.Field} (fs : List s.Field) :
    ∀ slots : s.Slots, f ∉ fs → s.putAll a fs slots f = slots f := by
  induction fs with
  | nil =>
      intro slots _
      rfl
  | cons g fs ih =>
      intro slots h
      rw [List.mem_cons, not_or] at h
      rw [putAll, List.foldl_cons, ← putAll, ih _ h.2, s.put_of_ne _ _ (Ne.symm h.1)]

theorem putAll_of_mem (a : α) {f : s.Field} {fs : List s.Field} (hnodup : fs.Nodup) :
    ∀ slots : s.Slots, f ∈ fs → s.putAll a fs slots f = some (s.get a f) := by
  induction fs with
  | nil =>
      intro slots h
      cases h
  | cons g fs ih =>
      intro slots h
      obtain ⟨hg, hfs⟩ := List.nodup_cons.1 hnodup
      rw [putAll, List.foldl_cons, ← putAll]
      rcases List.mem_cons.1 h with rfl | h
      · -- no field that follows has the same name, so the value stays
        rw [s.putAll_of_not_mem a fs _ hg, put_self]
      · exact ih hfs _ h

/-- The members of a written record are welcome one after the other. -/
theorem takes_memberTrees (hs : ∀ f, (s.codec f).Lawful) (a : α) {fs : List s.Field}
    (hnodup : fs.Nodup) :
    ∀ slots : s.Slots, (∀ f ∈ fs, slots f = none) →
      Takes s.member slots (fs.map fun f => (s.name f, (s.codec f).tree (s.get a f)))
        (s.putAll a fs slots) := by
  induction fs with
  | nil =>
      intro slots _
      exact .nil slots
  | cons f fs ih =>
      intro slots hnone
      obtain ⟨hf, hfs⟩ := List.nodup_cons.1 hnodup
      refine .cons (s.member_of_open (s.fieldNamed_name f) (hnone f List.mem_cons_self))
        ((hs f (s.get a f)).map fun v => s.put slots f v) (ih hfs _ ?_)
      intro g hg
      have hne : f ≠ g := by
        rintro rfl
        exact hf hg
      rw [s.put_of_ne _ _ hne]
      exact hnone g (List.mem_cons_of_mem _ hg)

/-- **The codec of a record type is lawful** if those of its fields are. -/
theorem lawful_codecOf (hs : ∀ f, (s.codec f).Lawful) : s.codecOf.Lawful := by
  intro a l hl depth blank rest hblank hrest
  have htakes := s.takes_memberTrees hs a s.nodup_order s.noSlots fun _ _ => rfl
  have hbuild : s.build? (s.putAll a s.order s.noSlots) = some a :=
    s.build?_of_all fun f => s.putAll_of_mem a s.nodup_order _ (s.mem_order f)
  obtain ⟨body, hbody, hobject⟩ := htakes.objectBody_write hl depth rest
  have hne : braceOpen ≠ '[' := by decide
  change s.recordValue (blank ++ (Tree.write l depth (.object _) ++ rest)) = _
  rw [memberTrees, hbody, recordValue, hblank.skip_append _ (by decide)]
  simp [hne, hobject, hbuild]

/-! ### Drafts -/

/-- Another way to read the fields of a record: their values are translated into those of the
record afterwards. -/
structure Draft (β : Type) where
  Value : s.Field → Type
  codec : ∀ f, Codec (Value f)
  default : ∀ f, Option (Value f)
  get : β → ∀ f, Value f
  make : (∀ f, Value f) → β
  make_get : ∀ b, make (get b) = b
  get_make : ∀ v, get (make v) = v
  translate : ∀ f, Value f → s.Value f
  /-- The value of a field is read as the translation of the one that the draft reads. -/
  reader_eq : ∀ f, (s.codec f).reader = (codec f).reader.map (translate f)
  /-- A field that is left out has the translation of the value that the draft gives it. -/
  default_eq : ∀ f, s.default f = (default f).map (translate f)

namespace Draft

variable {s} {β : Type} (d : s.Draft β)

/-- The fields of the record under their names, with the values of the draft. -/
@[reducible] def schema : Schema β where
  Field := s.Field
  order := s.order
  mem_order := s.mem_order
  nodup_order := s.nodup_order
  Value := d.Value
  name := s.name
  name_injective := s.name_injective
  codec := d.codec
  default := d.default
  get := d.get
  make := d.make
  make_get := d.make_get
  get_make := d.get_make

/-- The record that a draft stands for. -/
def final (b : β) : α := s.make fun f => d.translate f (d.get b f)

/-- What was read so far, each value translated. -/
def slots (slots : d.schema.Slots) : s.Slots := fun f => (slots f).map (d.translate f)

theorem slots_put (slots : d.schema.Slots) (f : s.Field) (v : d.Value f) :
    d.slots (d.schema.put slots f v) = s.put (d.slots slots) f (d.translate f v) := by
  funext f'
  by_cases h : f = f'
  · cases h
    simp [Draft.slots, put]
  · simp [Draft.slots, put, h]

theorem translates_member : Translates d.slots d.schema.member s.member := by
  intro slots name
  cases hname : s.fieldNamed name with
  | none =>
      rw [s.member_of_unknown hname, d.schema.member_of_unknown hname]
      simp only [Except.map, Reader.map_map]
  | some f =>
      cases hslot : slots f with
      | some v =>
          rw [s.member_of_noted hname (by simp [Draft.slots, hslot]),
            d.schema.member_of_noted hname (by simp [hslot])]
          rfl
      | none =>
          rw [s.member_of_open hname (by simp [Draft.slots, hslot]),
            d.schema.member_of_open hname hslot]
          simp only [Except.map, Reader.map_map, d.reader_eq, d.slots_put]

theorem elements_eq (fs : List s.Field) :
    ∀ (first : Bool) (slots : d.schema.Slots) (cs : List Char),
      s.elements fs first (d.slots slots) cs =
        (d.schema.elements fs first slots cs).map fun read => (d.slots read.1, read.2) := by
  induction fs with
  | nil =>
      intro first slots cs
      rfl
  | cons f fs ih =>
      intro first slots cs
      rw [elements, elements]
      cases nextItem first cs with
      | error e => rfl
      | ok next =>
          cases next with
          | none => rfl
          | some rest =>
              simp only [d.reader_eq, Reader.run_map]
              cases (d.codec f).reader.run rest with
              | error e => rfl
              | ok read =>
                  simp only [Except.map, ← d.slots_put]
                  exact ih false (d.schema.put slots f read.1) read.2

theorem valueOrDefault_eq (slots : d.schema.Slots) (f : s.Field) :
    s.valueOrDefault (d.slots slots) f = (d.schema.valueOrDefault slots f).map (d.translate f) := by
  unfold valueOrDefault
  rw [d.default_eq, Draft.slots]
  cases slots f <;> simp

theorem build?_eq (slots : d.schema.Slots) :
    s.build? (d.slots slots) = (d.schema.build? slots).map d.final := by
  -- a value is missing in both or in neither
  have hsome : ∀ f, (s.valueOrDefault (d.slots slots) f).isSome =
      (d.schema.valueOrDefault slots f).isSome := by
    intro f
    rw [d.valueOrDefault_eq, Option.isSome_map]
  by_cases hall : ∀ f ∈ s.order, (d.schema.valueOrDefault slots f).isSome
  · have hall' : ∀ f ∈ s.order, (s.valueOrDefault (d.slots slots) f).isSome := by
      intro f hf
      rw [hsome]
      exact hall f hf
    rw [build?, build?, dif_pos hall, dif_pos hall', Option.map_some]
    simp only [d.valueOrDefault_eq, Option.get_map, final, d.get_make]
  · have hall' : ¬ ∀ f ∈ s.order, (s.valueOrDefault (d.slots slots) f).isSome := by
      intro h
      refine hall fun f hf => ?_
      rw [← hsome]
      exact h f hf
    rw [build?, build?, dif_neg hall, dif_neg hall']
    rfl

/-- **A record is read as the one that its draft stands for.** -/
theorem reader_eq_map : s.reader = d.schema.reader.map d.final := by
  refine Reader.ext_run fun cs => ?_
  rw [Reader.run_map]
  change s.recordValue cs = (d.schema.recordValue cs).map _
  have hnone : s.noSlots = d.slots d.schema.noSlots := rfl
  unfold recordValue
  cases skipBlank cs with
  | nil => rfl
  | cons c rest =>
      simp only
      split
      · rw [hnone, d.elements_eq]
        cases d.schema.elements s.order true d.schema.noSlots rest with
        | error e => rfl
        | ok read =>
            simp only [Except.map, d.build?_eq]
            cases d.schema.build? read.1 with
            | none => rfl
            | some b =>
                simp only [Option.map_some]
                cases closeList read.2 <;> rfl
      split
      · rw [hnone, d.translates_member.objectBody]
        cases Json.objectBody d.schema.member d.schema.noSlots rest with
        | error e => rfl
        | ok read =>
            simp only [Except.map, d.build?_eq]
            cases d.schema.build? read.1 <;> rfl
      · rfl

end Draft

end StudyTime.Json.Schema

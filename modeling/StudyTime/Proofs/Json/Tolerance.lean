/-
**Records are read from any selection and order of their fields.**

The members of an object give values to some fields of a record; members of other names are passed
over.  Whatever the order, the record has the values given and defaults elsewhere.  It is refused if a
field without a default is not given, or if one is given twice.  A list gives values to the first
fields, and the outcome is that of an object that gives the same ones.

Main definitions:

* `Json.Schema.Given`, `Json.Schema.Gives` — a field with a value, and the values that members give;
* `Json.Schema.ObjectFor`, `Json.Schema.ListFor` — the texts that give values to fields;
* `Json.Schema.Completes` — **the record with these values and with defaults elsewhere**;
* `Json.Schema.spelling` — the texts of a record that may leave fields out;
* `Json.Schema.Tolerates` — what is read from the texts that give values to fields.

Main results:

* `Json.Schema.yields_object`, `Json.Schema.yields_list` — an object and a list that give values to the
  same fields are read alike;
* `Json.Schema.knownTo_spelling` — a record is read in any spelling;
* `Json.Schema.tolerates` — **records are read from any selection and order of their fields**.
-/

import StudyTime.Proofs.Json.Objects
import StudyTime.Proofs.Json.Schemas

set_option relaxedAutoImplicit false
set_option autoImplicit false

namespace StudyTime.Json.Schema

variable {α : Type} (s : Schema α)

/-! ### Texts that give values to fields -/

/-- A field with a value. -/
structure Given where
  field : s.Field
  value : s.Value field

variable {s}

/-- The fields that are given a value, in order. -/
abbrev fields (gs : List s.Given) : List s.Field := gs.map Given.field

/-- The texts of members give these values to fields.  Members of other names have any value. -/
inductive Gives (sp : ∀ f, Spelling (s.Value f)) : List (String × List Char) → List s.Given → Prop
  | nil : Gives sp [] []
  | field {f : s.Field} {cs : List Char} {v : s.Value f} {ms : List (String × List Char)}
      {gs : List s.Given} : sp f cs v → Gives sp ms gs → Gives sp ((s.name f, cs) :: ms) (⟨f, v⟩ :: gs)
  | unknown {name : String} {cs : List Char} {ms : List (String × List Char)} {gs : List s.Given} :
      (∀ f, s.name f ≠ name) → Grammatical cs → Gives sp ms gs → Gives sp ((name, cs) :: ms) gs

variable (s) in
/-- A single member gives a single value. -/
theorem gives_single {sp : ∀ f, Spelling (s.Value f)} (f : s.Field) {cs : List Char} {v : s.Value f}
    (h : sp f cs v) : Gives sp [(s.name f, cs)] [⟨f, v⟩] :=
  .field h .nil

theorem nodup_fields_single (g : s.Given) : (fields [g]).Nodup :=
  List.nodup_cons.2 ⟨List.not_mem_nil, List.nodup_nil⟩

variable (s) in
/-- An object whose members give these values to fields. -/
def ObjectFor (sp : ∀ f, Spelling (s.Value f)) (cs : List Char) (gs : List s.Given) : Prop :=
  ∃ ms, NamedObject cs ms ∧ Gives sp ms gs

variable (s) in
/-- A list of the values of the first fields of a record. -/
def ListFor (sp : ∀ f, Spelling (s.Value f)) (cs : List Char) (gs : List s.Given) : Prop :=
  ListText (fun item g => sp g.field item g.value) cs gs ∧ fields gs <+: s.order

/-- The record has these values, and defaults in all other fields. -/
structure Completes (gs : List s.Given) (a : α) : Prop where
  given : ∀ g ∈ gs, s.get a g.field = g.value
  default : ∀ f, f ∉ fields gs → s.default f = some (s.get a f)

variable (s) in
/-- The texts of a record that may leave fields out where there are defaults. -/
inductive spelling (sp : ∀ f, Spelling (s.Value f)) : Spelling α
  | object {cs : List Char} {gs : List s.Given} {a : α} : s.ObjectFor sp cs gs → (fields gs).Nodup →
      Completes gs a → spelling sp cs a
  | list {cs : List Char} {gs : List s.Given} {a : α} : s.ListFor sp cs gs → Completes gs a →
      spelling sp cs a

/-! ### Notes -/

/-- The values that are noted after these were noted. -/
structure Noted (slots : s.Slots) (gs : List s.Given) (slots' : s.Slots) : Prop where
  given : ∀ g ∈ gs, slots' g.field = some g.value
  other : ∀ f, f ∉ fields gs → slots' f = slots f

theorem Noted.nil (slots : s.Slots) : Noted slots [] slots :=
  ⟨fun _ h => absurd h List.not_mem_nil, fun _ _ => rfl⟩

theorem Noted.cons {slots slots' : s.Slots} {f : s.Field} {v : s.Value f} {gs : List s.Given}
    (hf : f ∉ fields gs) (h : Noted (s.put slots f v) gs slots') :
    Noted slots (⟨f, v⟩ :: gs) slots' := by
  constructor
  · intro g hg
    rcases List.mem_cons.1 hg with rfl | hg
    · -- no value that follows is one of the same field
      rw [h.other f hf, put_self]
    · exact h.given g hg
  · intro g hg
    obtain ⟨hne, hg⟩ := not_or.1 (mt List.mem_cons.2 hg)
    rw [h.other g hg, s.put_of_ne _ _ (Ne.symm hne)]

theorem fieldNamed_of_unknown {name : String} (h : ∀ f, s.name f ≠ name) :
    s.fieldNamed name = none := by
  refine List.find?_eq_none.2 fun f _ => ?_
  simpa using h f

/-- None of these fields is noted, and none comes twice. -/
def Fresh (slots : s.Slots) (gs : List s.Given) : Prop :=
  (fields gs).Nodup ∧ ∀ f ∈ fields gs, slots f = none

theorem Fresh.tail {slots : s.Slots} {f : s.Field} {v : s.Value f} {gs : List s.Given}
    (h : Fresh slots (⟨f, v⟩ :: gs)) : Fresh (s.put slots f v) gs := by
  obtain ⟨hnot, hnodup⟩ := List.nodup_cons.1 h.1
  refine ⟨hnodup, fun g hg => ?_⟩
  have hne : f ≠ g := by
    rintro rfl
    exact hnot hg
  rw [s.put_of_ne _ _ hne]
  exact h.2 g (List.mem_cons_of_mem _ hg)

/-! ### Members -/

section Members

variable {sp : ∀ f, Spelling (s.Value f)} (h : ∀ f, (sp f).KnownTo (s.codec f).reader)
  {ms : List (String × List Char)} {gs : List s.Given}

include h

/-- As long as no field comes twice, every value is noted. -/
theorem Gives.notes_ok (hgives : Gives sp ms gs) :
    ∀ {slots : s.Slots}, Fresh slots gs →
      ∃ slots', Notes s.member slots ms (.ok slots') ∧ Noted slots gs slots' := by
  induction hgives with
  | nil =>
      intro slots _
      exact ⟨slots, .nil slots, .nil slots⟩
  | @field f _ v _ _ hv _ ih =>
      intro slots hfresh
      have hf : slots f = none := hfresh.2 f List.mem_cons_self
      obtain ⟨slots', hnotes, hnoted⟩ := ih hfresh.tail
      exact ⟨slots', .takes (s.member_of_open (s.fieldNamed_name f) hf)
        (((h f).reads hv).map fun v => s.put slots f v) hnotes,
        hnoted.cons (List.nodup_cons.1 hfresh.1).1⟩
  | @unknown name _ _ _ hname hcs _ ih =>
      intro slots hfresh
      obtain ⟨slots', hnotes, hnoted⟩ := ih hfresh
      exact ⟨slots', .takes (s.member_of_unknown (fieldNamed_of_unknown hname))
        (hcs.yields.map fun _ => slots) hnotes, hnoted⟩

/-- A field that was noted, or that one of these members gives, is refused behind them. -/
theorem Gives.notes_error (hgives : Gives sp ms gs) {f : s.Field} (cs : List Char)
    (ms' : List (String × List Char)) :
    ∀ {slots : s.Slots}, f ∈ fields gs ∨ (slots f).isSome →
      Notes s.member slots (ms ++ (s.name f, cs) :: ms') (.error .mismatch) := by
  induction hgives with
  | nil =>
      intro slots hf
      exact .refuses (s.member_of_noted (s.fieldNamed_name f) (hf.resolve_left List.not_mem_nil))
  | @field g _ v _ gs hv _ ih =>
      intro slots hf
      cases hg : slots g with
      | some w => exact .refuses (s.member_of_noted (s.fieldNamed_name g) (by simp [hg]))
      | none =>
          refine .takes (s.member_of_open (s.fieldNamed_name g) hg)
            (((h g).reads hv).map fun v => s.put slots g v) (ih ?_)
          -- the member that was just noted may be the one of the same field
          by_cases hfg : g = f
          · subst hfg
            exact .inr (by simp)
          · rw [s.put_of_ne _ _ hfg]
            exact hf.imp_left fun hmem => (List.mem_cons.1 hmem).resolve_left (Ne.symm hfg)
  | @unknown name _ _ _ hname hcs _ ih =>
      intro slots hf
      exact .takes (s.member_of_unknown (fieldNamed_of_unknown hname))
        (hcs.yields.map fun _ => slots) (ih hf)

end Members

/-! ### Elements -/

/-- Behind the last element there is none, whatever fields are left. -/
theorem elements_of_close {back : List Char} (hback : Blank back) (rest : List Char)
    (fs : List s.Field) (first : Bool) (slots : s.Slots) :
    s.elements fs first slots (back ++ ']' :: rest) = .ok (slots, back ++ ']' :: rest) := by
  cases fs with
  | nil => rfl
  | cons f fs =>
      rw [elements, nextItem, hback.skip_append _ (by decide)]
      rfl

/-- A comma leads to the element behind it as the bracket does to the first one. -/
theorem nextItem_comma {back cs : List Char} (hback : Blank back) (hcs : Opens (skipBlank cs)) :
    nextItem false (back ++ ',' :: cs) = nextItem true cs := by
  obtain ⟨c, tail, hhead, -, hc⟩ := hcs
  rw [nextItem, nextItem, hback.skip_append _ (by decide), hhead]
  simp [hhead, hc]

theorem nextItem_first {front cs rest : List Char} (hfront : Blank front) (hcs : Opens cs) :
    nextItem true (front ++ (cs ++ rest)) = .ok (some (cs ++ rest)) := by
  obtain ⟨c, tail, rfl, hblank, hc⟩ := hcs
  rw [List.cons_append, nextItem, hfront.skip_append _ hblank]
  simp [hc]

section Elements

variable {sp : ∀ f, Spelling (s.Value f)} (h : ∀ f, (sp f).KnownTo (s.codec f).reader)

include h

/-- The elements of a list are noted as the values of the first fields. -/
theorem elements_row {cs : List Char} {gs : List s.Given}
    (hrow : Row (fun item g => sp g.field item g.value) cs gs) :
    ∀ {fs : List s.Field} {slots : s.Slots}, fields gs <+: fs → (fields gs).Nodup →
      ∃ slots', Noted slots gs slots' ∧ ∀ {first : Bool} {text : List Char} (rest : List Char),
        nextItem first text = nextItem true (cs ++ ']' :: rest) →
        ∃ back, Blank back ∧ s.elements fs first slots text = .ok (slots', back ++ ']' :: rest) := by
  induction hrow with
  | @one front cs back g hfront hg hback =>
      rintro _ slots ⟨fs, rfl⟩ _
      refine ⟨_, .cons List.not_mem_nil (.nil _), fun {first text} rest htext => ⟨back, hback, ?_⟩⟩
      have hrun := (h _).reads hg blank_nil (hback.delimits_append (c := ']') rest (by decide))
      rw [List.append_assoc, List.append_assoc, nextItem_first hfront ((h _).opens hg)] at htext
      rw [List.nil_append] at hrun
      simp only [List.map_cons, List.map_nil, List.cons_append, List.nil_append, elements, htext, hrun,
        Except.map]
      exact elements_of_close hback rest fs false _
  | @cons front cs back rest' g gs hfront hg hback hrow ih =>
      rintro _ slots ⟨fs, rfl⟩ hnodup
      obtain ⟨hnot, hnodup⟩ := List.nodup_cons.1 hnodup
      obtain ⟨slots', hnoted, helements⟩ := ih (List.prefix_append (fields gs) fs) hnodup
      refine ⟨slots', hnoted.cons hnot, fun {first text} rest htext => ?_⟩
      have hopens := hrow.opens (fun hg _ => (h _).opens hg) (']' :: rest)
      have hrun := (h _).reads hg blank_nil
        (hback.delimits_append (c := ',') (rest' ++ ']' :: rest) (by decide))
      simp only [List.append_assoc, List.cons_append] at htext
      rw [nextItem_first hfront ((h _).opens hg)] at htext
      rw [List.nil_append] at hrun
      simp only [List.map_cons, List.cons_append, elements, htext, hrun, Except.map]
      exact helements rest (nextItem_comma hback hopens)

/-- **A list of the values of the first fields is noted to its end.** -/
theorem elements_list {cs : List Char} {gs : List s.Given} (hlist : s.ListFor sp cs gs) :
    ∃ slots body, Noted s.noSlots gs slots ∧ cs = '[' :: body ∧ ∀ rest, ∃ back, Blank back ∧
      s.elements s.order true s.noSlots (body ++ rest) = .ok (slots, back ++ ']' :: rest) := by
  obtain ⟨hcs, hleading⟩ := hlist
  cases hcs with
  | none hblank =>
      refine ⟨_, _, .nil _, rfl, fun rest => ⟨_, hblank, ?_⟩⟩
      rw [List.append_assoc]
      exact elements_of_close hblank rest s.order true s.noSlots
  | row hrow =>
      obtain ⟨slots, hnoted, helements⟩ :=
        elements_row h hrow hleading (hleading.sublist.nodup s.nodup_order)
      refine ⟨slots, _, hnoted, rfl, fun rest => helements rest ?_⟩
      rw [List.append_assoc, List.singleton_append]

end Elements

/-! ### Outcomes -/

variable (s) in
/-- The record made of what was noted, unless a value is missing. -/
def settle (slots : s.Slots) : Except ReadError α :=
  match s.build? slots with
  | none => .error .mismatch
  | some a => .ok a

namespace Noted

variable {slots : s.Slots} {gs : List s.Given} (h : Noted s.noSlots gs slots)

include h

theorem valueOrDefault_of_mem {g : s.Given} (hg : g ∈ gs) :
    s.valueOrDefault slots g.field = some g.value := by
  rw [valueOrDefault, h.given g hg, Option.some_or]

theorem valueOrDefault_of_not_mem {f : s.Field} (hf : f ∉ fields gs) :
    s.valueOrDefault slots f = s.default f := by
  rw [valueOrDefault, h.other f hf, noSlots, Option.none_or]

theorem settle_eq_ok {a : α} (ha : Completes gs a) : s.settle slots = .ok a := by
  have hbuild : s.build? slots = some a := by
    refine s.build?_of_values fun f => ?_
    by_cases hf : f ∈ fields gs
    · obtain ⟨g, hg, rfl⟩ := List.mem_map.1 hf
      rw [h.valueOrDefault_of_mem hg, ha.given g hg]
    · rw [h.valueOrDefault_of_not_mem hf, ha.default f hf]
  rw [settle, hbuild]

theorem settle_eq_error {f : s.Field} (hf : f ∉ fields gs) (hnone : s.default f = none) :
    s.settle slots = .error .mismatch := by
  have hbuild : s.build? slots = none := by
    refine s.build?_of_none (f := f) ?_
    rw [h.valueOrDefault_of_not_mem hf, hnone]
  rw [settle, hbuild]

/-- Where every field that is not given has a default, there is a record with these values. -/
theorem exists_completes (hdefault : ∀ f, f ∉ fields gs → (s.default f).isSome) :
    ∃ a, Completes gs a := by
  have hsome : ∀ f, (s.valueOrDefault slots f).isSome := by
    intro f
    by_cases hf : f ∈ fields gs
    · obtain ⟨g, hg, rfl⟩ := List.mem_map.1 hf
      rw [h.valueOrDefault_of_mem hg]
      rfl
    · rw [h.valueOrDefault_of_not_mem hf]
      exact hdefault f hf
  refine ⟨s.make fun f => (s.valueOrDefault slots f).get (hsome f), ⟨fun g hg => ?_, fun f hf => ?_⟩⟩
  · simp only [s.get_make, h.valueOrDefault_of_mem hg, Option.get_some]
  · rw [s.get_make, Option.some_get, h.valueOrDefault_of_not_mem hf]

end Noted

/-! ### Records -/

theorem yields_of_notes {cs : List Char} {ms : List (String × List Char)} (hobject : NamedObject cs ms)
    {out : Except ReadError s.Slots} (hnotes : Notes s.member s.noSlots ms out) :
    Yields s.reader cs (out.bind s.settle) := by
  obtain ⟨body, rfl, hbody⟩ := hnotes.objectBody_append hobject
  have hne : braceOpen ≠ '[' := by decide
  intro blank rest hblank _
  change s.recordValue _ = _
  rw [List.cons_append, recordValue, hblank.skip_append _ (by decide)]
  simp only [if_neg hne, if_true, hbody]
  cases out with
  | error e => rfl
  | ok slots =>
      simp only [Except.map, Except.bind, settle]
      cases s.build? slots <;> rfl

section Records

variable {sp : ∀ f, Spelling (s.Value f)} (h : ∀ f, (sp f).KnownTo (s.codec f).reader)
  {cs : List Char} {gs : List s.Given}

include h

/-- **An object is read as the record that its members make**, whatever their order. -/
theorem yields_object (hobject : s.ObjectFor sp cs gs) (hnodup : (fields gs).Nodup) :
    ∃ slots, Noted s.noSlots gs slots ∧ Yields s.reader cs (s.settle slots) := by
  obtain ⟨ms, hms, hgives⟩ := hobject
  obtain ⟨slots, hnotes, hnoted⟩ := hgives.notes_ok h ⟨hnodup, fun _ _ => rfl⟩
  exact ⟨slots, hnoted, yields_of_notes hms hnotes⟩

/-- **A field that is given again is refused**, whatever its second value is and whatever follows. -/
theorem yields_object_of_repeated {ms ms' : List (String × List Char)} {f : s.Field}
    {value : List Char} (hobject : NamedObject cs (ms ++ (s.name f, value) :: ms'))
    (hgives : Gives sp ms gs) (hf : f ∈ fields gs) : Yields s.reader cs (.error .mismatch) :=
  yields_of_notes hobject (hgives.notes_error h value ms' (.inl hf))

/-- **A list is read as the record that its elements make** as the first fields. -/
theorem yields_list (hlist : s.ListFor sp cs gs) :
    ∃ slots, Noted s.noSlots gs slots ∧ Yields s.reader cs (s.settle slots) := by
  obtain ⟨slots, body, hnoted, rfl, helements⟩ := elements_list h hlist
  refine ⟨slots, hnoted, ?_⟩
  intro blank rest hblank _
  obtain ⟨back, hback, hread⟩ := helements rest
  change s.recordValue _ = _
  rw [List.cons_append, recordValue, hblank.skip_append _ (by decide)]
  simp only [if_true, hread, settle]
  cases s.build? slots with
  | none => rfl
  | some a => simp only [hback.closeList_append, Except.map]

/-- **A record is read in any spelling.** -/
theorem knownTo_spelling : (s.spelling sp).KnownTo s.reader where
  opens := by
    rintro _ _ (⟨⟨_, hobject, -⟩, -, -⟩ | ⟨hlist, -⟩)
    · exact hobject.opens (by decide)
    · exact hlist.1.opens (by decide)
  reads := by
    rintro _ a (⟨hobject, hnodup, ha⟩ | ⟨hlist, ha⟩)
    · obtain ⟨slots, hnoted, hyields⟩ := yields_object h hobject hnodup
      rwa [hnoted.settle_eq_ok ha] at hyields
    · obtain ⟨slots, hnoted, hyields⟩ := yields_list h hlist
      rwa [hnoted.settle_eq_ok ha] at hyields

end Records

/-! ### Whole texts -/

variable (s) in
/-- What is parsed from the texts that give values to fields. -/
structure Tolerates (sp : ∀ f, Spelling (s.Value f)) (parse : String → Except ReadError α) : Prop where
  /-- An object is parsed as the record that has the given values and defaults elsewhere. -/
  completes : ∀ {text : String} {gs : List s.Given}, Around (s.ObjectFor sp · gs) text →
    (fields gs).Nodup → (∀ f, f ∉ fields gs → (s.default f).isSome) →
    ∃ a, Completes gs a ∧ parse text = .ok a
  /-- An object that does not give a field without default is refused. -/
  missing : ∀ {text : String} {gs : List s.Given} {f : s.Field},
    Around (s.ObjectFor sp · gs) text → (fields gs).Nodup → f ∉ fields gs → s.default f = none →
    parse text = .error .mismatch
  /-- An object that gives a field again is refused, whatever the second value is and what follows. -/
  repeated : ∀ {text : String} {ms ms' : List (String × List Char)} {gs : List s.Given} {f : s.Field}
    {value : List Char}, Around (NamedObject · (ms ++ (s.name f, value) :: ms')) text →
    Gives sp ms gs → f ∈ fields gs → parse text = .error .mismatch
  /-- A list has the outcome of an object that gives the same values to the same fields. -/
  list : ∀ {text text' : String} {gs gs' : List s.Given}, Around (s.ListFor sp · gs) text →
    Around (s.ObjectFor sp · gs') text' → gs.Perm gs' → parse text = parse text'

/-- The order of the values does not matter. -/
theorem Completes.perm {gs gs' : List s.Given} (hperm : gs.Perm gs') {a : α} (ha : Completes gs a) :
    Completes gs' a := by
  have hfields : (fields gs).Perm (fields gs') := hperm.map _
  exact ⟨fun g hg => ha.given g (hperm.mem_iff.2 hg), fun f hf => ha.default f (mt hfields.mem_iff.1 hf)⟩

/-- The same values of the same fields have the same outcome. -/
theorem settle_eq_settle {gs gs' : List s.Given} (hperm : gs.Perm gs') {slots slots' : s.Slots}
    (h : Noted s.noSlots gs slots) (h' : Noted s.noSlots gs' slots') :
    s.settle slots = s.settle slots' := by
  have hfields : (fields gs).Perm (fields gs') := hperm.map _
  by_cases hdefault : ∀ f, f ∉ fields gs → (s.default f).isSome
  · obtain ⟨a, ha⟩ := h.exists_completes hdefault
    rw [h.settle_eq_ok ha, h'.settle_eq_ok (ha.perm hperm)]
  · obtain ⟨f, hf⟩ := Classical.not_forall.1 hdefault
    obtain ⟨hf, hnone⟩ := Classical.not_imp.1 hf
    rw [Option.not_isSome_iff_eq_none] at hnone
    rw [h.settle_eq_error hf hnone, h'.settle_eq_error (mt hfields.mem_iff.2 hf) hnone]

/-- **Records are read from any selection and order of their fields.** -/
theorem tolerates {sp : ∀ f, Spelling (s.Value f)} (h : ∀ f, (sp f).KnownTo (s.codec f).reader) :
    s.Tolerates sp s.codecOf.parse where
  completes := by
    rintro _ gs ⟨front, cs, back, hfront, hobject, hback, rfl⟩ hnodup hdefault
    obtain ⟨slots, hnoted, hyields⟩ := yields_object h hobject hnodup
    obtain ⟨a, ha⟩ := hnoted.exists_completes hdefault
    refine ⟨a, ha, ?_⟩
    rw [Yields.parse (c := s.codecOf) hyields hfront hback, hnoted.settle_eq_ok ha]
  missing := by
    rintro _ gs f ⟨front, cs, back, hfront, hobject, hback, rfl⟩ hnodup hf hnone
    obtain ⟨slots, hnoted, hyields⟩ := yields_object h hobject hnodup
    rw [Yields.parse (c := s.codecOf) hyields hfront hback, hnoted.settle_eq_error hf hnone]
  repeated := by
    rintro _ ms ms' gs f value ⟨front, cs, back, hfront, hobject, hback, rfl⟩ hgives hf
    exact Yields.parse (c := s.codecOf) (yields_object_of_repeated h hobject hgives hf) hfront hback
  list := by
    rintro _ _ gs gs' ⟨front, cs, back, hfront, hlist, hback, rfl⟩
      ⟨front', cs', back', hfront', hobject, hback', rfl⟩ hperm
    have hnodup : (fields gs).Nodup := hlist.2.sublist.nodup s.nodup_order
    obtain ⟨slots, hnoted, hyields⟩ := yields_list h hlist
    obtain ⟨slots', hnoted', hyields'⟩ := yields_object h hobject ((hperm.map _).nodup hnodup)
    rw [Yields.parse (c := s.codecOf) hyields hfront hback,
      Yields.parse (c := s.codecOf) hyields' hfront' hback', settle_eq_settle hperm hnoted hnoted']

end StudyTime.Json.Schema

/-
**Objects in any spelling.**

The same value has many texts: a name or a text may be escaped, white space may stand between any two
tokens, and members may stand in any order.  Here a reader meets texts that were not written by this
program.  A spelling says which texts stand for a value, without a reader, and a reader knows a
spelling if it reads each of its texts as its value.

Main definitions:

* `Json.Yields` — what a reader makes of a text;
* `Json.NamedObject` — objects with the names of their members and the texts of their values;
* `Json.Notes` — what a reader of members makes of them one after the other;
* `Json.Spelling`, `Json.Spelling.KnownTo` — the texts of the values of a type, and readers of them;
* `Json.Spelling.text`, `Json.Spelling.uint64`, `Json.Spelling.int64`, `Json.Spelling.refine`,
  `Json.Spelling.table` — spellings of texts, whole numbers, refined values and tables.

Main results:

* `Json.Yields.parse` — a whole text is parsed as the reader reads it, with white space around it;
* `Json.Notes.objectBody_append` — **an object is read member by member**, up to the first one that is
  refused;
* `Json.Spelling.KnownTo.table` — **a table is read in any spelling of its members**.
-/

import StudyTime.Proofs.Json.Members
import StudyTime.Proofs.Json.Skipping

set_option relaxedAutoImplicit false
set_option autoImplicit false

namespace StudyTime.Json

/-! ### Readers and texts -/

/-- Whatever white space stands in front of the text and whatever stands behind it that does not go on
with a number, this is what the reader makes of the text. -/
def Yields {α : Type} (r : Reader α) (cs : List Char) (out : Except ReadError α) : Prop :=
  ∀ ⦃blank rest : List Char⦄, Blank blank → Delimits rest →
    r.run (blank ++ (cs ++ rest)) = out.map fun a => (a, rest)

/-- A text of such a piece and of white space around it. -/
def Around (P : List Char → Prop) (text : String) : Prop :=
  ∃ front cs back, Blank front ∧ P cs ∧ Blank back ∧ text = String.ofList (front ++ (cs ++ back))

section Readers

variable {α β : Type} {r : Reader α} {cs : List Char}

theorem Yields.map {a : α} (h : Yields r cs (.ok a)) (f : α → β) : Yields (r.map f) cs (.ok (f a)) := by
  intro blank rest hblank hrest
  exact Reader.run_map_ok (h hblank hrest)

theorem Yields.check {a : α} (h : Yields r cs (.ok a)) {f : α → Option β} {b : β} (hb : f a = some b) :
    Yields (r.check f) cs (.ok b) := by
  intro blank rest hblank hrest
  exact Reader.run_check_ok (h hblank hrest) hb

theorem Blank.delimits {cs : List Char} (h : Blank cs) : Delimits cs := by
  intro c hc
  cases cs with
  | nil => cases hc
  | cons b cs => exact (h.delimits_append [] (c := ',') (by decide)) c hc

/-- **A whole text is parsed as the reader reads it**, with white space around it. -/
theorem Yields.parse {c : Codec α} {out : Except ReadError α} (h : Yields c.reader cs out)
    {front back : List Char} (hfront : Blank front) (hback : Blank back) :
    c.parse (String.ofList (front ++ (cs ++ back))) = out := by
  have hskip := skipBlank_append [] hback
  rw [List.append_nil] at hskip
  rw [Codec.parse, String.toList_ofList, h hfront hback.delimits]
  cases out with
  | error e => rfl
  | ok a => simp only [Except.map, hskip, skipBlank_nil]

theorem Grammatical.yields (h : Grammatical cs) : Yields skipValue cs (.ok ()) :=
  fun _ _ hblank hrest => h.run_skipValue hblank hrest

end Readers

/-! ### Members -/

/-- What stands between the quotes spells this name. -/
abbrev Names (body : List Char) (name : String) : Prop := Spelled body name.toList

/-- An object whose members have these names, with the texts of their values. -/
abbrev NamedObject : List Char → List (String × List Char) → Prop := ObjectText Names

section Members

variable {σ : Type}

/-- What a reader of members makes of them one after the other. -/
inductive Notes (field : σ → String → Except ReadError (Reader σ)) :
    σ → List (String × List Char) → Except ReadError σ → Prop
  | nil (acc : σ) : Notes field acc [] (.ok acc)
  | takes {acc acc' : σ} {name : String} {cs : List Char} {ms : List (String × List Char)}
      {value : Reader σ} {out : Except ReadError σ} : field acc name = .ok value →
      Yields value cs (.ok acc') → Notes field acc' ms out → Notes field acc ((name, cs) :: ms) out
  | refuses {acc : σ} {name : String} {cs : List Char} {ms : List (String × List Char)}
      {e : ReadError} : field acc name = .error e → Notes field acc ((name, cs) :: ms) (.error e)

variable {field : σ → String → Except ReadError (Reader σ)} {acc acc' : σ}

theorem memberValue_of_ok {body cs between front rest : List Char} {name : String} {value : Reader σ}
    (hname : Names body name) (hbetween : Blank between) (hfront : Blank front)
    (hrest : Delimits rest) (hfield : field acc name = .ok value) (hvalue : Yields value cs (.ok acc')) :
    memberValue field acc (body ++ '"' :: (between ++ ':' :: (front ++ (cs ++ rest)))) =
      .ok (acc', rest) := by
  rw [memberValue, hname.textBody_append]
  simp only [String.ofList_toList, hfield, hbetween.colon_append, hvalue hfront hrest, Except.map]

theorem memberValue_of_error {body : List Char} {name : String} {e : ReadError}
    (hname : Names body name) (hfield : field acc name = .error e) (rest : List Char) :
    memberValue field acc (body ++ '"' :: rest) = .error e := by
  rw [memberValue, hname.textBody_append]
  simp only [String.ofList_toList, hfield]

/-- The members of an object are noted in order, and its closing bracket is passed over. -/
theorem Notes.members_append {cs : List Char} {ms : List (String × List Char)}
    (hrow : Row (MemberText Names) cs ms) (rest : List Char) :
    ∀ {acc : σ} {out : Except ReadError σ}, Notes field acc ms out →
      ∃ body, skipBlank (cs ++ braceClose :: rest) = '"' :: body ∧
        members field acc body = out.map fun acc => (acc, rest) := by
  induction hrow with
  | one hfront hm hback =>
      intro acc out h
      cases hm with
      | mk hname hbetween hgap =>
          simp only [List.append_assoc, List.cons_append]
          refine ⟨_, hfront.skip_append _ (by decide), ?_⟩
          cases h with
          | refuses hfield => exact members_of_error (memberValue_of_error hname hfield _)
          | takes hfield hvalue hnil =>
              cases hnil
              have hrest := hback.delimits_append rest (c := braceClose) (by decide)
              rw [members_of_memberValue
                (memberValue_of_ok hname hbetween hgap hrest hfield hvalue),
                hback.skip_append _ (by decide)]
              rfl
  | cons hfront hm hback _ ih =>
      intro acc out h
      cases hm with
      | mk hname hbetween hgap =>
          simp only [List.append_assoc, List.cons_append]
          refine ⟨_, hfront.skip_append _ (by decide), ?_⟩
          cases h with
          | refuses hfield => exact members_of_error (memberValue_of_error hname hfield _)
          | takes hfield hvalue hms =>
              -- behind the comma and the white space stands the quote of the next name
              have hne : ',' ≠ braceClose := by decide
              obtain ⟨body, hbody, hmembers⟩ := ih hms
              rw [members_of_memberValue (memberValue_of_ok hname hbetween hgap
                (hback.delimits_append _ (by decide)) hfield hvalue),
                hback.skip_append _ (by decide)]
              simp [hne, hbody, hmembers]

/-- **An object is read member by member**, up to the first one that is refused. -/
theorem Notes.objectBody_append {cs : List Char} {ms : List (String × List Char)}
    (hobject : NamedObject cs ms) {out : Except ReadError σ} (h : Notes field acc ms out) :
    ∃ body, cs = braceOpen :: body ∧
      ∀ rest, objectBody field acc (body ++ rest) = out.map fun acc => (acc, rest) := by
  cases hobject with
  | none hblank =>
      cases h
      refine ⟨_, rfl, fun rest => ?_⟩
      rw [List.append_assoc, objectBody, List.singleton_append, hblank.skip_append _ (by decide)]
      rfl
  | row hrow =>
      refine ⟨_, rfl, fun rest => ?_⟩
      obtain ⟨body, hbody, hmembers⟩ := h.members_append hrow rest
      rw [List.append_assoc, objectBody, List.singleton_append, hbody]
      exact hmembers

end Members

/-! ### Spellings -/

/-- The texts that stand for the values of a type. -/
abbrev Spelling (α : Type) : Type := List Char → α → Prop

/-- The reader reads each text as its value. -/
structure Spelling.KnownTo {α : Type} (sp : Spelling α) (r : Reader α) : Prop where
  opens : ∀ {cs : List Char} {a : α}, sp cs a → Opens cs
  reads : ∀ {cs : List Char} {a : α}, sp cs a → Yields r cs (.ok a)

namespace Spelling

variable {α β : Type}

/-- A text in quotes. -/
inductive text : Spelling String
  | mk {body : List Char} {s : String} : Spelled body s.toList → text ('"' :: (body ++ ['"'])) s

/-- Decimal digits. -/
def uint64 : Spelling UInt64 := fun cs n => cs = writeInt n.toNat

/-- Decimal digits with a minus sign in front of a number below zero. -/
def int64 : Spelling Int64 := fun cs n => cs = writeInt n.toInt

/-- The texts of a value from which this one is decoded. -/
def refine (sp : Spelling α) (decode : α → Option β) : Spelling β :=
  fun cs b => ∃ a, sp cs a ∧ decode a = some b

/-- The texts of members stand for these entries. -/
inductive Entries (sp : Spelling α) : List (String × List Char) → List (String × α) → Prop
  | nil : Entries sp [] []
  | cons {name : String} {cs : List Char} {a : α} {ms : List (String × List Char)}
      {es : List (String × α)} : sp cs a → Entries sp ms es →
      Entries sp ((name, cs) :: ms) ((name, a) :: es)

/-- An object whose members are the entries of a map, in any order.  Of entries with one name the last
counts. -/
inductive table (sp : Spelling α) : Spelling (SortedMap String α)
  | mk {cs : List Char} {ms : List (String × List Char)} {es : List (String × α)} :
      NamedObject cs ms → Entries sp ms es → table sp cs (SortedMap.ofList es)

theorem knownTo_text : text.KnownTo readText where
  opens := by
    rintro _ _ ⟨h⟩
    exact ⟨'"', _, rfl, by decide⟩
  reads := by
    rintro _ s ⟨h⟩ blank rest hblank hrest
    change textValue _ = _
    simp only [List.cons_append, List.append_assoc, List.nil_append]
    rw [textValue, hblank.skip_append _ (by decide)]
    simp [h.textBody_append, Except.map, String.ofList_toList]

theorem opens_writeInt (n : Int) : Opens (writeInt n) := by
  obtain ⟨c, cs, hcs, hc⟩ := writeInt_eq_cons n
  refine ⟨c, cs, hcs, not_isBlank_of_startsNumber hc, ?_⟩
  rintro rfl
  exact absurd hc (by decide)

theorem knownTo_uint64 : uint64.KnownTo Codec.uint64.reader where
  opens := by
    rintro _ n rfl
    exact opens_writeInt n.toNat
  reads := by
    rintro _ n rfl blank rest hblank hrest
    exact Codec.lawful_uint64 n .compact Layout.isBlank_compact 0 hblank hrest

theorem knownTo_int64 : int64.KnownTo Codec.int64.reader where
  opens := by
    rintro _ n rfl
    exact opens_writeInt n.toInt
  reads := by
    rintro _ n rfl blank rest hblank hrest
    exact Codec.lawful_int64 n .compact Layout.isBlank_compact 0 hblank hrest

theorem KnownTo.refine {sp : Spelling α} {c : Codec α} (h : sp.KnownTo c.reader) (encode : β → α)
    (decode : α → Option β) : (sp.refine decode).KnownTo (c.refine encode decode).reader where
  opens := by
    rintro _ _ ⟨a, ha, -⟩
    exact h.opens ha
  reads := by
    rintro _ b ⟨a, ha, hb⟩
    exact (h.reads ha).check hb

/-! ### Tables -/

theorem Entries.notes {sp : Spelling α} {r : Reader α} (h : sp.KnownTo r)
    {ms : List (String × List Char)} {es : List (String × α)} (hes : Entries sp ms es) :
    ∀ before : List (String × α), Notes (entry r) before ms (.ok (before ++ es)) := by
  induction hes with
  | nil =>
      intro before
      rw [List.append_nil]
      exact .nil before
  | @cons name _ a _ _ ha _ ih =>
      intro before
      have hrest := ih (before ++ [(name, a)])
      rw [List.append_assoc, List.singleton_append] at hrest
      exact .takes rfl ((h.reads ha).map fun a => before ++ [(name, a)]) hrest

/-- **A table is read in any spelling of its members.** -/
theorem KnownTo.table {sp : Spelling α} {r : Reader α} (h : sp.KnownTo r) :
    sp.table.KnownTo (readTable r) where
  opens := by
    rintro _ _ ⟨hobject, -⟩
    exact hobject.opens (by decide)
  reads := by
    rintro _ _ ⟨hobject, hes⟩
    rw [readTable_eq_map]
    refine Yields.map ?_ SortedMap.ofList
    obtain ⟨body, rfl, hbody⟩ := (hes.notes h []).objectBody_append hobject
    intro blank rest hblank _
    change entriesValue r _ = _
    rw [List.cons_append, entriesValue, hblank.skip_append _ (by decide)]
    exact hbody rest

end Spelling

end StudyTime.Json

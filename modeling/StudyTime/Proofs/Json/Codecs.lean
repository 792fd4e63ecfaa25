/-
**Written values are read back.**

A codec is lawful if its reader finds every value in the written form of the value, in any layout
that puts nothing but white space between tokens, whatever white space stands in front of it and
whatever text behind it, as long as that text does not go on with a number.  Codecs for texts, whole
numbers and choices are lawful, and so are those for lists of lawful codecs.

Main definitions:

* `Json.Layout.IsBlank` — layouts of white space;
* `Json.Finds`, `Json.Codec.Lawful` — readers that find a value in a document, and lawful codecs;
* `Json.Takes` — readers of members that take the members of an object one after the other.

Main results:

* `Json.Codec.Lawful.parse_compact`, `Json.Codec.Lawful.parse_spread` — **what a lawful codec writes
  is parsed as the value that was written**;
* `Json.Takes.objectBody_write` — the members of a written object are taken in order;
* `Json.Codec.lawful_choice` — choices between all values of a type;
* `Json.Codec.Lawful.list` — lists of lawful codecs.
-/

import StudyTime.Json.Choice
import StudyTime.Proofs.Json.Numbers
import StudyTime.Proofs.Json.Texts

set_option relaxedAutoImplicit false
set_option autoImplicit false

namespace StudyTime.Json

/-! ### White space -/

/-- Nothing but white space. -/
def Blank (cs : List Char) : Prop := ∀ c ∈ cs, isBlank c = true

theorem blank_nil : Blank [] := by
  intro c hc
  cases hc

/-- White space in front of a text is passed over. -/
theorem Blank.skip_append {cs : List Char} (h : Blank cs) {c : Char} (rest : List Char)
    (hc : isBlank c = false) : skipBlank (cs ++ c :: rest) = c :: rest := by
  rw [skipBlank_append _ h, skipBlank_cons_of_not_blank rest hc]

/-- The colon between a name and its value is passed over, with white space in front of it. -/
theorem Blank.colon_append {cs : List Char} (h : Blank cs) (rest : List Char) :
    colon (cs ++ ':' :: rest) = .ok rest := by
  rw [colon, h.skip_append rest (by decide)]
  rfl

/-- The closing bracket of a list is passed over, with white space in front of it. -/
theorem Blank.closeList_append {cs : List Char} (h : Blank cs) (rest : List Char) :
    closeList (cs ++ ']' :: rest) = .ok rest := by
  rw [closeList, h.skip_append rest (by decide)]
  rfl

/-- White space and a bracket or a comma do not go on with a number. -/
theorem Blank.delimits_append {cs : List Char} (h : Blank cs) {c : Char} (rest : List Char)
    (hc : isDigit c = false ∧ c ≠ '.' ∧ c ≠ 'e' ∧ c ≠ 'E') : Delimits (cs ++ c :: rest) := by
  cases cs with
  | nil => exact delimits_cons rest hc
  | cons b cs =>
      -- only the first character counts, and here it is white space
      refine delimits_cons _ ?_
      have hb := h b List.mem_cons_self
      simp only [isBlank, Bool.or_eq_true, beq_iff_eq] at hb
      rcases hb with ((rfl | rfl) | rfl) | rfl <;> decide

/-- A layout that puts nothing but white space between tokens. -/
structure Layout.IsBlank (l : Layout) : Prop where
  line : ∀ depth, Blank (l.line depth)
  gap : Blank l.gap

theorem Layout.isBlank_compact : Layout.compact.IsBlank :=
  ⟨fun _ => blank_nil, blank_nil⟩

theorem Layout.isBlank_spread : Layout.spread.IsBlank := by
  constructor
  · intro depth c hc
    rcases List.mem_cons.1 hc with rfl | hc
    · decide
    · rw [(List.mem_replicate.1 hc).2]
      decide
  · intro c hc
    rw [List.mem_singleton.1 hc]
    decide

/-! ### Lawful codecs -/

/-- The reader finds this value in the written form of the document. -/
def Finds {α : Type} (r : Reader α) (t : Tree) (a : α) : Prop :=
  ∀ l : Layout, l.IsBlank → ∀ (depth : Nat) {blank rest : List Char}, Blank blank →
    Delimits rest → r.run (blank ++ (t.write l depth ++ rest)) = .ok (a, rest)

/-- Every value is found in the document for it. -/
def Codec.Lawful {α : Type} (c : Codec α) : Prop := ∀ a, Finds c.reader (c.tree a) a

section Basic

variable {α β : Type}

theorem Finds.map {r : Reader α} {t : Tree} {a : α} (h : Finds r t a) (f : α → β) :
    Finds (r.map f) t (f a) := by
  intro l hl depth blank rest hblank hrest
  exact Reader.run_map_ok (h l hl depth hblank hrest)

theorem Finds.check {r : Reader α} {t : Tree} {a : α} {b : β} (h : Finds r t a)
    {f : α → Option β} (hf : f a = some b) : Finds (r.check f) t b := by
  intro l hl depth blank rest hblank hrest
  exact Reader.run_check_ok (h l hl depth hblank hrest) hf

/-- A whole text is parsed if the reader finds a value in it. -/
theorem Codec.Lawful.parse_write {c : Codec α} (h : c.Lawful) {l : Layout} (hl : l.IsBlank)
    (a : α) : c.parse (String.ofList ((c.tree a).write l 0)) = .ok a := by
  have hrun := h a l hl 0 blank_nil delimits_nil
  rw [List.nil_append, List.append_nil] at hrun
  rw [Codec.parse, String.toList_ofList, hrun]
  rfl

/-- **What is written with nothing between the tokens is read back.** -/
theorem Codec.Lawful.parse_compact {c : Codec α} (h : c.Lawful) (a : α) :
    c.parse (c.compact a) = .ok a := h.parse_write Layout.isBlank_compact a

/-- **What is written with a line for every element is read back.** -/
theorem Codec.Lawful.parse_spread {c : Codec α} (h : c.Lawful) (a : α) :
    c.parse (c.spread a) = .ok a := h.parse_write Layout.isBlank_spread a

theorem Codec.Lawful.refine {c : Codec α} (h : c.Lawful) {encode : β → α} {decode : α → Option β}
    (hd : ∀ b, decode (encode b) = some b) : (c.refine encode decode).Lawful := by
  intro b
  exact Finds.check (h (encode b)) (hd b)

end Basic

/-! ### Texts and numbers -/

/-- Where no two things have the same name, each is the first one found under its name. -/
theorem find?_name {α : Type} {name : α → String} {all : List α}
    (hname : ∀ {a b : α}, name a = name b → a = b) {a : α} (ha : a ∈ all) :
    all.find? (fun b => name b == name a) = some a := by
  cases hfind : all.find? fun b => name b == name a with
  | none =>
      have hnone := List.find?_eq_none.1 hfind a ha
      simp at hnone
  | some b =>
      have hb : b = a := hname (by simpa using List.find?_some hfind)
      rw [hb]

theorem quote_append (s : String) (rest : List Char) :
    quote s ++ rest = '"' :: (s.toList.flatMap escapeChar ++ '"' :: rest) := by
  simp [quote]

theorem Codec.lawful_text : Codec.text.Lawful := by
  intro s l hl depth blank rest hblank hrest
  change textValue (blank ++ (quote s ++ rest)) = _
  rw [quote_append, textValue, hblank.skip_append _ (by decide)]
  simp [textBody_escape, String.ofList_toList]

theorem not_isBlank_of_startsNumber {c : Char} (h : startsNumber c = true) : isBlank c = false := by
  cases hb : isBlank c with
  | false => rfl
  | true =>
      simp only [isBlank, Bool.or_eq_true, beq_iff_eq] at hb
      rcases hb with ((rfl | rfl) | rfl) | rfl <;> exact absurd h (by decide)

/-- A whole number within bounds of sixty-four bits is found. -/
theorem finds_readInt {low high n : Int} (hlow : low ≤ n) (hhigh : n ≤ high)
    (hn : n.natAbs < UInt64.size) : Finds (readInt low high) (.number n) n := by
  intro l hl depth blank rest hblank hrest
  change intValue low high (blank ++ (writeInt n ++ rest)) = _
  have hread := readNumber_writeInt n hn hrest
  obtain ⟨c, cs, hcs, hc⟩ := writeInt_eq_cons n
  rw [hcs, List.cons_append] at hread ⊢
  rw [intValue, hblank.skip_append _ (not_isBlank_of_startsNumber hc)]
  simp [hc, hread, hlow, hhigh]

theorem Codec.lawful_uint64 : Codec.uint64.Lawful := by
  intro n
  have hn : n.toNat < 18446744073709551616 := n.toNat_lt
  have hfind : Finds (readInt 0 0xFFFFFFFFFFFFFFFF) (.number n.toNat) (n.toNat : Int) :=
    finds_readInt (by omega) (by omega) (by simpa [UInt64.size] using hn)
  have hback : UInt64.ofNat (n.toNat : Int).toNat = n := by simp
  have hmap := hfind.map fun n => UInt64.ofNat n.toNat
  rw [hback] at hmap
  exact hmap

theorem Codec.lawful_int64 : Codec.int64.Lawful := by
  intro n
  have hlow := Int64.le_toInt n
  have hhigh := Int64.toInt_lt n
  have hfind : Finds (readInt (-0x8000000000000000) 0x7FFFFFFFFFFFFFFF) (.number n.toInt) n.toInt :=
    finds_readInt (by omega) (by omega) (by simp only [UInt64.size]; omega)
  have hmap := hfind.map Int64.ofInt
  rw [Int64.ofInt_toInt] at hmap
  exact hmap

/-! ### Choices -/

/-- **A choice between all values of a type is lawful** if no two of them have the same name. -/
theorem Codec.lawful_choice {α : Type} {name : α → String} {all : List α}
    (hname : ∀ {a b : α}, name a = name b → a = b) (hall : ∀ a, a ∈ all) :
    (Codec.choice name all).Lawful := by
  intro a l hl depth blank rest hblank hrest
  have hread : Finds (readName name all) (.text (name a)) a :=
    (Codec.lawful_text (name a)).check (find?_name hname (hall a))
  have hrun := hread l hl depth blank_nil hrest
  change choiceValue name all (blank ++ (quote (name a) ++ rest)) = _
  change (readName name all).run ([] ++ (quote (name a) ++ rest)) = _ at hrun
  rw [List.nil_append, quote_append] at hrun
  have hne : '"' ≠ braceOpen := by decide
  rw [quote_append, choiceValue, hblank.skip_append _ (by decide)]
  simp only [if_neg hne, nameValue, skipBlank_cons_of_not_blank _ (by decide : isBlank '"' = false),
    if_true, hrun]

/-! ### Lists -/

/-- The written form of a document starts with a token that closes nothing. -/
theorem Tree.write_eq_cons (l : Layout) (depth : Nat) (t : Tree) :
    ∃ c cs, t.write l depth = c :: cs ∧ isBlank c = false ∧ c ≠ ']' := by
  cases t with
  | text s => exact ⟨'"', _, rfl, by decide, by decide⟩
  | number n =>
      obtain ⟨c, cs, hcs, hc⟩ := writeInt_eq_cons n
      refine ⟨c, cs, by rw [Tree.write, hcs], not_isBlank_of_startsNumber hc, ?_⟩
      rintro rfl
      exact absurd hc (by decide)
  | list items =>
      cases items with
      | nil => exact ⟨'[', _, by rw [Tree.write], by decide, by decide⟩
      | cons t ts => exact ⟨'[', _, by rw [Tree.write], by decide, by decide⟩
  | object ms =>
      cases ms with
      | nil => exact ⟨braceOpen, _, by rw [Tree.write], by decide, by decide⟩
      | cons m ms => exact ⟨braceOpen, _, by rw [Tree.write], by decide, by decide⟩

section Lists

variable {α : Type}

theorem moreItems_of_none {r : Reader α} {cs : List Char} (h : nextItem false cs = .ok none) :
    moreItems r cs = .ok ([], cs) := by
  rw [moreItems]
  split
  next e he => rw [h] at he; cases he
  next => rfl
  next rest he => rw [h] at he; cases he

theorem moreItems_of_some {r : Reader α} {cs rest rest' rest'' : List Char} {a : α} {as : List α}
    (h : nextItem false cs = .ok (some rest)) (ha : r.run rest = .ok (a, rest'))
    (has : moreItems r rest' = .ok (as, rest'')) : moreItems r cs = .ok (a :: as, rest'') := by
  rw [moreItems]
  split
  next e he => rw [h] at he; cases he
  next he => rw [h] at he; cases he
  next rest₁ he =>
    rw [h] at he
    cases he
    split
    next e he => rw [ha] at he; cases he
    next a₁ rest₂ he =>
      rw [ha] at he
      cases he
      rw [has]

variable {c : Codec α} {l : Layout}

/-- What follows an element of a list does not go on with a number. -/
theorem delimits_items (hl : l.IsBlank) (depth : Nat) (ts : List Tree) (rest : List Char) :
    Delimits (Tree.writeItems l (depth + 1) ts ++ (l.line depth ++ ']' :: rest)) := by
  cases ts with
  | nil =>
      rw [Tree.writeItems, List.nil_append]
      exact (hl.line depth).delimits_append rest (by decide)
  | cons t ts =>
      rw [Tree.writeItems, List.cons_append]
      exact delimits_cons _ (by decide)

/-- The elements of a written list behind its first one are read in order. -/
theorem Codec.Lawful.moreItems_write (h : c.Lawful) (hl : l.IsBlank) (depth : Nat)
    (rest : List Char) (as : List α) :
    moreItems c.reader
      (Tree.writeItems l (depth + 1) (as.map c.tree) ++ (l.line depth ++ ']' :: rest)) =
        .ok (as, l.line depth ++ ']' :: rest) := by
  induction as with
  | nil =>
      rw [List.map_nil, Tree.writeItems, List.nil_append]
      refine moreItems_of_none ?_
      rw [nextItem, (hl.line depth).skip_append rest (by decide)]
      rfl
  | cons a as ih =>
      obtain ⟨b, bs, hbs, hb, hne⟩ := Tree.write_eq_cons l (depth + 1) (c.tree a)
      have ha := h a l hl (depth + 1) blank_nil (delimits_items hl depth (as.map c.tree) rest)
      rw [List.nil_append] at ha
      refine moreItems_of_some ?_ ha ih
      -- behind the comma and the white space stands the first character of the element
      simp only [List.map_cons, Tree.writeItems, List.cons_append, List.append_assoc, hbs]
      rw [nextItem, skipBlank_cons_of_not_blank _ (by decide)]
      simp [(hl.line (depth + 1)).skip_append _ hb, hne]

/-- **A codec for lists is lawful** if the one for their elements is. -/
theorem Codec.Lawful.list (h : c.Lawful) : (Codec.list c).Lawful := by
  intro as l hl depth blank rest hblank hrest
  change listValue c.reader (blank ++ (Tree.write l depth (.list (as.map c.tree)) ++ rest)) = _
  cases as with
  | nil =>
      rw [List.map_nil, Tree.write, List.cons_append, listValue, hblank.skip_append _ (by decide)]
      simp [allItems, nextItem, closeList, skipBlank_cons_of_not_blank, isBlank]
  | cons a as =>
      obtain ⟨b, bs, hbs, hb, hne⟩ := Tree.write_eq_cons l (depth + 1) (c.tree a)
      have ha := h a l hl (depth + 1) blank_nil (delimits_items hl depth (as.map c.tree) rest)
      have hmore := h.moreItems_write hl depth rest as
      have hclose := (hl.line depth).closeList_append rest
      simp only [List.map_cons, Tree.write, List.cons_append, List.append_assoc, List.nil_append]
      rw [List.nil_append, hbs, List.cons_append] at ha
      rw [listValue, hblank.skip_append _ (by decide), hbs, List.cons_append]
      simp [allItems, nextItem, (hl.line (depth + 1)).skip_append _ hb, hne, ha, hmore, hclose]

end Lists

/-! ### Members -/

section Members

variable {σ : Type}

/-- The members are taken one after the other: each is welcome when its turn comes, and its value
is found and noted. -/
inductive Takes (field : σ → String → Except ReadError (Reader σ)) :
    σ → List (String × Tree) → σ → Prop
  | nil (acc : σ) : Takes field acc [] acc
  | cons {acc acc' acc'' : σ} {name : String} {t : Tree} {ms : List (String × Tree)}
      {value : Reader σ} : field acc name = .ok value → Finds value t acc' →
      Takes field acc' ms acc'' → Takes field acc ((name, t) :: ms) acc''

variable {field : σ → String → Except ReadError (Reader σ)} {acc acc' acc'' : σ}

theorem members_of_error {cs : List Char} {e : ReadError}
    (h : memberValue field acc cs = .error e) : members field acc cs = .error e := by
  rw [members]
  split
  next e' he =>
    rw [h] at he
    cases he
    rfl
  next he => rw [h] at he; cases he

/-- What stands behind a member decides how the loop goes on. -/
theorem members_of_memberValue {cs after : List Char}
    (h : memberValue field acc cs = .ok (acc', after)) :
    members field acc cs =
      match skipBlank after with
      | [] => .error .ended
      | c :: rest =>
        if c = braceClose then .ok (acc', rest)
        else if c = ',' then
          match skipBlank rest with
          | [] => .error .ended
          | c' :: rest' => if c' = '"' then members field acc' rest' else .error .malformed
        else .error .malformed := by
  rw [members]
  split
  next e he => rw [h] at he; cases he
  next acc₁ after₁ he =>
    rw [h] at he
    cases he
    split
    next hrest => rw [hrest]
    next c rest hrest =>
      simp only [hrest]
      split
      · rfl
      · split
        · split
          next he => rw [he]
          next he => rw [he]
        · rfl

theorem writeMember_append (l : Layout) (depth : Nat) (name : String) (t : Tree)
    (rest : List Char) :
    Tree.writeMember l depth (name, t) ++ rest =
      '"' :: (name.toList.flatMap escapeChar ++ '"' :: ':' :: (l.gap ++ (t.write l depth ++ rest))) := by
  rw [Tree.writeMember, List.append_assoc, quote_append]
  simp only [List.cons_append, List.append_assoc]

/-- A written member is read if it is welcome and its value is found. -/
theorem memberValue_write {l : Layout} (hl : l.IsBlank) (depth : Nat) {name : String} {t : Tree}
    {value : Reader σ} (hfield : field acc name = .ok value) (hvalue : Finds value t acc')
    {rest : List Char} (hrest : Delimits rest) :
    memberValue field acc
      (name.toList.flatMap escapeChar ++ '"' :: ':' :: (l.gap ++ (t.write l depth ++ rest))) =
        .ok (acc', rest) := by
  have hrun := hvalue l hl depth hl.gap hrest
  have hcolon : ∀ cs, colon (':' :: cs) = .ok cs := blank_nil.colon_append
  simp only [memberValue, textBody_escape, String.ofList_toList, hfield, hcolon, hrun]

/-- What follows a member of an object does not go on with a number. -/
theorem delimits_members {l : Layout} (hl : l.IsBlank) (depth : Nat) (ms : List (String × Tree))
    (rest : List Char) :
    Delimits (Tree.writeMembers l (depth + 1) ms ++ (l.line depth ++ braceClose :: rest)) := by
  cases ms with
  | nil =>
      rw [Tree.writeMembers, List.nil_append]
      exact (hl.line depth).delimits_append rest (by decide)
  | cons m ms =>
      rw [Tree.writeMembers, List.cons_append]
      exact delimits_cons _ (by decide)

/-- The members of a written object are taken in order, and the closing bracket is passed over. -/
theorem Takes.members_write {l : Layout} (hl : l.IsBlank) (depth : Nat) (rest : List Char)
    {ms : List (String × Tree)} :
    ∀ {acc acc' : σ} {name : String} {t : Tree}, Takes field acc ((name, t) :: ms) acc' →
      members field acc (name.toList.flatMap escapeChar ++ '"' :: ':' :: (l.gap ++
        (t.write l (depth + 1) ++ (Tree.writeMembers l (depth + 1) ms ++
          (l.line depth ++ braceClose :: rest))))) = .ok (acc', rest) := by
  induction ms with
  | nil =>
      intro acc acc' name t h
      cases h with
      | cons hfield hvalue htail =>
          cases htail
          rw [members_of_memberValue
            (memberValue_write hl (depth + 1) hfield hvalue (delimits_members hl depth [] rest)),
            Tree.writeMembers, List.nil_append, (hl.line depth).skip_append rest (by decide)]
          rfl
  | cons m ms ih =>
      intro acc acc' name t h
      obtain ⟨name', t'⟩ := m
      cases h with
      | cons hfield hvalue htail =>
          rw [members_of_memberValue (memberValue_write hl (depth + 1) hfield hvalue
            (delimits_members hl depth ((name', t') :: ms) rest)), Tree.writeMembers]
          -- behind the comma and the white space stands the quote of the next name
          simp only [List.cons_append, List.append_assoc]
          rw [skipBlank_cons_of_not_blank _ (by decide), writeMember_append]
          simp only [(hl.line (depth + 1)).skip_append _ (by decide : isBlank '"' = false)]
          exact ih htail

/-- **The members of a written object are taken in order.** -/
theorem Takes.objectBody_write {l : Layout} (hl : l.IsBlank) (depth : Nat) (rest : List Char)
    {acc acc' : σ} {ms : List (String × Tree)} (h : Takes field acc ms acc') :
    ∃ body, (Tree.object ms).write l depth ++ rest = braceOpen :: body ∧
      objectBody field acc body = .ok (acc', rest) := by
  cases ms with
  | nil =>
      cases h
      refine ⟨braceClose :: rest, by rw [Tree.write]; rfl, ?_⟩
      rw [objectBody, skipBlank_cons_of_not_blank _ (by decide)]
      rfl
  | cons m ms =>
      obtain ⟨name, t⟩ := m
      refine ⟨_, by rw [Tree.write]; simp only [List.cons_append, List.append_assoc]; rfl, ?_⟩
      rw [writeMember_append, objectBody]
      simp only [(hl.line (depth + 1)).skip_append _ (by decide : isBlank '"' = false)]
      exact h.members_write hl depth rest

end Members

end StudyTime.Json

/-
**Documents of which the end is lost.**

What is left of a written document when its end is lost is never taken for another document.  A text
or an object is closed by its last character, so what is left of one is reported as ended, wherever it
was torn: inside a name, an escape or a number, between two tokens, or between two members.  What is
left of a number may be a smaller number; but then the text is at its end, and the object around it is
not closed.

Main definitions:

* `Json.Torn` — what is left of a text whose end is lost;
* `Json.Exhausts`, `Json.Breaks` — readers that come to the end of what is left of a document, and
  readers that report it as ended;
* `Json.ExhaustsAll` — the same for the values of members.

Main results:

* `Json.textBody_torn` — what is left of a text is reported as ended;
* `Json.Takes.objectBody_torn` — **what is left of an object is reported as ended**;
* `Json.Codec.Exhausts.table`, `Json.Schema.breaks_codecOf` — tables and records;
* `Json.Codec.Breaks.parse_torn` — **what is left of a written text is not parsed**.
-/

import StudyTime.Proofs.Json.Schemas

set_option relaxedAutoImplicit false
set_option autoImplicit false

namespace StudyTime.Json

/-! ### Torn texts -/

/-- What is left of a text whose end is lost. -/
inductive Torn : List Char → List Char → Prop
  | nil (c : Char) (whole : List Char) : Torn [] (c :: whole)
  | cons (c : Char) {cs whole : List Char} : Torn cs whole → Torn (c :: cs) (c :: whole)

namespace Torn

variable {cs whole back : List Char}

/-- What is cut off at any character. -/
theorem take : ∀ {whole : List Char} {n : Nat}, n < whole.length → Torn (whole.take n) whole
  | c :: whole, 0, _ => .nil c whole
  | c :: _, _ + 1, h => .cons c (take (Nat.lt_of_succ_lt_succ h))

/-- The text is torn in its front part, or in its back part. -/
theorem cases_append (h : Torn cs (whole ++ back)) :
    Torn cs whole ∨ ∃ cs', cs = whole ++ cs' ∧ Torn cs' back := by
  induction whole generalizing cs with
  | nil => exact .inr ⟨cs, rfl, h⟩
  | cons c whole ih =>
      cases h with
      | nil => exact .inl (.nil c whole)
      | cons _ h =>
          obtain hfront | ⟨cs', rfl, hback⟩ := ih h
          · exact .inl (.cons c hfront)
          · exact .inr ⟨cs', rfl, hback⟩

/-- Of a single character nothing is left. -/
theorem eq_nil {c : Char} (h : Torn cs [c]) : cs = [] := by
  cases h with
  | nil => rfl
  | cons _ h => cases h

theorem mem {c : Char} (h : Torn cs whole) (hc : c ∈ cs) : c ∈ whole := by
  induction h with
  | nil => cases hc
  | cons c' _ ih => exact List.mem_cons.2 ((List.mem_cons.1 hc).imp id ih)

end Torn

/-- What is left of white space is white space. -/
theorem Blank.torn {cs blank : List Char} (h : Blank blank) (hcs : Torn cs blank) : Blank cs :=
  fun c hc => h c (hcs.mem hc)

theorem Blank.skip_eq_nil {cs : List Char} (h : Blank cs) : skipBlank cs = [] := by
  have hskip := skipBlank_append [] h
  rwa [List.append_nil] at hskip

/-- Behind white space nothing is left, or a character and something torn. -/
theorem Blank.skip_torn {blank : List Char} (h : Blank blank) {c : Char} (hc : isBlank c = false)
    {cs rest : List Char} (hcs : Torn cs (blank ++ c :: rest)) :
    skipBlank cs = [] ∨ ∃ cs', Torn cs' rest ∧ skipBlank cs = c :: cs' := by
  obtain hblank | ⟨cs, rfl, hrest⟩ := hcs.cases_append
  · exact .inl (h.torn hblank).skip_eq_nil
  · cases hrest with
    | nil => exact .inl (by rw [List.append_nil, h.skip_eq_nil])
    | cons _ hrest => exact .inr ⟨_, hrest, h.skip_append _ hc⟩

/-- What is left of a text that does not go on with a number does not go on with one either. -/
theorem Delimits.torn {cs rest : List Char} (h : Delimits rest) (hcs : Torn cs rest) : Delimits cs := by
  cases hcs with
  | nil => exact delimits_nil
  | cons c _ => exact delimits_cons _ (h c rfl)

/-! ### Texts -/

theorem textBody_of_escaped_error {cs : List Char} {e : ReadError} (h : escaped cs = .error e) :
    textBody ('\\' :: cs) = .error e := by
  rw [textBody, if_neg (by decide), if_pos rfl]
  split
  next e' he =>
    rw [h] at he
    cases he
    rfl
  next x rest he => rw [h] at he; cases he

/-- Inside the number of a character the text has ended. -/
theorem hexNumber_torn {n : Nat} (hn : n < 16) (m : Nat) {cs : List Char}
    (h : Torn cs ['0', '0', hexDigit n, hexDigit m]) : hexNumber cs = .error .ended := by
  have hsize : ∀ n, n < 16 → (hexDigit n).utf8Size = 1 := by decide
  have hzero : ('0' : Char).utf8Size = 1 := by decide
  rcases h with _ | ⟨_, _ | ⟨_, _ | ⟨_, _ | ⟨_, h⟩⟩⟩⟩
  · rfl
  · simp [hexNumber, byteCount, hzero]
  · simp [hexNumber, byteCount, hzero]
  · simp [hexNumber, byteCount, hzero, hsize n hn]
  · cases h

/-- Inside the written form of a character the text has ended. -/
theorem textBody_torn_escapeChar {c : Char} {cs : List Char} (h : Torn cs (escapeChar c)) :
    textBody cs = .error .ended := by
  have hshort : ∀ {letter : Char}, Torn cs ['\\', letter] → textBody cs = .error .ended := by
    intro letter h
    cases h with
    | nil => rw [textBody]
    | cons _ h =>
        cases h.eq_nil
        exact textBody_of_escaped_error rfl
  unfold escapeChar at h
  split at h
  · exact hshort h
  split at h
  · exact hshort h
  split at h
  · exact hshort h
  split at h
  · exact hshort h
  split at h
  · exact hshort h
  split at h
  · exact hshort h
  split at h
  · exact hshort h
  split at h
  next hlow =>
    rcases h with _ | ⟨_, _ | ⟨_, h⟩⟩
    · rw [textBody]
    · exact textBody_of_escaped_error rfl
    · have hnumber := hexNumber_torn (by omega : c.toNat / 16 < 16) _ h
      have hu : shortEscape 'u' = none := by decide
      exact textBody_of_escaped_error (by simp [escaped, hu, numberedChar, hnumber])
  next =>
    cases h.eq_nil
    rw [textBody]

/-- **Before its closing quote a text has ended.** -/
theorem textBody_torn (s : List Char) {cs : List Char} (h : Torn cs (s.flatMap escapeChar ++ ['"'])) :
    textBody cs = .error .ended := by
  induction s generalizing cs with
  | nil =>
      rw [List.flatMap_nil, List.nil_append] at h
      cases h.eq_nil
      rw [textBody]
  | cons c s ih =>
      rw [List.flatMap_cons, List.append_assoc] at h
      obtain hchar | ⟨cs, rfl, hrest⟩ := h.cases_append
      · exact textBody_torn_escapeChar hchar
      · rw [textBody_escapeChar, ih hrest]
        rfl

/-! ### Readers -/

section Readers

variable {α β : Type}

/-- The reader comes to the end of what is left of the document, with a value or without one. -/
def Exhausts (r : Reader α) (t : Tree) : Prop :=
  ∀ l : Layout, l.IsBlank → ∀ (depth : Nat) {blank cs : List Char}, Blank blank →
    Torn cs (t.write l depth) →
      r.run (blank ++ cs) = .error .ended ∨ ∃ a, r.run (blank ++ cs) = .ok (a, [])

/-- The reader reports what is left of the document as ended. -/
def Breaks (r : Reader α) (t : Tree) : Prop :=
  ∀ l : Layout, l.IsBlank → ∀ (depth : Nat) {blank cs : List Char}, Blank blank →
    Torn cs (t.write l depth) → r.run (blank ++ cs) = .error .ended

theorem Breaks.exhausts {r : Reader α} {t : Tree} (h : Breaks r t) : Exhausts r t :=
  fun l hl depth _ _ hblank hcs => .inl (h l hl depth hblank hcs)

theorem Exhausts.map {r : Reader α} {t : Tree} (h : Exhausts r t) (f : α → β) :
    Exhausts (r.map f) t := by
  intro l hl depth blank cs hblank hcs
  obtain herror | ⟨a, hok⟩ := h l hl depth hblank hcs
  · exact .inl (Reader.run_map_error herror)
  · exact .inr ⟨f a, Reader.run_map_ok hok⟩

theorem Breaks.map {r : Reader α} {t : Tree} (h : Breaks r t) (f : α → β) : Breaks (r.map f) t := by
  intro l hl depth blank cs hblank hcs
  exact Reader.run_map_error (h l hl depth hblank hcs)

theorem Breaks.check {r : Reader α} {t : Tree} (h : Breaks r t) (f : α → Option β) :
    Breaks (r.check f) t := by
  intro l hl depth blank cs hblank hcs
  exact Reader.run_check_error (h l hl depth hblank hcs)

/-- What is left of a written value is read to its end. -/
def Codec.Exhausts (c : Codec α) : Prop := ∀ a, Json.Exhausts c.reader (c.tree a)

/-- What is left of a written value is reported as ended. -/
def Codec.Breaks (c : Codec α) : Prop := ∀ a, Json.Breaks c.reader (c.tree a)

theorem Codec.Breaks.exhausts {c : Codec α} (h : c.Breaks) : c.Exhausts := fun a => (h a).exhausts

theorem Codec.Breaks.refine {c : Codec α} (h : c.Breaks) (encode : β → α) (decode : α → Option β) :
    (c.refine encode decode).Breaks :=
  fun b => (h (encode b)).check decode

/-- **What is left of a written text is not parsed**, in any layout of white space. -/
theorem Codec.Breaks.parse_torn {c : Codec α} (h : c.Breaks) {l : Layout} (hl : l.IsBlank) (a : α)
    {cs : List Char} (hcs : Torn cs ((c.tree a).write l 0)) :
    c.parse (String.ofList cs) = .error .ended := by
  have hrun := h a l hl 0 blank_nil hcs
  rw [List.nil_append] at hrun
  rw [Codec.parse, String.toList_ofList, hrun]

end Readers

/-! ### Texts and numbers -/

theorem Codec.breaks_text : Codec.text.Breaks := by
  intro s l hl depth blank cs hblank hcs
  change textValue (blank ++ cs) = _
  change Torn cs (quote s) at hcs
  cases hcs with
  | nil => rw [List.append_nil, textValue, hblank.skip_eq_nil]
  | cons _ hcs =>
      rw [textValue, hblank.skip_append _ (by decide)]
      simp [textBody_torn s.toList hcs]

/-- What is left of the digits of a number are those of a smaller one. -/
theorem torn_decimal {n : Nat} {cs : List Char} (h : Torn cs (decimal n)) :
    cs = [] ∨ ∃ m, cs = decimal m ∧ 0 < m ∧ m ≤ n := by
  -- the last digit is split off, as in the definition: it is lost, and perhaps more
  induction n using Nat.strongRecOn generalizing cs with
  | _ n ih =>
      by_cases hn : n < 10
      · rw [decimal_of_lt hn] at h
        exact .inl h.eq_nil
      · rw [decimal_of_le (by omega)] at h
        obtain hfront | ⟨cs', rfl, hlast⟩ := h.cases_append
        · obtain rfl | ⟨m, rfl, hpos, hle⟩ := ih (n / 10) (by omega) hfront
          · exact .inl rfl
          · exact .inr ⟨m, rfl, hpos, by omega⟩
        · rw [hlast.eq_nil, List.append_nil]
          exact .inr ⟨n / 10, rfl, by omega, by omega⟩

/-- What is left of a whole number is a sign, or a number closer to zero. -/
theorem torn_writeInt {n : Int} {cs : List Char} (h : Torn cs (writeInt n)) :
    cs = [] ∨ cs = ['-'] ∨ ∃ m, cs = writeInt m ∧ (n ≤ m ∧ m ≤ 0 ∨ 0 ≤ m ∧ m ≤ n) := by
  unfold writeInt at h
  split at h
  next hneg =>
    cases h with
    | nil => exact .inl rfl
    | cons _ h =>
        obtain rfl | ⟨m, rfl, hpos, hle⟩ := torn_decimal h
        · exact .inr (.inl rfl)
        · refine .inr (.inr ⟨-(m : Int), ?_, .inl (by omega)⟩)
          rw [writeInt, if_pos (by omega), Int.natAbs_neg, Int.natAbs_natCast]
  next hneg =>
    obtain rfl | ⟨m, rfl, hpos, hle⟩ := torn_decimal h
    · exact .inl rfl
    · refine .inr (.inr ⟨(m : Int), ?_, .inr (by omega)⟩)
      rw [writeInt, if_neg (by omega), Int.natAbs_natCast]

/-- What is left of a whole number within bounds is read to its end. -/
theorem exhausts_readInt {low high n : Int} (hlow : low ≤ n ∧ low ≤ 0) (hhigh : n ≤ high ∧ 0 ≤ high)
    (hn : n.natAbs < UInt64.size) : Exhausts (readInt low high) (.number n) := by
  intro l hl depth blank cs hblank hcs
  obtain rfl | rfl | ⟨m, rfl, hm⟩ := torn_writeInt hcs
  · left
    rw [List.append_nil]
    change intValue low high blank = _
    rw [intValue, hblank.skip_eq_nil]
  · left
    change intValue low high (blank ++ ['-']) = _
    rw [intValue, hblank.skip_append _ (by decide)]
    rfl
  · right
    have hfinds : Finds (readInt low high) (.number m) m :=
      finds_readInt (by omega) (by omega) (by omega)
    have hrun := hfinds l hl depth hblank delimits_nil
    rw [List.append_nil] at hrun
    exact ⟨m, hrun⟩

theorem Codec.exhausts_uint64 : Codec.uint64.Exhausts := by
  intro n
  have hn : n.toNat < 18446744073709551616 := n.toNat_lt
  have hint : Json.Exhausts (readInt 0 0xFFFFFFFFFFFFFFFF) (.number n.toNat) :=
    exhausts_readInt (by omega) (by omega) (by simpa [UInt64.size] using hn)
  exact hint.map fun n => UInt64.ofNat n.toNat

theorem Codec.exhausts_int64 : Codec.int64.Exhausts := by
  intro n
  have hlow := Int64.le_toInt n
  have hhigh := Int64.toInt_lt n
  have hint : Json.Exhausts (readInt (-0x8000000000000000) 0x7FFFFFFFFFFFFFFF) (.number n.toInt) :=
    exhausts_readInt (by omega) (by omega) (by simp only [UInt64.size]; omega)
  exact hint.map Int64.ofInt

/-! ### Members -/

section Members

variable {σ : Type}

/-- Whatever was noted before, what is left of the value of one of these members is read to its end. -/
def ExhaustsAll (field : σ → String → Except ReadError (Reader σ)) (ms : List (String × Tree)) : Prop :=
  ∀ m ∈ ms, ∀ {acc : σ} {value : Reader σ}, field acc m.1 = .ok value → Exhausts value m.2

variable {field : σ → String → Except ReadError (Reader σ)} {acc acc' : σ}

/-- Nothing behind a member but white space: the object is not closed. -/
theorem members_of_skip_nil {cs after : List Char}
    (h : memberValue field acc cs = .ok (acc', after)) (hafter : skipBlank after = []) :
    members field acc cs = .error .ended := by
  rw [members_of_memberValue h, hafter]

/-- Behind a comma stands the next member. -/
theorem members_of_comma {cs after : List Char}
    (h : memberValue field acc cs = .ok (acc', ',' :: after)) : members field acc cs =
      match skipBlank after with
      | [] => .error .ended
      | c :: rest => if c = '"' then members field acc' rest else .error .malformed := by
  rw [members_of_memberValue h, skipBlank_cons_of_not_blank _ (by decide)]
  rfl

/-- A member is torn itself, or what stands behind it is. -/
theorem memberValue_torn {l : Layout} (hl : l.IsBlank) (depth : Nat) {name : String} {t : Tree}
    {value : Reader σ} (hfield : field acc name = .ok value) (hvalue : Finds value t acc')
    (hexhausts : Exhausts value t) {rest cs : List Char} (hrest : Delimits rest)
    (hcs : Torn cs
      (name.toList.flatMap escapeChar ++ '"' :: ':' :: (l.gap ++ (t.write l depth ++ rest)))) :
    memberValue field acc cs = .error .ended ∨
    (∃ a, memberValue field acc cs = .ok (a, [])) ∨
    ∃ after, Torn after rest ∧ memberValue field acc cs = .ok (acc', after) := by
  rw [List.append_cons] at hcs
  obtain hname | ⟨cs', rfl, hvalues⟩ := hcs.cases_append
  · left
    rw [memberValue, textBody_torn name.toList hname]
  -- the name is whole, so it depends on the colon and the value
  have hmember : ∀ cs, memberValue field acc ((name.toList.flatMap escapeChar ++ ['"']) ++ cs) =
      (colon cs).bind value.run := by
    intro cs
    rw [List.append_assoc, List.singleton_append]
    cases hcolon : colon cs <;>
      simp only [memberValue, textBody_escape, String.ofList_toList, hfield, hcolon, Except.bind]
  have hcolon : ∀ cs, colon (':' :: cs) = .ok cs := blank_nil.colon_append
  rw [hmember]
  rcases hvalues with _ | ⟨_, hvalues⟩
  · exact .inl rfl
  rw [hcolon, Except.bind]
  obtain hgap | ⟨cs, rfl, hbehind⟩ := hvalues.cases_append
  · obtain ⟨c, after, hwrite, -, -⟩ := t.write_eq_cons l depth
    have hnone : Torn [] (t.write l depth) := hwrite ▸ .nil c after
    have hrun := hexhausts l hl depth (hl.gap.torn hgap) hnone
    rw [List.append_nil] at hrun
    exact hrun.imp id .inl
  obtain hwrite | ⟨after, rfl, hafter⟩ := hbehind.cases_append
  · exact (hexhausts l hl depth hl.gap hwrite).imp id .inl
  · exact .inr (.inr ⟨after, hafter, hvalue l hl depth hl.gap (hrest.torn hafter)⟩)

/-- Before its closing bracket an object has ended. -/
theorem Takes.members_torn {l : Layout} (hl : l.IsBlank) (depth : Nat) {ms : List (String × Tree)} :
    ∀ {acc acc' : σ} {name : String} {t : Tree} {cs : List Char},
      Takes field acc ((name, t) :: ms) acc' → ExhaustsAll field ((name, t) :: ms) →
      Torn cs (name.toList.flatMap escapeChar ++ '"' :: ':' :: (l.gap ++
        (t.write l (depth + 1) ++ (Tree.writeMembers l (depth + 1) ms ++
          (l.line depth ++ [braceClose]))))) →
      members field acc cs = .error .ended := by
  induction ms with
  | nil =>
      intro acc acc' name t cs h hall hcs
      cases h with
      | cons hfield hvalue htail =>
          obtain herror | ⟨a, hok⟩ | ⟨after, hafter, hok⟩ := memberValue_torn hl (depth + 1) hfield hvalue
            (hall _ List.mem_cons_self hfield) (delimits_members hl depth [] []) hcs
          · exact members_of_error herror
          · exact members_of_skip_nil hok rfl
          · -- only white space is left of what stands in front of the bracket
            rw [Tree.writeMembers, List.nil_append] at hafter
            obtain hnone | ⟨cs', hcs', -⟩ := (hl.line depth).skip_torn (by decide) hafter
            · exact members_of_skip_nil hok hnone
            · cases hcs'
  | cons m ms ih =>
      intro acc acc' name t cs h hall hcs
      obtain ⟨name', t'⟩ := m
      cases h with
      | cons hfield hvalue htail =>
          obtain herror | ⟨a, hok⟩ | ⟨after, hafter, hok⟩ := memberValue_torn hl (depth + 1) hfield hvalue
            (hall _ List.mem_cons_self hfield) (delimits_members hl depth ((name', t') :: ms) []) hcs
          · exact members_of_error herror
          · exact members_of_skip_nil hok rfl
          · rw [Tree.writeMembers, List.cons_append] at hafter
            rcases hafter with _ | ⟨_, hnext⟩
            · exact members_of_skip_nil hok rfl
            rw [members_of_comma hok]
            rw [List.append_assoc, List.append_assoc, writeMember_append] at hnext
            obtain hnone | ⟨cs', hcs', hskip⟩ := (hl.line (depth + 1)).skip_torn (by decide) hnext
            · rw [hnone]
            · rw [hskip]
              exact ih htail (fun m hm => hall m (List.mem_cons_of_mem _ hm)) hcs'

/-- **Before its closing bracket an object has ended.** -/
theorem Takes.objectBody_torn {l : Layout} (hl : l.IsBlank) (depth : Nat)
    {ms : List (String × Tree)} (h : Takes field acc ms acc') (hall : ExhaustsAll field ms)
    {cs : List Char} (hcs : Torn cs ((Tree.object ms).write l depth)) :
    cs = [] ∨ ∃ body, cs = braceOpen :: body ∧ objectBody field acc body = .error .ended := by
  cases ms with
  | nil =>
      rw [Tree.write] at hcs
      rcases hcs with _ | ⟨_, hcs⟩
      · exact .inl rfl
      · rw [hcs.eq_nil]
        exact .inr ⟨[], rfl, rfl⟩
  | cons m ms =>
      obtain ⟨name, t⟩ := m
      rw [Tree.write] at hcs
      rcases hcs with _ | ⟨_, hcs⟩
      · exact .inl rfl
      refine .inr ⟨_, rfl, ?_⟩
      simp only [List.append_assoc] at hcs
      rw [writeMember_append] at hcs
      obtain hnone | ⟨cs', hcs', hskip⟩ := (hl.line (depth + 1)).skip_torn (by decide) hcs
      · rw [objectBody, hnone]
      · rw [objectBody, hskip]
        exact h.members_torn hl depth hall hcs'

end Members

/-! ### Tables and records -/

/-- What is left of a list of members is reported as ended. -/
theorem Codec.Exhausts.entries {α : Type} {c : Codec α} (h : c.Lawful) (hexhausts : c.Exhausts) :
    c.entries.Breaks := by
  intro es l hl depth blank cs hblank hcs
  have hall : ExhaustsAll (entry c.reader) (es.map fun e => (e.1, c.tree e.2)) := by
    intro m hm before value hvalue
    obtain ⟨e, -, rfl⟩ := List.mem_map.1 hm
    cases hvalue
    exact (hexhausts e.2).map _
  change entriesValue c.reader (blank ++ cs) = _
  obtain rfl | ⟨body, rfl, hbody⟩ := (h.takes_entry es []).objectBody_torn hl depth hall hcs
  · rw [List.append_nil, entriesValue, hblank.skip_eq_nil]
  · rw [entriesValue, hblank.skip_append _ (by decide)]
    exact hbody

/-- **What is left of a table is reported as ended.** -/
theorem Codec.Exhausts.table {α : Type} {c : Codec α} (h : c.Lawful) (hexhausts : c.Exhausts) :
    (Codec.table c).Breaks := by
  intro m
  change Json.Breaks (readTable c.reader) (c.entries.tree m.toList)
  rw [readTable_eq_map]
  exact (hexhausts.entries h m.toList).map SortedMap.ofList

/-- **What is left of a record is reported as ended.** -/
theorem Schema.breaks_codecOf {α : Type} (s : Schema α)
    (hs : ∀ f, (s.codec f).Lawful ∧ (s.codec f).Exhausts) : s.codecOf.Breaks := by
  intro a l hl depth blank cs hblank hcs
  have htakes := s.takes_memberTrees (fun f => (hs f).1) a s.nodup_order s.noSlots fun _ _ => rfl
  have hall : ExhaustsAll s.member (s.memberTrees a) := by
    intro m hm slots value hvalue
    obtain ⟨f, -, rfl⟩ := List.mem_map.1 hm
    cases hslot : slots f with
    | some v =>
        rw [s.member_of_noted (s.fieldNamed_name f) (by simp [hslot])] at hvalue
        cases hvalue
    | none =>
        rw [s.member_of_open (s.fieldNamed_name f) hslot] at hvalue
        cases hvalue
        exact ((hs f).2 (s.get a f)).map _
  change s.recordValue (blank ++ cs) = _
  obtain rfl | ⟨body, rfl, hbody⟩ := htakes.objectBody_torn hl depth hall hcs
  · rw [List.append_nil, recordValue, hblank.skip_eq_nil]
  · have hne : braceOpen ≠ '[' := by decide
    rw [recordValue, hblank.skip_append _ (by decide)]
    simp [hne, hbody]

end StudyTime.Json

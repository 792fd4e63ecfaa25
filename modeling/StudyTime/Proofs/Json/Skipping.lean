/-
**Every value is passed over to its end.**

The walk over a value of an unknown member keeps the brackets that are open.  It comes to the end of
a value with the same brackets that were open in front of it; so the walk goes on behind the value as
if nothing had stood there.  By induction on the value, this holds at every depth.

Main definitions:

* `Json.Opens` — texts that start with a token that closes nothing;
* `Json.Skips` — texts that the walk passes over.

Main results:

* `Json.Grammatical.skips` — **a value is passed over to its end**;
* `Json.Grammatical.run_skipValue` — the reader of a value that does not matter.
-/

import StudyTime.Proofs.Json.Grammar

set_option relaxedAutoImplicit false
set_option autoImplicit false

namespace StudyTime.Json

/-! ### One step of the walk -/

section Steps

variable {frames : List Frame} {cs rest rest' : List Char} {c : Char}

/-- The white space in front of a value does not matter, and the brackets of an empty list or object
are passed over together. -/
theorem skipFrom_value (h : skipBlank cs = c :: rest) :
    skipFrom .value frames cs =
      if c = '[' then
        match skipBlank rest with
        | [] => .error .ended
        | c' :: rest' =>
          if c' = ']' then skipFrom .more frames rest' else skipFrom .value (.list :: frames) rest
      else if c = braceOpen then
        match skipBlank rest with
        | [] => .error .ended
        | c' :: rest' =>
          if c' = braceClose then skipFrom .more frames rest'
          else if c' = '"' then skipFrom .member (.object :: frames) rest'
          else .error .malformed
      else
        match skipScalar (c :: rest) with
        | .error e => .error e
        | .ok rest' => skipFrom .more frames rest' := by
  conv => lhs; rw [skipFrom]
  split
  next he => rw [h] at he; cases he
  next c₁ rest₁ he =>
    rw [h] at he
    cases he
    split
    · split <;> simp_all
    · split
      · split <;> simp_all
      · split <;> simp_all

/-- Behind its name and the colon stands the value of a member. -/
theorem skipFrom_member (h : skipTextBody cs = .ok rest) (h' : colon rest = .ok rest') :
    skipFrom .member frames cs = skipFrom .value frames rest' := by
  conv => lhs; rw [skipFrom]
  split
  next e he => rw [h] at he; cases he
  next rest₁ he =>
    rw [h] at he
    cases he
    split
    next e he => rw [h'] at he; cases he
    next rest₂ he =>
      rw [h'] at he
      cases he
      rfl

/-- What stands behind an element decides how the walk goes on. -/
theorem skipFrom_more_list (h : skipBlank cs = c :: rest) :
    skipFrom .more (.list :: frames) cs =
      if c = ',' then skipFrom .value (.list :: frames) rest
      else if c = ']' then skipFrom .more frames rest
      else .error .malformed := by
  conv => lhs; rw [skipFrom]
  split
  next he => rw [h] at he; cases he
  next c₁ rest₁ he =>
    rw [h] at he
    cases he
    rfl

/-- What stands behind a member decides how the walk goes on. -/
theorem skipFrom_more_object (h : skipBlank cs = c :: rest) :
    skipFrom .more (.object :: frames) cs =
      if c = ',' then
        match skipBlank rest with
        | [] => .error .ended
        | c' :: rest' =>
          if c' = '"' then skipFrom .member (.object :: frames) rest' else .error .malformed
      else if c = braceClose then skipFrom .more frames rest
      else .error .malformed := by
  conv => lhs; rw [skipFrom]
  split
  next he => rw [h] at he; cases he
  next c₁ rest₁ he =>
    rw [h] at he
    cases he
    split
    · split <;> simp_all
    · rfl

theorem skipFrom_more_nil : skipFrom .more [] cs = .ok cs := by
  conv => lhs; rw [skipFrom]

end Steps

/-! ### Texts that are passed over -/

/-- The text starts with a token, and not with the bracket that closes a list. -/
def Opens (cs : List Char) : Prop := ∃ c tail, cs = c :: tail ∧ isBlank c = false ∧ c ≠ ']'

/-- The walk comes to the end of the text with the same brackets open. -/
structure Skips (cs : List Char) : Prop where
  opens : Opens cs
  skip : ∀ {frames : List Frame} {blank rest : List Char}, Blank blank → Delimits rest →
    skipFrom .value frames (blank ++ (cs ++ rest)) = skipFrom .more frames rest

/-- What is neither a list nor an object is passed over at once. -/
theorem skips_of_skipScalar {c : Char} {tail : List Char}
    (hc : isBlank c = false ∧ c ≠ ']' ∧ c ≠ '[' ∧ c ≠ braceOpen)
    (h : ∀ {rest : List Char}, Delimits rest → skipScalar (c :: (tail ++ rest)) = .ok rest) :
    Skips (c :: tail) := by
  obtain ⟨hblank, hclose, hlist, hobject⟩ := hc
  refine ⟨⟨c, tail, rfl, hblank, hclose⟩, ?_⟩
  intro frames blank rest hfront hrest
  rw [List.cons_append, skipFrom_value (hfront.skip_append _ hblank), if_neg hlist, if_neg hobject,
    h hrest]

theorem skips_word {w : String} (hw : w ∈ ["null", "true", "false"]) : Skips w.toList := by
  have hword : ∀ {c : Char} {tail rest : List Char}, wordTail c = some tail →
      skipScalar (c :: (tail ++ rest)) = .ok rest := by
    intro c tail rest htail
    simp only [skipScalar, htail, expectChars_append]
  simp only [List.mem_cons, List.not_mem_nil, or_false] at hw
  rcases hw with rfl | rfl | rfl
  · exact skips_of_skipScalar (c := 'n') (by decide) fun _ => hword rfl
  · exact skips_of_skipScalar (c := 't') (by decide) fun _ => hword rfl
  · exact skips_of_skipScalar (c := 'f') (by decide) fun _ => hword rfl

theorem IsText.skips {cs : List Char} (h : IsText cs) : Skips ('"' :: (cs ++ ['"'])) := by
  refine skips_of_skipScalar (by decide) fun {rest} _ => ?_
  have hquote : wordTail '"' = none := by decide
  simp only [skipScalar, hquote, if_true, List.append_assoc, List.cons_append, List.nil_append,
    h.skipTextBody_append]

theorem IsNumber.skips {cs : List Char} (h : IsNumber cs) : Skips cs := by
  obtain ⟨c, tail, rfl, hc⟩ := h.eq_cons
  have hword : wordTail c = none := by
    unfold wordTail
    split <;> first | rfl | exact absurd hc (by decide)
  refine skips_of_skipScalar ⟨not_isBlank_of_startsNumber hc, ?_⟩ ?_
  · refine ⟨?_, ?_, ?_⟩ <;> rintro rfl <;> exact absurd hc (by decide)
  · intro rest hrest
    have hne : c ≠ '"' := by
      rintro rfl
      exact absurd hc (by decide)
    have hskip := h.skipNumber_append hrest
    rw [List.cons_append] at hskip
    rw [skipScalar, hword]
    simp only [if_neg hne, hc, if_true, hskip]

/-! ### Lists and objects -/

/-- The elements of a list are passed over one after the other, and its closing bracket. -/
theorem Row.skip_list {cs : List Char} {items : List (List Char)} (h : Row Eq cs items)
    (hitems : ∀ item ∈ items, Skips item) (frames : List Frame) (rest : List Char) :
    skipFrom .value (.list :: frames) (cs ++ ']' :: rest) = skipFrom .more frames rest := by
  induction h with
  | one hfront heq hback =>
      subst heq
      have hitem := hitems _ List.mem_cons_self
      simp only [List.append_assoc]
      rw [hitem.skip hfront (hback.delimits_append _ (by decide)),
        skipFrom_more_list (hback.skip_append _ (by decide))]
      rfl
  | cons hfront heq hback _ ih =>
      subst heq
      obtain ⟨hitem, hitems⟩ := List.forall_mem_cons.1 hitems
      simp only [List.append_assoc, List.cons_append]
      rw [hitem.skip hfront (hback.delimits_append _ (by decide)),
        skipFrom_more_list (hback.skip_append _ (by decide)), if_pos rfl]
      exact ih hitems

/-- A member is passed over from behind the opening quote of its name. -/
theorem skipFrom_memberText {name between front value rest : List Char} (hname : IsText name)
    (hbetween : Blank between) (hfront : Blank front) (hvalue : Skips value) (hrest : Delimits rest)
    (frames : List Frame) :
    skipFrom .member frames
      (name ++ '"' :: (between ++ ':' :: (front ++ (value ++ rest)))) =
        skipFrom .more frames rest := by
  rw [skipFrom_member (hname.skipTextBody_append _) (hbetween.colon_append _), hvalue.skip hfront hrest]

/-- The members of an object are passed over one after the other, and its closing bracket. -/
theorem Row.skip_object {N : List Char → List Char → Prop}
    (hN : ∀ {name n : List Char}, N name n → IsText name) {cs : List Char}
    {ms : List (List Char × List Char)} (h : Row (MemberText N) cs ms) (hms : ∀ m ∈ ms, Skips m.2)
    (frames : List Frame) (rest : List Char) :
    ∃ body, skipBlank (cs ++ braceClose :: rest) = '"' :: body ∧
      skipFrom .member (.object :: frames) body = skipFrom .more frames rest := by
  induction h with
  | one hfront hm hback =>
      cases hm with
      | mk hname hbetween hgap =>
          have hvalue := hms _ List.mem_cons_self
          simp only [List.append_assoc, List.cons_append]
          refine ⟨_, hfront.skip_append _ (by decide), ?_⟩
          rw [skipFrom_memberText (hN hname) hbetween hgap hvalue
              (hback.delimits_append _ (by decide)),
            skipFrom_more_object (hback.skip_append _ (by decide))]
          rfl
  | cons hfront hm hback _ ih =>
      cases hm with
      | mk hname hbetween hgap =>
          obtain ⟨hvalue, hms⟩ := List.forall_mem_cons.1 hms
          obtain ⟨body, hbody, hskip⟩ := ih hms
          simp only [List.append_assoc, List.cons_append]
          refine ⟨_, hfront.skip_append _ (by decide), ?_⟩
          rw [skipFrom_memberText (hN hname) hbetween hgap hvalue
              (hback.delimits_append _ (by decide)),
            skipFrom_more_object (hback.skip_append _ (by decide)), if_pos rfl, hbody]
          simp only [if_true, hskip]

/-- White space in front of the first piece is passed over. -/
theorem Row.opens {ι : Type} {P : List Char → ι → Prop} {cs : List Char} {is : List ι}
    (h : Row P cs is) (hP : ∀ {cs : List Char} {i : ι}, P cs i → i ∈ is → Opens cs)
    (rest : List Char) : Opens (skipBlank (cs ++ rest)) := by
  cases h with
  | one hfront hi _ =>
      obtain ⟨c, tail, rfl, hc⟩ := hP hi List.mem_cons_self
      simp only [List.append_assoc, List.cons_append]
      exact ⟨c, _, hfront.skip_append _ hc.1, hc⟩
  | cons hfront hi _ _ =>
      obtain ⟨c, tail, rfl, hc⟩ := hP hi List.mem_cons_self
      simp only [List.append_assoc, List.cons_append]
      exact ⟨c, _, hfront.skip_append _ hc.1, hc⟩

/-- A bracket opens, unless it is the one that closes a list. -/
theorem Enclosed.opens {opening closing : Char} {ι : Type} {P : List Char → ι → Prop}
    {cs : List Char} {is : List ι} (h : Enclosed opening closing P cs is)
    (hopening : isBlank opening = false ∧ opening ≠ ']') : Opens cs := by
  cases h with
  | none => exact ⟨opening, _, rfl, hopening⟩
  | row => exact ⟨opening, _, rfl, hopening⟩

theorem skips_list {cs : List Char} {items : List (List Char)} (h : ListText Eq cs items)
    (hitems : ∀ item ∈ items, Skips item) : Skips cs := by
  refine ⟨h.opens (by decide), ?_⟩
  intro frames blank rest hfront _
  cases h with
  | none hblank =>
      simp only [List.cons_append, List.append_assoc, List.nil_append]
      rw [skipFrom_value (hfront.skip_append _ (by decide)), if_pos rfl,
        hblank.skip_append _ (by decide)]
      rfl
  | row hrow =>
      have hopens : ∀ {cs item : List Char}, cs = item → item ∈ items → Opens cs := by
        rintro cs _ rfl hmem
        exact (hitems cs hmem).opens
      obtain ⟨c, tail, hhead, -, hc⟩ := hrow.opens hopens (']' :: rest)
      simp only [List.cons_append, List.append_assoc, List.nil_append]
      rw [skipFrom_value (hfront.skip_append _ (by decide)), if_pos rfl, hhead]
      simp only [if_neg hc]
      exact hrow.skip_list hitems frames rest

theorem skips_object {N : List Char → List Char → Prop}
    (hN : ∀ {name n : List Char}, N name n → IsText name) {cs : List Char}
    {ms : List (List Char × List Char)} (h : ObjectText N cs ms) (hms : ∀ m ∈ ms, Skips m.2) :
    Skips cs := by
  refine ⟨h.opens (by decide), ?_⟩
  intro frames blank rest hfront _
  have hne : braceOpen ≠ '[' := by decide
  cases h with
  | none hblank =>
      simp only [List.cons_append, List.append_assoc, List.nil_append]
      rw [skipFrom_value (hfront.skip_append _ (by decide)), if_neg hne, if_pos rfl,
        hblank.skip_append _ (by decide)]
      rfl
  | row hrow =>
      obtain ⟨body, hbody, hskip⟩ := hrow.skip_object hN hms frames rest
      simp only [List.cons_append, List.append_assoc, List.nil_append]
      rw [skipFrom_value (hfront.skip_append _ (by decide)), if_neg hne, if_pos rfl, hbody]
      exact hskip

/-- **A value is passed over to its end.** -/
theorem Grammatical.skips {cs : List Char} (h : Grammatical cs) : Skips cs := by
  induction h with
  | word hw => exact skips_word hw
  | number h => exact h.skips
  | text h => exact h.skips
  | list h _ ih => exact skips_list h ih
  | object h _ ih =>
      refine skips_object ?_ h ih
      rintro name _ ⟨rfl, hname⟩
      exact hname

/-- **The reader of a value that does not matter comes to the end of the value.** -/
theorem Grammatical.run_skipValue {cs blank rest : List Char} (h : Grammatical cs)
    (hblank : Blank blank) (hrest : Delimits rest) :
    skipValue.run (blank ++ (cs ++ rest)) = .ok ((), rest) := by
  change anyValue (blank ++ (cs ++ rest)) = _
  rw [anyValue, h.skips.skip hblank hrest, skipFrom_more_nil]

end StudyTime.Json

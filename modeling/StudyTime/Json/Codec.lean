/-
**Codecs: a type with its written form and its reader.**

A codec says how the values of a type are turned into documents and how they are read back.  The
basic codecs are those for texts and for whole numbers within bounds; lists and tables are built
from a codec for their elements.

Main definitions:

* `Codec`, `Codec.parse`, `Codec.compact`, `Codec.spread` — codecs, and reading and writing whole
  texts with them;
* `Codec.text`, `Codec.uint64`, `Codec.int64` — the basic codecs;
* `memberValue`, `members` — one member of an object, and the loop over all of them;
* `Codec.list`, `Codec.table` — lists, and objects that map names to values.
-/

import StudyTime.SortedMap
import StudyTime.Json.Skip
import StudyTime.Json.Tree

set_option relaxedAutoImplicit false
set_option autoImplicit false

namespace StudyTime.Json

/-- A type with its written form and its reader. -/
structure Codec (α : Type) where
  tree : α → Tree
  reader : Reader α

namespace Codec

variable {α β : Type}

/-- Reads a whole text: a value, and nothing but white space behind it. -/
def parse (c : Codec α) (text : String) : Except ReadError α :=
  match c.reader.run text.toList with
  | .error e => .error e
  | .ok (a, rest) =>
    match skipBlank rest with
    | [] => .ok a
    | _ :: _ => .error .malformed

/-- The text for a value, nothing between its tokens. -/
def compact (c : Codec α) (a : α) : String := String.ofList ((c.tree a).write .compact 0)

/-- The text for a value, a line for every element. -/
def spread (c : Codec α) (a : α) : String := String.ofList ((c.tree a).write .spread 0)

/-- The codec of a type whose values correspond to some values of another. -/
def refine (c : Codec α) (encode : β → α) (decode : α → Option β) : Codec β where
  tree b := c.tree (encode b)
  reader := c.reader.check decode

end Codec

/-! ### Texts and numbers -/

/-- A text at the front of what is ahead. -/
def textValue (cs : List Char) : Except ReadError (String × List Char) :=
  match skipBlank cs with
  | [] => .error .ended
  | c :: rest =>
    if c = '"' then
      match textBody rest with
      | .error e => .error e
      | .ok (s, rest) => .ok (String.ofList s, rest)
    else .error (wrongType (c :: rest))

theorem length_le_of_textValue {cs : List Char} {s : String} {rest : List Char}
    (h : textValue cs = .ok (s, rest)) : rest.length ≤ cs.length := by
  unfold textValue at h
  split at h
  · cases h
  next c cs' h' =>
    have := length_lt_of_skipBlank h'
    split at h
    · split at h
      · cases h
      next h'' =>
        cases h
        have := length_lt_of_textBody h''
        omega
    · cases h

/-- Reads a text. -/
def readText : Reader String := ⟨textValue, length_le_of_textValue⟩

/-- A whole number within bounds at the front of what is ahead. -/
def intValue (low high : Int) (cs : List Char) : Except ReadError (Int × List Char) :=
  match skipBlank cs with
  | [] => .error .ended
  | c :: rest =>
    if startsNumber c then
      match readNumber (c :: rest) with
      | .error e => .error e
      | .ok (none, _) => .error .mismatch
      | .ok (some n, rest) => if low ≤ n ∧ n ≤ high then .ok (n, rest) else .error .mismatch
    else .error (wrongType (c :: rest))

theorem length_le_of_intValue {low high n : Int} {cs rest : List Char}
    (h : intValue low high cs = .ok (n, rest)) : rest.length ≤ cs.length := by
  unfold intValue at h
  split at h
  · cases h
  next c cs' h' =>
    have := length_lt_of_skipBlank h'
    split at h
    · split at h
      · cases h
      · cases h
      next h'' =>
        split at h
        · cases h
          have := length_lt_of_readNumber h''
          simp only [List.length_cons] at this
          omega
        · cases h
    · cases h

/-- Reads a whole number within bounds. -/
def readInt (low high : Int) : Reader Int := ⟨intValue low high, length_le_of_intValue⟩

/-- Texts. -/
def Codec.text : Codec String := ⟨.text, readText⟩

/-- Durations: whole numbers from zero to the largest of 64 bits. -/
def Codec.uint64 : Codec UInt64 where
  tree n := .number n.toNat
  reader := (readInt 0 0xFFFFFFFFFFFFFFFF).map fun n => UInt64.ofNat n.toNat

/-- Instants: whole numbers of 64 bits with their sign. -/
def Codec.int64 : Codec Int64 where
  tree n := .number n.toInt
  reader := (readInt (-0x8000000000000000) 0x7FFFFFFFFFFFFFFF).map Int64.ofInt

/-! ### Lists -/

/-- Looks for the next element of a list: nothing before the closing bracket, otherwise the text
that starts with the element. -/
def nextItem (first : Bool) (cs : List Char) : Except ReadError (Option (List Char)) :=
  match skipBlank cs with
  | [] => .error .ended
  | c :: rest =>
    if c = ']' then .ok none
    else if first then .ok (some (c :: rest))
    else if c = ',' then
      match skipBlank rest with
      | [] => .error .ended
      | c' :: rest' => if c' = ']' then .error .malformed else .ok (some (c' :: rest'))
    else .error .malformed

/-- Passes over the closing bracket of a list that holds no further element. -/
def closeList (cs : List Char) : Except ReadError (List Char) :=
  match skipBlank cs with
  | [] => .error .ended
  | c :: rest => if c = ']' then .ok rest else .error .malformed

theorem length_le_of_nextItem {first : Bool} {cs rest : List Char}
    (h : nextItem first cs = .ok (some rest)) : rest.length ≤ cs.length := by
  unfold nextItem at h
  split at h
  · cases h
  next c cs' h' =>
    have := length_lt_of_skipBlank h'
    split at h
    · cases h
    · split at h
      · cases h
        simp only [List.length_cons]
        omega
      · split at h
        · split at h
          · cases h
          next h'' =>
            have := length_lt_of_skipBlank h''
            split at h
            · cases h
            · cases h
              simp only [List.length_cons]
              omega
        · cases h

theorem length_lt_of_nextItem {cs rest : List Char}
    (h : nextItem false cs = .ok (some rest)) : rest.length < cs.length := by
  unfold nextItem at h
  split at h
  · cases h
  next c cs' h' =>
    have := length_lt_of_skipBlank h'
    split at h
    · cases h
    · simp only [Bool.false_eq_true, if_false] at h
      split at h
      · split at h
        · cases h
        next h'' =>
          have := length_lt_of_skipBlank h''
          split at h
          · cases h
          · cases h
            simp only [List.length_cons]
            omega
      · cases h

theorem length_le_of_closeList {cs rest : List Char} (h : closeList cs = .ok rest) :
    rest.length ≤ cs.length := by
  unfold closeList at h
  split at h
  · cases h
  next h' =>
    have := length_lt_of_skipBlank h'
    split at h
    · cases h
      omega
    · cases h

/-- Reads the elements of a list behind its first one, up to the closing bracket. -/
def moreItems {α : Type} (r : Reader α) (cs : List Char) :
    Except ReadError (List α × List Char) :=
  match h : nextItem false cs with
  | .error e => .error e
  | .ok none => .ok ([], cs)
  | .ok (some rest) =>
    match h' : r.run rest with
    | .error e => .error e
    | .ok (a, rest') =>
      have := length_lt_of_nextItem h
      have := r.shortens h'
      match moreItems r rest' with
      | .error e => .error e
      | .ok (as, rest'') => .ok (a :: as, rest'')
termination_by cs.length

theorem length_le_of_moreItems {α : Type} {r : Reader α} {cs : List Char} :
    ∀ {as : List α} {rest : List Char}, moreItems r cs = .ok (as, rest) →
      rest.length ≤ cs.length := by
  fun_induction moreItems r cs with
  | case1 => simp
  | case2 =>
    intro as rest h
    cases h
    exact Nat.le_refl _
  | case3 => simp
  | case4 => simp
  | case5 cs rest₀ hnext a rest₁ hrun hlt hle as₀ rest₂ hmore ih =>
    intro as rest h
    cases h
    have := ih hmore
    omega

/-- Reads all elements of a list, from behind its opening bracket up to its closing one. -/
def allItems {α : Type} (r : Reader α) (cs : List Char) : Except ReadError (List α × List Char) :=
  match nextItem true cs with
  | .error e => .error e
  | .ok none => .ok ([], cs)
  | .ok (some rest) =>
    match r.run rest with
    | .error e => .error e
    | .ok (a, rest') =>
      match moreItems r rest' with
      | .error e => .error e
      | .ok (as, rest'') => .ok (a :: as, rest'')

theorem length_le_of_allItems {α : Type} {r : Reader α} {cs rest : List Char} {as : List α}
    (h : allItems r cs = .ok (as, rest)) : rest.length ≤ cs.length := by
  unfold allItems at h
  split at h
  · cases h
  · cases h
    exact Nat.le_refl _
  next hnext =>
    have := length_le_of_nextItem hnext
    split at h
    · cases h
    next hrun =>
      have := r.shortens hrun
      split at h
      · cases h
      next hmore =>
        cases h
        have := length_le_of_moreItems hmore
        omega

/-- A list of values at the front of what is ahead. -/
def listValue {α : Type} (r : Reader α) (cs : List Char) : Except ReadError (List α × List Char) :=
  match skipBlank cs with
  | [] => .error .ended
  | c :: rest =>
    if c = '[' then
      match allItems r rest with
      | .error e => .error e
      | .ok (as, rest) =>
        match closeList rest with
        | .error e => .error e
        | .ok rest => .ok (as, rest)
    else .error (wrongType (c :: rest))

theorem length_le_of_listValue {α : Type} {r : Reader α} {cs rest : List Char} {as : List α}
    (h : listValue r cs = .ok (as, rest)) : rest.length ≤ cs.length := by
  unfold listValue at h
  split at h
  · cases h
  next h₀ =>
    have := length_lt_of_skipBlank h₀
    split at h
    · split at h
      · cases h
      next h₁ =>
        have := length_le_of_allItems h₁
        split at h
        · cases h
        next h₂ =>
          cases h
          have := length_le_of_closeList h₂
          omega
    · cases h

/-- Reads a list of values. -/
def readList {α : Type} (r : Reader α) : Reader (List α) := ⟨listValue r, length_le_of_listValue⟩

/-- Lists of values. -/
def Codec.list {α : Type} (c : Codec α) : Codec (List α) where
  tree as := .list (as.map c.tree)
  reader := readList c.reader

/-! ### Members -/

/-- Reads one member of an object, from behind the opening quote of its name.  What was read so far
and the name decide at once whether the member is welcome and how its value is read. -/
def memberValue {σ : Type} (field : σ → String → Except ReadError (Reader σ)) (acc : σ)
    (cs : List Char) : Except ReadError (σ × List Char) :=
  match textBody cs with
  | .error e => .error e
  | .ok (name, afterName) =>
    match field acc (String.ofList name) with
    | .error e => .error e
    | .ok value =>
      match colon afterName with
      | .error e => .error e
      | .ok afterColon => value.run afterColon

theorem length_lt_of_memberValue {σ : Type}
    {field : σ → String → Except ReadError (Reader σ)} {acc acc' : σ} {cs rest : List Char}
    (h : memberValue field acc cs = .ok (acc', rest)) : rest.length < cs.length := by
  unfold memberValue at h
  split at h
  · cases h
  next hname =>
    have := length_lt_of_textBody hname
    split at h
    · cases h
    next value _ =>
      split at h
      · cases h
      next hcolon =>
        have := length_lt_of_colon hcolon
        have := value.shortens h
        omega

/-- Reads the members of an object one after the other, from behind the opening quote of a name up
to the closing bracket, and passes over that bracket. -/
def members {σ : Type} (field : σ → String → Except ReadError (Reader σ)) (acc : σ)
    (cs : List Char) : Except ReadError (σ × List Char) :=
  match h₁ : memberValue field acc cs with
  | .error e => .error e
  | .ok (acc', afterValue) =>
    match h₂ : skipBlank afterValue with
    | [] => .error .ended
    | c :: rest =>
      have := length_lt_of_memberValue h₁
      have := length_lt_of_skipBlank h₂
      if c = braceClose then .ok (acc', rest)
      else if c = ',' then
        match h₃ : skipBlank rest with
        | [] => .error .ended
        | c' :: rest' =>
          have := length_lt_of_skipBlank h₃
          if c' = '"' then members field acc' rest' else .error .malformed
      else .error .malformed
termination_by cs.length

theorem length_lt_of_members {σ : Type} {field : σ → String → Except ReadError (Reader σ)}
    {acc : σ} {cs : List Char} :
    ∀ {acc' : σ} {rest : List Char}, members field acc cs = .ok (acc', rest) →
      rest.length < cs.length := by
  fun_induction members field acc cs with
  -- the closing bracket stands behind the value
  | case3 acc cs acc' afterValue hvalue afterBracket hmember hskip hbracket =>
      intro acc'' rest h
      cases h
      exact Nat.lt_trans hbracket hmember
  -- a comma stands there, and another name
  | case5 acc cs acc' afterValue hvalue afterComma hmember afterQuote hskip hcomma hne hskip' hquote ih =>
      intro acc'' rest h
      have hrest : rest.length < afterQuote.length := ih h
      omega
  -- something else stands there, or the value cannot be read
  | _ =>
      intro acc' rest h
      cases h

/-- Reads an object from behind its opening bracket. -/
def objectBody {σ : Type} (field : σ → String → Except ReadError (Reader σ)) (acc : σ)
    (cs : List Char) : Except ReadError (σ × List Char) :=
  match skipBlank cs with
  | [] => .error .ended
  | c :: rest =>
    if c = braceClose then .ok (acc, rest)
    else if c = '"' then members field acc rest
    else .error .malformed

theorem length_le_of_objectBody {σ : Type} {field : σ → String → Except ReadError (Reader σ)}
    {acc acc' : σ} {cs rest : List Char} (h : objectBody field acc cs = .ok (acc', rest)) :
    rest.length ≤ cs.length := by
  unfold objectBody at h
  split at h
  · cases h
  next h₀ =>
    have := length_lt_of_skipBlank h₀
    split at h
    · cases h
      omega
    · split at h
      · have := length_lt_of_members h
        omega
      · cases h

/-! ### Tables -/

/-- An object whose names are the keys of a map, at the front of what is ahead.  Of members with one
name the last counts. -/
def tableValue {α : Type} (r : Reader α) (cs : List Char) :
    Except ReadError (SortedMap String α × List Char) :=
  match skipBlank cs with
  | [] => .error .ended
  | c :: rest =>
    if c = braceOpen then
      objectBody (fun m name => .ok (r.map fun a => SortedMap.insert m name a)) ∅ rest
    else .error (wrongType (c :: rest))

theorem length_le_of_tableValue {α : Type} {r : Reader α} {cs rest : List Char}
    {m : SortedMap String α} (h : tableValue r cs = .ok (m, rest)) : rest.length ≤ cs.length := by
  unfold tableValue at h
  split at h
  · cases h
  next h₀ =>
    have := length_lt_of_skipBlank h₀
    split at h
    · have := length_le_of_objectBody h
      omega
    · cases h

/-- Reads an object whose names are the keys of a map. -/
def readTable {α : Type} (r : Reader α) : Reader (SortedMap String α) :=
  ⟨tableValue r, length_le_of_tableValue⟩

/-- Maps from names to values. -/
def Codec.table {α : Type} (c : Codec α) : Codec (SortedMap String α) where
  tree m := .object (m.toList.map fun e => (e.1, c.tree e.2))
  reader := readTable c.reader

end StudyTime.Json

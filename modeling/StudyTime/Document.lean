/-
**Documents and the keys under which they are kept.**

A document of a profile is kept as a text under the name of its cache and the name of the profile.

Main definitions:

* `DocumentKey` — the two names;
* `DocumentType` — how the values of a type are kept: the value that stands for no document, the
  text for a value and the value of a text, where what is written for a value is read back as it;
* `Json.Codec.documentType` — the documents of a lawful codec.
-/

import StudyTime.SortedMap
import StudyTime.Proofs.Json.Codecs

set_option relaxedAutoImplicit false
set_option autoImplicit false

namespace StudyTime

/-- The names under which a document is kept. -/
@[ext] structure DocumentKey where
  cache : String
  profile : String
  deriving DecidableEq, Repr

/-- Keys compare by the cache, and by the profile within a cache. -/
instance : KeyOrder DocumentKey where
  cmp a b := KeyOrder.cmp (a.cache, a.profile) (b.cache, b.profile)
  eq_of_cmp {a b} h := by
    have h := KeyOrder.eq_of_cmp h
    simp only [Prod.mk.injEq] at h
    exact DocumentKey.ext h.1 h.2
  cmp_self _ := KeyOrder.cmp_self _
  cmp_swap _ _ := KeyOrder.cmp_swap _ _
  cmp_trans h h' := KeyOrder.cmp_trans h h'

/-- How the values of a type are kept. -/
structure DocumentType (α : Type) where
  /-- The value of a document that is not kept. -/
  blank : α
  /-- The text for a value, if there is one. -/
  encode : α → Option String
  decode : String → Except Json.ReadError α
  /-- The text for a value has this value. -/
  decode_encode : ∀ {a : α} {text : String}, encode a = some text → decode text = .ok a

/-- Values kept in their written form. -/
def Json.Codec.documentType {α : Type} (c : Json.Codec α) (h : c.Lawful) (blank : α) :
    DocumentType α where
  blank := blank
  encode a := some (c.compact a)
  decode := c.parse
  decode_encode {a text} htext := by
    cases htext
    exact h.parse_compact a

end StudyTime

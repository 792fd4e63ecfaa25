/-
**What is kept about a topic: how long it was studied, and until when.**

A session is merged into the record of its topic.  Time adds up as long as the topic is taken up
again within the staleness limit; after a longer pause the record starts over with the session.

Main definitions:

* `TopicRecord` — the record of a topic;
* `TopicRecord.isStale`, `TopicRecord.merge` — whether the pause was too long, and merging a session;
* `TopicRecord.codec` — the written form.
-/

import StudyTime.Saturating
import StudyTime.Proofs.Json.Schemas

set_option relaxedAutoImplicit false
set_option autoImplicit false

namespace StudyTime

/-- The record of a topic. -/
@[ext] structure TopicRecord where
  topic : String
  total : UInt64
  /-- The instant of the last session. -/
  updated : Int64
  deriving DecidableEq, Repr

namespace TopicRecord

/-- The record of a topic that was never studied. -/
def zero : TopicRecord := ⟨"", 0, 0⟩

instance : Inhabited TopicRecord := ⟨zero⟩

/-- Whether more than `staleness` milliseconds have passed since the last session. -/
def isStale (r : TopicRecord) (now : Int64) (staleness : UInt64) : Bool :=
  staleness < Saturating.elapsed now r.updated

/-- The record after a session that lasted `duration` and is merged now. -/
def merge (r : TopicRecord) (duration : UInt64) (now : Int64) (staleness : UInt64) : TopicRecord :=
  { topic := r.topic
    total := if r.isStale now staleness then duration else Saturating.add r.total duration
    updated := now }

/-- The fields of a record. -/
inductive Field where
  | topic
  | total
  | updated
  deriving DecidableEq, Repr

/-- The types of the fields. -/
abbrev Field.Value : Field → Type
  | .topic => String
  | .total => UInt64
  | .updated => Int64

/-- The names of the fields. -/
def Field.name : Field → String
  | .topic => "topicId"
  | .total => "topicLearningTimeMs"
  | .updated => "lastUpdatedTimeMs"

/-- The fields with their names and types; none may be left out. -/
def schema : Json.Schema TopicRecord where
  Field := Field
  order := [.topic, .total, .updated]
  mem_order f := by cases f <;> decide
  nodup_order := by decide
  Value := Field.Value
  name := Field.name
  name_injective {f g} h := by cases f <;> cases g <;> first | rfl | exact absurd h (by decide)
  codec
    | .topic => .text
    | .total => .uint64
    | .updated => .int64
  default _ := none
  get r
    | .topic => r.topic
    | .total => r.total
    | .updated => r.updated
  make v := ⟨v .topic, v .total, v .updated⟩
  make_get _ := rfl
  get_make v := by
    funext f
    cases f <;> rfl

/-- The written form of records. -/
def codec : Json.Codec TopicRecord := schema.codecOf

theorem lawful_codec : codec.Lawful := by
  refine schema.lawful_codecOf fun f => ?_
  cases f with
  | topic => exact Json.Codec.lawful_text
  | total => exact Json.Codec.lawful_uint64
  | updated => exact Json.Codec.lawful_int64

end TopicRecord

end StudyTime

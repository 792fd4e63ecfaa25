/-
**The ledger of a profile: the records of its topics.**

Main definitions:

* `Ledger` — the records of a profile by topic;
* `Ledger.get?`, `Ledger.recordSession` — looking a topic up, and recording a session;
* `Ledger.codec` — the written form.
-/

import StudyTime.TopicRecord

set_option relaxedAutoImplicit false
set_option autoImplicit false

namespace StudyTime

/-- The records of a profile. -/
@[ext] structure Ledger where
  topics : SortedMap String TopicRecord

namespace Ledger

/-- The ledger of a profile that never studied. -/
def blank : Ledger := ⟨∅⟩

instance : Inhabited Ledger := ⟨blank⟩

/-- The record of a topic. -/
def get? (l : Ledger) (topic : String) : Option TopicRecord := l.topics.get? topic

/-- The record of a topic after a session: merged into the one there is, or else new. -/
def sessionRecord (l : Ledger) (topic : String) (duration : UInt64) (now : Int64)
    (staleness : UInt64) : TopicRecord :=
  match l.get? topic with
  | some r => r.merge duration now staleness
  | none => ⟨topic, duration, now⟩

/-- Records a session that lasted `duration` and ends now. -/
def recordSession (l : Ledger) (topic : String) (duration : UInt64) (now : Int64)
    (staleness : UInt64) : Ledger :=
  ⟨l.topics.insert topic (l.sessionRecord topic duration now staleness)⟩

/-- A session changes the record of its topic only. -/
theorem get?_recordSession (l : Ledger) (topic topic' : String) (duration : UInt64) (now : Int64)
    (staleness : UInt64) :
    (l.recordSession topic duration now staleness).get? topic' =
      if topic' = topic then some (l.sessionRecord topic duration now staleness) else l.get? topic' :=
  l.topics.get?_insert topic topic' _

/-- All records in the order of their topics. -/
def toList (l : Ledger) : List (String × TopicRecord) := l.topics.toList

/-- The one field of a ledger. -/
inductive Field where
  | topics
  deriving DecidableEq, Repr

/-- The fields with their names and types; without records the ledger is blank. -/
def schema : Json.Schema Ledger where
  Field := Field
  order := [.topics]
  mem_order f := by cases f; decide
  nodup_order := by decide
  Value _ := SortedMap String TopicRecord
  name _ := "aggregateTopicLearningTime"
  name_injective {f g} _ := by cases f; cases g; rfl
  codec _ := .table TopicRecord.codec
  default _ := some ∅
  get l _ := l.topics
  make v := ⟨v .topics⟩
  make_get _ := rfl
  get_make v := by
    funext f
    cases f
    rfl

/-- The written form of ledgers. -/
def codec : Json.Codec Ledger := schema.codecOf

theorem lawful_codec : codec.Lawful :=
  schema.lawful_codecOf fun _ => TopicRecord.lawful_codec.table

end Ledger

end StudyTime

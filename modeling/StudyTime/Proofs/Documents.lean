/-
**What is written is read back.**

The codecs of topic records, ledgers, sessions, profiles, tracker states and settings are lawful, so
each value is found in its text.  A text that was not written by this program need not be the text of
the value it is read as: fields may be missing or in another order, and a ledger may give a topic more
than once.  Writing that value again gives a text that stays as it is.

The records of a ledger are read here as the list of members that the text has, none of them lost.  The
ledger is then the map in which of repeated topics the last record counts, and its topics stand in the
order of their bytes.

Main definitions:

* `RoundTrips` — printing and parsing that fit each other;
* `Ledger.draft`, `Ledger.entriesCodec` — the records of a ledger as the text has them;
* `Ledger.Sorts` — the ledger with these records.

Main results:

* `Ledger.parse_eq_map` — **a text is parsed as the ledger with the records that the text has**;
* `documents_round_trip` — **study time, sessions, profiles and tracker states are read back**;
* `settings_round_trip` — **settings are read back from either layout**.
-/

import StudyTime.Ledger
import StudyTime.Settings
import StudyTime.Tracker
import StudyTime.Proofs.SessionId
import StudyTime.Proofs.TextOrder
import StudyTime.Proofs.TimeOfDay

set_option relaxedAutoImplicit false
set_option autoImplicit false

namespace StudyTime

open Json (ReadError)

/-! ### Round trips -/

/-- Printing and parsing that fit each other. -/
structure RoundTrips {α : Type} (print : α → String) (parse : String → Except ReadError α) :
    Prop where
  /-- What was printed is parsed as the value that was printed. -/
  reads_back : ∀ a, parse (print a) = .ok a
  /-- Printing what was parsed and parsing it again changes neither the value nor its text. -/
  settles : ∀ text a, parse text = .ok a →
    ∃ b, parse (print a) = .ok b ∧ b = a ∧ print b = print a

section Lawful

variable {α : Type} {c : Json.Codec α}

theorem roundTrips_of_reads_back {print : α → String} {parse : String → Except ReadError α}
    (h : ∀ a, parse (print a) = .ok a) : RoundTrips print parse :=
  ⟨h, fun _ a _ => ⟨a, h a, rfl, rfl⟩⟩

theorem Json.Codec.Lawful.roundTrips_compact (h : c.Lawful) : RoundTrips c.compact c.parse :=
  roundTrips_of_reads_back h.parse_compact

theorem Json.Codec.Lawful.roundTrips_spread (h : c.Lawful) : RoundTrips c.spread c.parse :=
  roundTrips_of_reads_back h.parse_spread

end Lawful

/-! ### Lawful codecs -/

theorem Profile.lawful_codec : Profile.codec.Lawful := Json.Codec.lawful_text

theorem SessionId.lawful_codec : SessionId.codec.Lawful :=
  Json.Codec.lawful_text.refine SessionId.ofText?_text

theorem Session.lawful_codec : Session.codec.Lawful := by
  refine Session.schema.lawful_codecOf fun f => ?_
  cases f with
  | id => exact SessionId.lawful_codec
  | profile => exact Profile.lawful_codec
  | topic => exact Json.Codec.lawful_text
  | started => exact Json.Codec.lawful_int64
  | stopped => exact Json.Codec.lawful_int64
  | active => exact Json.Codec.lawful_uint64

theorem Status.lawful_codec : Status.codec.Lawful := by
  refine Json.Codec.lawful_choice ?_ ?_
  · intro a b h
    cases a <;> cases b <;> first | rfl | exact absurd h (by decide)
  · intro a
    cases a <;> decide

theorem TimeOfDay.lawful_codec : TimeOfDay.codec.Lawful :=
  Json.Codec.lawful_text.refine TimeOfDay.ofText?_text

theorem LearningSettings.lawful_codec : LearningSettings.codec.Lawful :=
  LearningSettings.schema.lawful_codecOf fun _ => Json.Codec.lawful_uint64

theorem SurveySettings.lawful_codec : SurveySettings.codec.Lawful := by
  refine SurveySettings.schema.lawful_codecOf fun f => ?_
  cases f with
  | windowStart => exact TimeOfDay.lawful_codec
  | windowEnd => exact TimeOfDay.lawful_codec
  | cooldown => exact Json.Codec.lawful_uint64
  | threshold => exact Json.Codec.lawful_uint64

theorem Settings.lawful_codec : Settings.codec.Lawful := by
  refine Settings.schema.lawful_codecOf fun f => ?_
  cases f with
  | learning => exact LearningSettings.lawful_codec
  | survey => exact SurveySettings.lawful_codec

/-! ### The records of a ledger as the text has them -/

namespace Ledger

/-- The one field of a ledger as the list of its members. -/
def draft : schema.Draft (List (String × TopicRecord)) where
  Value _ := List (String × TopicRecord)
  codec _ := .entries TopicRecord.codec
  default _ := some []
  get es _ := es
  make v := v .topics
  make_get _ := rfl
  get_make v := by
    funext f
    cases f
    rfl
  translate _ := SortedMap.ofList
  reader_eq _ := Json.readTable_eq_map TopicRecord.codec.reader
  default_eq _ := rfl

/-- The documents of ledgers, read as the list of records in the order of the text. -/
def entriesCodec : Json.Codec (List (String × TopicRecord)) := draft.schema.codecOf

theorem lawful_entriesCodec : entriesCodec.Lawful :=
  draft.schema.lawful_codecOf fun _ => TopicRecord.lawful_codec.entries

/-- **A text is parsed as the ledger with the records that the text has.** -/
theorem parse_eq_map (text : String) :
    codec.parse text = (entriesCodec.parse text).map draft.final :=
  Json.Codec.parse_of_reader_eq_map draft.reader_eq_map text

theorem compact_eq (l : Ledger) : codec.compact l = entriesCodec.compact l.toList := rfl

/-- The ledger with these records, of which the last one of a topic counts.  Its topics stand in the
order of their bytes, without repetition. -/
structure Sorts (es : List (String × TopicRecord)) (l : Ledger) : Prop where
  last : ∀ topic, l.get? topic = SortedMap.lookup topic es.reverse
  increasing : l.toList.Pairwise fun e e' => BytesBefore (utf8 e.1) (utf8 e'.1)

theorem toList_increasing (l : Ledger) :
    l.toList.Pairwise fun e e' => BytesBefore (utf8 e.1) (utf8 e'.1) :=
  l.topics.sorted.imp bytesBefore_utf8

theorem sorts_final (es : List (String × TopicRecord)) : Sorts es (draft.final es) :=
  ⟨SortedMap.get?_ofList es, toList_increasing _⟩

/-- Where a text is parsed as a ledger, the text has records, and these are the records of the ledger. -/
theorem sorts_of_parse {text : String} {l : Ledger} (h : codec.parse text = .ok l) :
    ∃ es, entriesCodec.parse text = .ok es ∧ Sorts es l := by
  rw [parse_eq_map] at h
  cases hes : entriesCodec.parse text with
  | error e =>
      rw [hes] at h
      cases h
  | ok es =>
      rw [hes] at h
      cases h
      exact ⟨es, rfl, sorts_final es⟩

end Ledger

/-! ### All documents -/

/-- **Study time, sessions, profiles and tracker states are read back** from their texts.  The text of
a ledger may repeat and shuffle its topics, in any layout: its records are parsed as they stand, and
the ledger has the last one of each topic, written again in the order of the bytes of the topics. -/
theorem documents_round_trip :
    RoundTrips TopicRecord.codec.compact TopicRecord.codec.parse ∧
    RoundTrips Ledger.codec.compact Ledger.codec.parse ∧
    RoundTrips Session.codec.compact Session.codec.parse ∧
    RoundTrips Profile.codec.compact Profile.codec.parse ∧
    RoundTrips Status.codec.compact Status.codec.parse ∧
    (∀ text l, Ledger.codec.parse text = .ok l →
      ∃ es, Ledger.entriesCodec.parse text = .ok es ∧ Ledger.Sorts es l ∧
        Ledger.entriesCodec.parse (Ledger.codec.compact l) = .ok l.toList) ∧
    (∀ es (layout : Json.Layout), layout.IsBlank →
      ∃ l, let text := String.ofList ((Ledger.entriesCodec.tree es).write layout 0)
        Ledger.entriesCodec.parse text = .ok es ∧ Ledger.codec.parse text = .ok l ∧
          Ledger.Sorts es l) := by
  refine ⟨TopicRecord.lawful_codec.roundTrips_compact, Ledger.lawful_codec.roundTrips_compact,
    Session.lawful_codec.roundTrips_compact, Profile.lawful_codec.roundTrips_compact,
    Status.lawful_codec.roundTrips_compact, ?_, ?_⟩
  · intro text l h
    obtain ⟨es, hes, hsorts⟩ := Ledger.sorts_of_parse h
    refine ⟨es, hes, hsorts, ?_⟩
    rw [Ledger.compact_eq]
    exact Ledger.lawful_entriesCodec.parse_compact l.toList
  · intro es layout hlayout
    have hes := Ledger.lawful_entriesCodec.parse_write hlayout es
    refine ⟨Ledger.draft.final es, hes, ?_, Ledger.sorts_final es⟩
    rw [Ledger.parse_eq_map, hes]
    rfl

/-- A topic that stands twice has the record that stands last, and the one between stays. -/
theorem documents_round_trip_repeated :
    let es : List (String × TopicRecord) :=
      [("topic", ⟨"topic", 1, 1⟩), ("other", ⟨"topic", 2, 2⟩), ("topic", ⟨"topic", 3, 3⟩)]
    ∃ l, Ledger.codec.parse (Ledger.entriesCodec.compact es) = .ok l ∧
      l.get? "topic" = some ⟨"topic", 3, 3⟩ ∧ l.get? "other" = some ⟨"topic", 2, 2⟩ := by
  intro es
  obtain ⟨-, -, -, -, -, -, hwritten⟩ := documents_round_trip
  obtain ⟨l, -, hl, hsorts⟩ := hwritten es .compact Json.Layout.isBlank_compact
  refine ⟨l, hl, ?_, ?_⟩
  · rw [hsorts.last]
    rfl
  · rw [hsorts.last]
    rfl

/-- **Settings are read back from either layout**, and different times of day have different texts. -/
theorem settings_round_trip :
    RoundTrips Settings.codec.compact Settings.codec.parse ∧
    RoundTrips Settings.codec.spread Settings.codec.parse ∧
    RoundTrips SurveySettings.codec.compact SurveySettings.codec.parse ∧
    RoundTrips SurveySettings.codec.spread SurveySettings.codec.parse ∧
    RoundTrips LearningSettings.codec.compact LearningSettings.codec.parse ∧
    RoundTrips LearningSettings.codec.spread LearningSettings.codec.parse ∧
    ∀ t t' : TimeOfDay, t.text = t'.text → t = t' :=
  ⟨Settings.lawful_codec.roundTrips_compact, Settings.lawful_codec.roundTrips_spread,
    SurveySettings.lawful_codec.roundTrips_compact, SurveySettings.lawful_codec.roundTrips_spread,
    LearningSettings.lawful_codec.roundTrips_compact, LearningSettings.lawful_codec.roundTrips_spread,
    fun _ _ => TimeOfDay.eq_of_text_eq⟩

/-- A survey window that ends in the middle of a leap second is read back. -/
theorem settings_round_trip_leap_second :
    let windowEnd : TimeOfDay :=
      ⟨79199, 1500000000, by decide, by decide, by decide⟩
    let s : Settings := { Settings.usual with survey := { SurveySettings.usual with windowEnd } }
    windowEnd.text = "21:59:60.500" ∧ Settings.codec.parse (Settings.codec.spread s) = .ok s := by
  intro windowEnd s
  obtain ⟨-, hspread, -⟩ := settings_round_trip
  exact ⟨by decide, hspread.reads_back s⟩

end StudyTime

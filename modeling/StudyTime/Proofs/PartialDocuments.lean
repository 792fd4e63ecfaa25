/-
**Documents that were written by hand are read.**

A document may leave fields out, give them in any order, mix them with members of other names, and put
white space between its tokens.  It is read as the document with the fields that it gives and with the
declared defaults of all others.  Where a field without a default is left out, or a field is given twice,
the document is refused.  The parts of the settings are documents of the same kind, so a part that gives
one field has the usual values in its others.

Main definitions:

* `TopicRecord.texts`, `Ledger.texts`, `Session.texts`, `LearningSettings.texts`, `SurveySettings.texts`,
  `Settings.texts` — the texts for the values of their fields.

Main results:

* `partial_documents_read` — **every document is read from any selection and order of its fields**.
-/

import StudyTime.Proofs.Documents
import StudyTime.Proofs.Json.Tolerance

set_option relaxedAutoImplicit false
set_option autoImplicit false

namespace StudyTime

open Json (Around Blank Grammatical Hex MemberText NamedObject Names Spelling blank_nil spelled_self)
open Json.Schema (Completes fields nodup_fields_single)

/-! ### The texts of fields -/

namespace TopicRecord

/-- The texts for the values of the fields. -/
def texts : ∀ f : Field, Spelling f.Value
  | .topic => .text
  | .total => .uint64
  | .updated => .int64

theorem knownTo_texts (f : Field) : (texts f).KnownTo (schema.codec f).reader := by
  cases f with
  | topic => exact Spelling.knownTo_text
  | total => exact Spelling.knownTo_uint64
  | updated => exact Spelling.knownTo_int64

end TopicRecord

namespace Ledger

/-- The texts for tables of records. -/
def texts (_ : Field) : Spelling (SortedMap String TopicRecord) :=
  (TopicRecord.schema.spelling TopicRecord.texts).table

theorem knownTo_texts (f : Field) : (texts f).KnownTo (schema.codec f).reader :=
  (Json.Schema.knownTo_spelling TopicRecord.knownTo_texts).table

end Ledger

namespace Session

/-- The texts for the values of the fields. -/
def texts : ∀ f : Field, Spelling f.Value
  | .id => Spelling.text.refine SessionId.ofText?
  | .profile => .text
  | .topic => .text
  | .started => .int64
  | .stopped => .int64
  | .active => .uint64

theorem knownTo_texts (f : Field) : (texts f).KnownTo (schema.codec f).reader := by
  cases f with
  | id => exact Spelling.knownTo_text.refine SessionId.text SessionId.ofText?
  | profile => exact Spelling.knownTo_text
  | topic => exact Spelling.knownTo_text
  | started => exact Spelling.knownTo_int64
  | stopped => exact Spelling.knownTo_int64
  | active => exact Spelling.knownTo_uint64

end Session

namespace LearningSettings

/-- The texts for the pause after which a record starts over. -/
def texts (_ : Field) : Spelling UInt64 := .uint64

theorem knownTo_texts (f : Field) : (texts f).KnownTo (schema.codec f).reader :=
  Spelling.knownTo_uint64

theorem tolerates : schema.Tolerates texts codec.parse := Json.Schema.tolerates knownTo_texts

end LearningSettings

namespace SurveySettings

/-- The texts for the values of the fields. -/
def texts : ∀ f : Field, Spelling f.Value
  | .windowStart => Spelling.text.refine TimeOfDay.ofText?
  | .windowEnd => Spelling.text.refine TimeOfDay.ofText?
  | .cooldown => .uint64
  | .threshold => .uint64

theorem knownTo_texts (f : Field) : (texts f).KnownTo (schema.codec f).reader := by
  cases f with
  | windowStart => exact Spelling.knownTo_text.refine TimeOfDay.text TimeOfDay.ofText?
  | windowEnd => exact Spelling.knownTo_text.refine TimeOfDay.text TimeOfDay.ofText?
  | cooldown => exact Spelling.knownTo_uint64
  | threshold => exact Spelling.knownTo_uint64

theorem tolerates : schema.Tolerates texts codec.parse := Json.Schema.tolerates knownTo_texts

end SurveySettings

namespace Settings

/-- The texts for the parts, which may leave fields out. -/
def texts : ∀ f : Field, Spelling f.Value
  | .learning => LearningSettings.schema.spelling LearningSettings.texts
  | .survey => SurveySettings.schema.spelling SurveySettings.texts

theorem knownTo_texts (f : Field) : (texts f).KnownTo (schema.codec f).reader := by
  cases f with
  | learning => exact Json.Schema.knownTo_spelling LearningSettings.knownTo_texts
  | survey => exact Json.Schema.knownTo_spelling SurveySettings.knownTo_texts

theorem tolerates : schema.Tolerates texts codec.parse := Json.Schema.tolerates knownTo_texts

variable {text : String} {cs : List Char}

/-- Settings of which one part is given have the usual values in the other one. -/
theorem parse_part {f : Field} {v : f.Value} (hv : texts f cs v)
    (htext : Around (NamedObject · [(f.name, cs)]) text) :
    ∃ s, codec.parse text = .ok s ∧ s.get f = v ∧ ∀ g, g ≠ f → s.get g = usual.get g := by
  obtain ⟨front, body, back, hfront, hbody, hback, rfl⟩ := htext
  have hobject : schema.ObjectFor texts body [⟨f, v⟩] := ⟨_, hbody, schema.gives_single f hv⟩
  obtain ⟨s, hs, hparse⟩ := tolerates.completes ⟨front, body, back, hfront, hobject, hback, rfl⟩
    (nodup_fields_single _) fun _ _ => rfl
  refine ⟨s, hparse, hs.given _ List.mem_cons_self, fun g hg => ?_⟩
  exact (Option.some.inj (hs.default g (mt List.mem_singleton.1 hg))).symm

/-- In a part for topic records that leaves its field out, the field has its own usual value. -/
theorem parse_learning {gs : List LearningSettings.schema.Given}
    (hcs : LearningSettings.schema.ObjectFor LearningSettings.texts cs gs)
    (hnodup : (fields gs).Nodup) (htext : Around (NamedObject · [("learningTime", cs)]) text) :
    ∃ v, Completes gs v ∧ codec.parse text = .ok ⟨v, .usual⟩ := by
  obtain ⟨v, hv, -⟩ := LearningSettings.tolerates.completes
    ⟨[], cs, [], blank_nil, hcs, blank_nil, rfl⟩ hnodup fun _ _ => rfl
  obtain ⟨s, hparse, hlearning, hother⟩ := parse_part (f := .learning) (.object hcs hnodup hv) htext
  refine ⟨v, hv, hparse.trans (congrArg _ ?_)⟩
  exact Settings.ext hlearning (hother .survey (by decide))

/-- In a part for surveys that gives some fields, all others have their own usual values. -/
theorem parse_survey {gs : List SurveySettings.schema.Given}
    (hcs : SurveySettings.schema.ObjectFor SurveySettings.texts cs gs) (hnodup : (fields gs).Nodup)
    (htext : Around (NamedObject · [("gating", cs)]) text) :
    ∃ v, Completes gs v ∧ codec.parse text = .ok ⟨.usual, v⟩ := by
  obtain ⟨v, hv, -⟩ := SurveySettings.tolerates.completes
    ⟨[], cs, [], blank_nil, hcs, blank_nil, rfl⟩ hnodup fun _ _ => rfl
  obtain ⟨s, hparse, hsurvey, hother⟩ := parse_part (f := .survey) (.object hcs hnodup hv) htext
  refine ⟨v, hv, hparse.trans (congrArg _ ?_)⟩
  exact Settings.ext (hother .learning (by decide)) hsurvey

end Settings

/-! ### All documents -/

/-- **Every document is read from any selection and order of its fields**, and a part of the settings
that leaves fields out has the usual values in these. -/
theorem partial_documents_read :
    Settings.schema.Tolerates Settings.texts Settings.codec.parse ∧
    LearningSettings.schema.Tolerates LearningSettings.texts LearningSettings.codec.parse ∧
    SurveySettings.schema.Tolerates SurveySettings.texts SurveySettings.codec.parse ∧
    TopicRecord.schema.Tolerates TopicRecord.texts TopicRecord.codec.parse ∧
    Ledger.schema.Tolerates Ledger.texts Ledger.codec.parse ∧
    Session.schema.Tolerates Session.texts Session.codec.parse ∧
    (∀ {text : String} {cs : List Char} {gs : List LearningSettings.schema.Given},
      Around (NamedObject · [("learningTime", cs)]) text →
      LearningSettings.schema.ObjectFor LearningSettings.texts cs gs → (fields gs).Nodup →
      ∃ v, Completes gs v ∧ Settings.codec.parse text = .ok ⟨v, .usual⟩) ∧
    (∀ {text : String} {cs : List Char} {gs : List SurveySettings.schema.Given},
      Around (NamedObject · [("gating", cs)]) text →
      SurveySettings.schema.ObjectFor SurveySettings.texts cs gs → (fields gs).Nodup →
      ∃ v, Completes gs v ∧ Settings.codec.parse text = .ok ⟨.usual, v⟩) :=
  ⟨Settings.tolerates, LearningSettings.tolerates, SurveySettings.tolerates,
    Json.Schema.tolerates TopicRecord.knownTo_texts, Json.Schema.tolerates Ledger.knownTo_texts,
    Json.Schema.tolerates Session.knownTo_texts,
    fun htext hcs hnodup => Settings.parse_learning hcs hnodup htext,
    fun htext hcs hnodup => Settings.parse_survey hcs hnodup htext⟩

/-- A part of the settings that stands behind an unknown member, under an escaped name, and gives one
field; a record without fields, as an object and as a list; and a field whose second value is no value. -/
theorem partial_documents_read_gating :
    Settings.codec.parse
      "\x7b\"x\": [[]], \"\\u0067ating\": \x7b\"thresholdMs\": 60000\x7d \x7d" =
        .ok { Settings.usual with survey := { SurveySettings.usual with threshold := 60000 } } ∧
    TopicRecord.codec.parse "[ ]" = TopicRecord.codec.parse " \x7b\x7d" ∧
    TopicRecord.codec.parse " \x7b\x7d" = .error .mismatch ∧
    LearningSettings.codec.parse "\x7b\"stalenessMs\": 1,\"stalenessMs\": \x7d" = .error .mismatch := by
  obtain ⟨hsettings, hlearning, -, hrecord, -⟩ := partial_documents_read
  have hspace : Blank [' '] := by
    intro c hc
    rw [List.mem_singleton.1 hc]
    decide
  have hplain : ∀ name : String, name.toList.all Json.isPlain = true → Names name.toList name :=
    fun _ h => spelled_self h
  have hmember : ∀ {body : List Char} {name : String} (value : List Char), Names body name →
      MemberText Names ('"' :: (body ++ '"' :: ':' :: ' ' :: value)) (name, value) :=
    fun _ h => .mk h blank_nil hspace
  have hempty : Around (TopicRecord.schema.ObjectFor TopicRecord.texts · []) " \x7b\x7d" :=
    ⟨[' '], _, [], hspace, ⟨_, .none blank_nil, .nil⟩, blank_nil, rfl⟩
  have hnone : Around (TopicRecord.schema.ListFor TopicRecord.texts · []) "[ ]" :=
    ⟨[], _, [], blank_nil, ⟨.none hspace, List.nil_prefix⟩, blank_nil, rfl⟩
  refine ⟨?_, hrecord.list hnone hempty .nil,
    hrecord.missing (f := .topic) hempty List.nodup_nil List.not_mem_nil rfl, ?_⟩
  · let part : SurveySettings := { SurveySettings.usual with threshold := 60000 }
    -- the part gives the threshold, and has the usual values elsewhere
    obtain ⟨inner, hinner, hpart⟩ : ∃ inner, inner = "\x7b\"thresholdMs\": 60000\x7d".toList ∧
        Settings.texts .survey inner part := by
      have hobject : NamedObject _ [(SurveySettings.Field.threshold.name, "60000".toList)] :=
        .row (.one blank_nil (hmember _ (hplain "thresholdMs" (by decide))) blank_nil)
      have hvalue : SurveySettings.texts .threshold "60000".toList part.threshold := by
        change "60000".toList = _
        decide +kernel
      refine ⟨_, rfl, .object ⟨_, hobject, SurveySettings.schema.gives_single .threshold hvalue⟩ (nodup_fields_single _) ?_⟩
      refine ⟨fun g hg => ?_, fun f hf => ?_⟩
      · rw [List.mem_singleton.1 hg]
        rfl
      · cases f <;> first | rfl | exact absurd List.mem_cons_self hf
    have hname : Names "\\u0067ating".toList "gating" :=
      .number (@Hex.mk '0' '0' '6' '7' 0 0 6 7 rfl rfl rfl rfl) rfl rfl (hplain "ating" (by decide))
    have hobject : NamedObject _ [("x", "[[]]".toList), (Settings.Field.survey.name, inner)] :=
      .row (.cons blank_nil (hmember _ (hplain "x" (by decide))) blank_nil
        (.one hspace (hmember _ hname) hspace))
    have hx : ∀ f : Settings.Field, f.name ≠ "x" := by
      intro f
      cases f <;> decide
    have hlist : Grammatical "[[]]".toList :=
      .list (.row (@Json.Row.one _ Eq [] "[]".toList [] _ blank_nil rfl blank_nil))
        (List.forall_mem_singleton.2 (.list (.none blank_nil) (List.forall_mem_nil _)))
    have hgives : Settings.schema.ObjectFor Settings.texts _ [⟨.survey, part⟩] :=
      ⟨_, hobject, .unknown hx hlist (Settings.schema.gives_single .survey hpart)⟩
    obtain ⟨s, hs, hparse⟩ := hsettings.completes ⟨[], _, [], blank_nil, hgives, blank_nil, rfl⟩
      (nodup_fields_single _) fun _ _ => rfl
    have hlearning : s.learning = LearningSettings.usual := by
      refine (Option.some.inj (hs.default .learning fun h => ?_)).symm
      cases List.mem_singleton.1 h
    have hsurvey : s.survey = part := hs.given _ List.mem_cons_self
    subst hinner
    exact hparse.trans (congrArg _ (Settings.ext hlearning hsurvey))
  · have hname : Names "stalenessMs".toList "stalenessMs" := hplain _ (by decide)
    have hobject : NamedObject _ [("stalenessMs", "1".toList), ("stalenessMs", [])] :=
      .row (.cons blank_nil (hmember _ hname) blank_nil (.one blank_nil (hmember [] hname) blank_nil))
    have hvalue : LearningSettings.texts .staleness "1".toList 1 := by
      change "1".toList = _
      decide +kernel
    exact @Json.Schema.Tolerates.repeated _ _ _ _ hlearning _ [("stalenessMs", "1".toList)] [] _
      .staleness [] ⟨[], _, [], blank_nil, hobject, blank_nil, rfl⟩ (LearningSettings.schema.gives_single .staleness hvalue)
      List.mem_cons_self

end StudyTime

/-
**Settings.**

The settings say after which pause the record of a topic starts over, and when surveys are shown:
between which times of day, how long after the last one, and after how much study.

Main definitions:

* `LearningSettings`, `SurveySettings`, `Settings` — settings with their usual values;
* `Settings.isValid`, `Settings.validate` — the survey window ends after it starts;
* `Settings.codec` and those of its parts — the written forms; a field left out takes its usual
  value.
-/

import StudyTime.Clock
import StudyTime.Failure
import StudyTime.Json.Schema

set_option relaxedAutoImplicit false
set_option autoImplicit false

namespace StudyTime

/-! ### Topic records -/

/-- Settings for topic records. -/
@[ext] structure LearningSettings where
  /-- The longest pause after which time still adds up, in milliseconds. -/
  staleness : UInt64
  deriving DecidableEq, Repr

namespace LearningSettings

/-- Ten days. -/
def usual : LearningSettings := ⟨UInt64.ofNat (10 * dayMillis)⟩

instance : Inhabited LearningSettings := ⟨usual⟩

/-- The one field. -/
inductive Field where
  | staleness
  deriving DecidableEq, Repr

/-- The fields with their names, types and usual values. -/
def schema : Json.Schema LearningSettings where
  Field := Field
  order := [.staleness]
  mem_order f := by cases f; decide
  nodup_order := by decide
  Value _ := UInt64
  name _ := "stalenessMs"
  name_injective {f g} _ := by cases f; cases g; rfl
  codec _ := .uint64
  default _ := some usual.staleness
  get s _ := s.staleness
  make v := ⟨v .staleness⟩
  make_get _ := rfl
  get_make v := by
    funext f
    cases f
    rfl

/-- The written form. -/
def codec : Json.Codec LearningSettings := schema.codecOf

end LearningSettings

/-! ### Surveys -/

/-- The written form of a time of day. -/
def TimeOfDay.codec : Json.Codec TimeOfDay := Json.Codec.text.refine TimeOfDay.text TimeOfDay.ofText?

/-- Settings for surveys. -/
@[ext] structure SurveySettings where
  /-- Surveys are shown after this time of day. -/
  windowStart : TimeOfDay
  /-- Surveys are shown before this time of day. -/
  windowEnd : TimeOfDay
  /-- The time without surveys after each one, in milliseconds. -/
  cooldown : UInt64
  /-- The time that a topic has to be studied, in milliseconds. -/
  threshold : UInt64
  deriving DecidableEq, Repr

namespace SurveySettings

/-- From nine to twenty-two o'clock, thirty days, five minutes. -/
def usual : SurveySettings where
  windowStart := .ofMinute 9 0 (by decide)
  windowEnd := .ofMinute 22 0 (by decide)
  cooldown := UInt64.ofNat (30 * dayMillis)
  threshold := UInt64.ofNat (5 * minuteMillis)

instance : Inhabited SurveySettings := ⟨usual⟩

/-- The fields of survey settings. -/
inductive Field where
  | windowStart
  | windowEnd
  | cooldown
  | threshold
  deriving DecidableEq, Repr

/-- The types of the fields. -/
abbrev Field.Value : Field → Type
  | .windowStart => TimeOfDay
  | .windowEnd => TimeOfDay
  | .cooldown => UInt64
  | .threshold => UInt64

/-- The names of the fields. -/
def Field.name : Field → String
  | .windowStart => "windowStart"
  | .windowEnd => "windowEnd"
  | .cooldown => "cooldownMs"
  | .threshold => "thresholdMs"

/-- The values of the fields. -/
def get (s : SurveySettings) : ∀ f : Field, f.Value
  | .windowStart => s.windowStart
  | .windowEnd => s.windowEnd
  | .cooldown => s.cooldown
  | .threshold => s.threshold

/-- The fields with their names, types and usual values. -/
def schema : Json.Schema SurveySettings where
  Field := Field
  order := [.windowStart, .windowEnd, .cooldown, .threshold]
  mem_order f := by cases f <;> decide
  nodup_order := by decide
  Value := Field.Value
  name := Field.name
  name_injective {f g} h := by cases f <;> cases g <;> first | rfl | exact absurd h (by decide)
  codec
    | .windowStart => TimeOfDay.codec
    | .windowEnd => TimeOfDay.codec
    | .cooldown => .uint64
    | .threshold => .uint64
  default f := some (usual.get f)
  get := get
  make v := ⟨v .windowStart, v .windowEnd, v .cooldown, v .threshold⟩
  make_get _ := rfl
  get_make v := by
    funext f
    cases f <;> rfl

/-- The written form. -/
def codec : Json.Codec SurveySettings := schema.codecOf

end SurveySettings

/-! ### All settings -/

/-- All settings. -/
@[ext] structure Settings where
  learning : LearningSettings
  survey : SurveySettings
  deriving DecidableEq, Repr

namespace Settings

/-- The usual values. -/
def usual : Settings := ⟨.usual, .usual⟩

instance : Inhabited Settings := ⟨usual⟩

/-- The survey window ends after it starts. -/
def isValid (s : Settings) : Bool := s.survey.windowStart.before s.survey.windowEnd

/-- Refuses settings that are not valid. -/
def validate (s : Settings) : Except Failure Unit :=
  if s.isValid then .ok () else .error (.window s.survey.windowStart s.survey.windowEnd)

/-- The parts of the settings. -/
inductive Field where
  | learning
  | survey
  deriving DecidableEq, Repr

/-- The types of the parts. -/
abbrev Field.Value : Field → Type
  | .learning => LearningSettings
  | .survey => SurveySettings

/-- The names of the parts. -/
def Field.name : Field → String
  | .learning => "learningTime"
  | .survey => "gating"

/-- The values of the parts. -/
def get (s : Settings) : ∀ f : Field, f.Value
  | .learning => s.learning
  | .survey => s.survey

/-- The parts with their names, types and usual values. -/
def schema : Json.Schema Settings where
  Field := Field
  order := [.learning, .survey]
  mem_order f := by cases f <;> decide
  nodup_order := by decide
  Value := Field.Value
  name := Field.name
  name_injective {f g} h := by cases f <;> cases g <;> first | rfl | exact absurd h (by decide)
  codec
    | .learning => LearningSettings.codec
    | .survey => SurveySettings.codec
  default f := some (usual.get f)
  get := get
  make v := ⟨v .learning, v .survey⟩
  make_get _ := rfl
  get_make v := by
    funext f
    cases f <;> rfl

/-- The written form. -/
def codec : Json.Codec Settings := schema.codecOf

end Settings

end StudyTime

/-
**When a survey may be shown.**

Three conditions have to hold, each of them on its own data: it is the right time of day, the last
survey is long enough ago, and the topic was studied long enough.

Main definitions: `Survey.inWindow`, `Survey.cooledDown`, `Survey.studiedEnough`.
-/

import StudyTime.Saturating
import StudyTime.TimeOfDay

set_option relaxedAutoImplicit false
set_option autoImplicit false

namespace StudyTime.Survey

/-- The time lies strictly between the two bounds. -/
def inWindow (now start stop : TimeOfDay) : Bool := start.before now && now.before stop

/-- More than `cooldown` milliseconds have passed since the last survey.  An instant that is not
positive counts as no survey; one that lies ahead tells nothing, so the cooldown still runs. -/
def cooledDown (now : Int64) (lastShown : Option Int64) (cooldown : UInt64) : Bool :=
  match lastShown with
  | none => true
  | some shown => shown ≤ 0 || cooldown < Saturating.elapsed now shown

/-- The time studied reaches the threshold. -/
def studiedEnough (total threshold : UInt64) : Bool := threshold ≤ total

end StudyTime.Survey

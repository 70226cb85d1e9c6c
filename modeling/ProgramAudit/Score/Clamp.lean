import ProgramAudit.Json.Convert

namespace ProgramAudit.Score

/-- Scores lie between zero and one hundred. -/
def clamp (score : Int) : Int := max 0 (min 100 score)

/-- The nearest bound if a value passes it, without a fraction. An undefined value counts as the
upper bound. -/
def bounded (low high value : Number) : Result Int :=
  let capped := if value.less high then value else high
  let kept := if low.less capped then capped else low
  match kept with
  | .int value => .ok value
  | .real value => Json.wholePart value

end ProgramAudit.Score

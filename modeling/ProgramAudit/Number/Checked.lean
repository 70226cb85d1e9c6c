import ProgramAudit.Failure

namespace ProgramAudit.Number

/-- A result of exact and double arithmetic; an integer past the range of doubles is a failure. -/
def orTooLarge : Option Number → Result Number
  | some value => .ok value
  | none => .error .integerTooLarge

def times (left right : Number) : Result Number := orTooLarge (left.mul? right)

def minus (left right : Number) : Result Number := orTooLarge (left.sub? right)

/-- Adds two quantities, with the nearest double or an infinity for an integer beside a double. -/
def plus (left right : Number) : Number :=
  (left.add? right).getD (.real (left.toReal + right.toReal))

end ProgramAudit.Number

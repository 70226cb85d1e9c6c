namespace ProgramAudit

inductive Severity where
  | low
  | moderate
  | high
  | critical
deriving DecidableEq

namespace Severity

def rank : Severity → Nat
  | .low => 0
  | .moderate => 1
  | .high => 2
  | .critical => 3

def word : Severity → String
  | .low => "Low"
  | .moderate => "Moderate"
  | .high => "High"
  | .critical => "Critical"

def all : List Severity := [.low, .moderate, .high, .critical]

def ofWord? (word : String) : Option Severity := all.find? fun severity => severity.word == word

end Severity

end ProgramAudit

import ProgramAudit.Json.Basic

/-! Equality of values can be decided: two are the same when they are written alike. -/

namespace ProgramAudit.Json

mutual

/-- Two values are written alike: the same constructors, the same doubles, the same order. -/
def same : Json → Json → Bool
  | .null, .null => true
  | .bool left, .bool right => left == right
  | .int left, .int right => left == right
  | .real left, .real right => decide (left = right)
  | .str left, .str right => left == right
  | .arr left, .arr right => sameItems left right
  | .obj left, .obj right => sameFields left right
  | _, _ => false
termination_by structural value => value

def sameItems : List Json → List Json → Bool
  | [], [] => true
  | left :: lefts, right :: rights => same left right && sameItems lefts rights
  | _, _ => false
termination_by structural items => items

def sameFields : List (String × Json) → List (String × Json) → Bool
  | [], [] => true
  | left :: lefts, right :: rights => sameField left right && sameFields lefts rights
  | _, _ => false
termination_by structural fields => fields

def sameField : String × Json → String × Json → Bool
  | (name, value), (other, otherValue) => name == other && same value otherValue
termination_by structural field => field

end

mutual

theorem same_iff : ∀ left right : Json, same left right = true ↔ left = right
  | .null, right => by cases right <;> simp [same]
  | .bool _, right => by cases right <;> simp [same]
  | .int _, right => by cases right <;> simp [same]
  | .real _, right => by cases right <;> simp [same]
  | .str _, right => by cases right <;> simp [same]
  | .arr left, right => by
    cases right with
    | arr right => simp [same, sameItems_iff left right]
    | _ => simp [same]
  | .obj left, right => by
    cases right with
    | obj right => simp [same, sameFields_iff left right]
    | _ => simp [same]
termination_by structural value => value

theorem sameItems_iff : ∀ left right : List Json, sameItems left right = true ↔ left = right
  | [], right => by cases right <;> simp [sameItems]
  | left :: lefts, right => by
    cases right with
    | nil => simp [sameItems]
    | cons right rights => simp [sameItems, same_iff left right, sameItems_iff lefts rights]
termination_by structural items => items

theorem sameFields_iff :
    ∀ left right : List (String × Json), sameFields left right = true ↔ left = right
  | [], right => by cases right <;> simp [sameFields]
  | left :: lefts, right => by
    cases right with
    | nil => simp [sameFields]
    | cons right rights => simp [sameFields, sameField_iff left right, sameFields_iff lefts rights]
termination_by structural fields => fields

theorem sameField_iff : ∀ left right : String × Json, sameField left right = true ↔ left = right
  | (name, value), (other, otherValue) => by simp [sameField, same_iff value otherValue]
termination_by structural field => field

end

instance : DecidableEq Json := fun left right =>
  decidable_of_iff (same left right = true) (same_iff left right)

end ProgramAudit.Json

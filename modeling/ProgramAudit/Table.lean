namespace ProgramAudit

/-- Entries under distinct keys, in the order in which the keys first came. -/
abbrev Table (κ ν : Type) := List (κ × ν)

namespace Table

variable {κ ν : Type} [BEq κ]

def get? (key : κ) : Table κ ν → Option ν
  | [] => none
  | (held, value) :: rest => if held == key then some value else get? key rest

/-- Changes the entry of a key, or adds one behind all others. -/
def adjust (key : κ) (change : Option ν → ν) : Table κ ν → Table κ ν
  | [] => [(key, change none)]
  | (held, value) :: rest =>
    if held == key then (held, change (some value)) :: rest
    else (held, value) :: adjust key change rest

def put (key : κ) (value : ν) : Table κ ν → Table κ ν := adjust key fun _ => value

def keys (table : Table κ ν) : List κ := table.map Prod.fst

end Table

/-- Each item once, in the order of the first appearances. -/
def distinct {α : Type} [BEq α] (items : List α) : List α :=
  items.foldl (fun found item => if found.contains item then found else found ++ [item]) []

/-- The first items of a list; a negative count leaves out that many items at the end. -/
def upTo {α : Type} (count : Int) (items : List α) : List α :=
  if 0 ≤ count then items.take count.toNat else items.take (items.length - count.natAbs)

end ProgramAudit

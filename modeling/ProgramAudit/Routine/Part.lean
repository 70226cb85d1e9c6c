import ProgramAudit.Routine.Basic

namespace ProgramAudit

/-- A part of a state that can be read and replaced. -/
structure Part (σ β : Type) where
  get : σ → β
  set : β → σ → σ

namespace Part

variable {τ σ α β γ : Type}

def modify (part : Part σ β) (update : β → β) (state : σ) : σ :=
  part.set (update (part.get state)) state

def inside (outer : Part σ β) (inner : Part β γ) : Part σ γ where
  get state := inner.get (outer.get state)
  set value := outer.modify (inner.set value)

def read (part : Part σ β) : Routine τ σ β := .act id fun state => .succeed (part.get state)

def change (part : Part σ β) (update : β → β) : Routine τ σ Unit :=
  .act (part.modify update) fun _ => .succeed ()

def step (part : Part σ β) (update : β → α × β) : Routine τ σ α :=
  .act (part.modify fun value => (update value).2) fun state =>
    .succeed (update (part.get state)).1

/-- Updates the part in one step that may fail; a failure leaves it as it is. -/
def tryChange (part : Part σ β) (update : β → Result β) : Routine τ σ Unit :=
  .act (part.modify fun value => (update value).toOption.getD value) fun state =>
    .ofResult ((update (part.get state)).map fun _ => ())

end Part

end ProgramAudit

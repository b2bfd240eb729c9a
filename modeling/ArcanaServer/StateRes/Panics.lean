import ArcanaServer.StateRes.IterativeAuthCheck

namespace ArcanaServer.StateRes

open Library ArcanaServer.Matrix

/-- The computation does not end with the panic for a missing create event. -/
abbrev Contained {α : Type} (outcome : Outcome α) : Prop :=
  outcome ≠ .error (.panic createMustExist)

section

variable {α β : Type}

theorem Contained.ok (value : α) : Contained (.ok value) := by
  simp

theorem Contained.error (error : Error) :
    Contained (.error (.error error) : Outcome α) := by
  simp

theorem Contained.bind {first : Outcome α} {next : α → Outcome β}
    (contained : Contained first)
    (continues : ∀ value, Contained (next value)) :
    Contained (first >>= next) :=
  bind_ne_error contained continues

theorem Contained.ite {condition : Prop} [Decidable condition]
    {left right : Outcome α} (whenTrue : Contained left)
    (whenFalse : Contained right) :
    Contained (if condition then left else right) := by
  split
  · exact whenTrue
  · exact whenFalse

end

variable (ruma : Ruma) (roomVersion : RoomVersion)

variable (event : Option Pdu)

section

variable (createContent : RoomCreateContentFields)
include createContent

end

end ArcanaServer.StateRes

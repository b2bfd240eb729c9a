import ArcanaServer.Matrix.Event

namespace ArcanaServer.Matrix

open Json

/-! Equality of JSON, field by field. -/

mutual

def Json.same : Json → Json → Bool
  | .null, .null => true
  | .bool left, .bool right => left == right
  | .int left, .int right => left == right
  | .float, .float => true
  | .str left, .str right => left == right
  | .arr left, .arr right => sameElements left right
  | .obj left, .obj right => sameFields left right
  | _, _ => false

def Json.sameElements : List Json → List Json → Bool
  | [], [] => true
  | left :: lefts, right :: rights =>
      left.same right && sameElements lefts rights
  | _, _ => false

def Json.sameFields : List (String × Json) → List (String × Json) → Bool
  | [], [] => true
  | (name, left) :: lefts, (other, right) :: rights =>
      name == other && left.same right && sameFields lefts rights
  | _, _ => false

end

mutual

theorem Json.same_iff : (left right : Json) →
    (left.same right = true ↔ left = right)
  | .null, right => by cases right <;> simp [same]
  | .bool _, right => by cases right <;> simp [same]
  | .int _, right => by cases right <;> simp [same]
  | .float, right => by cases right <;> simp [same]
  | .str _, right => by cases right <;> simp [same]
  | .arr elements, right => by
      cases right <;> simp [same, sameElements_iff elements]
  | .obj fields, right => by
      cases right <;> simp [same, sameFields_iff fields]

theorem Json.sameElements_iff : (lefts rights : List Json) →
    (sameElements lefts rights = true ↔ lefts = rights)
  | [], rights => by cases rights <;> simp [sameElements]
  | left :: lefts, rights => by
      cases rights with
      | nil => simp [sameElements]
      | cons right rights =>
          simp [sameElements, left.same_iff right,
            sameElements_iff lefts rights]

theorem Json.sameFields_iff : (lefts rights : List (String × Json)) →
    (sameFields lefts rights = true ↔ lefts = rights)
  | [], rights => by cases rights <;> simp [sameFields]
  | (name, left) :: lefts, rights => by
      cases rights with
      | nil => simp [sameFields]
      | cons right rights =>
          simp [sameFields, left.same_iff right.2,
            sameFields_iff lefts rights, Prod.ext_iff]

end

instance : DecidableEq Json :=
  fun left right => decidable_of_iff _ (left.same_iff right)

end ArcanaServer.Matrix

import ActionAtlas.Graph.Declaration

/-!
The attributes that discovery looks at, known by their full names.
-/

namespace ActionAtlas.Mvc

inductive Marker where
  | area
  | nonAction
  | nonController
  | other
deriving DecidableEq, Repr

namespace Marker

def ofName (name : String) : Marker :=
  if name = "Microsoft.AspNetCore.Mvc.AreaAttribute" then area
  else if name = "Microsoft.AspNetCore.Mvc.NonActionAttribute" then nonAction
  else if name = "Microsoft.AspNetCore.Mvc.NonControllerAttribute" then nonController
  else other

/-- The full name of the attribute that a marker stands for. -/
def name? : Marker → Option String
  | area => some "Microsoft.AspNetCore.Mvc.AreaAttribute"
  | nonAction => some "Microsoft.AspNetCore.Mvc.NonActionAttribute"
  | nonController => some "Microsoft.AspNetCore.Mvc.NonControllerAttribute"
  | other => none

theorem ofName_eq_iff {marker : Marker} {own : String} (named : marker.name? = some own)
    (name : String) : ofName name = marker ↔ name = own := by
  unfold ofName
  constructor
  · rintro rfl
    split at named
    · next isArea => exact isArea.trans (Option.some.inj named)
    · split at named
      · next isNonAction => exact isNonAction.trans (Option.some.inj named)
      · split at named
        · next isNonController => exact isNonController.trans (Option.some.inj named)
        · cases named
  · rintro rfl
    cases marker <;> cases named <;> rfl

def find? (marker : Marker) (attributes : List Attribute) : Option Attribute :=
  attributes.find? fun candidate => ofName candidate.name == marker

def marks (marker : Marker) (attributes : List Attribute) : Bool :=
  (marker.find? attributes).isSome

section

variable {marker : Marker} {own : String} (named : marker.name? = some own)
  (attributes : List Attribute)
include named

theorem find?_eq : marker.find? attributes = attributes.find? fun applied => applied.name = own := by
  unfold find?
  congr 1
  funext applied
  rw [Bool.eq_iff_iff, beq_iff_eq, ofName_eq_iff named, decide_eq_true_eq]

theorem marks_iff : marker.marks attributes = true ↔ ∃ applied ∈ attributes, applied.name = own := by
  simp only [marks, find?_eq named, List.find?_isSome, decide_eq_true_eq]

end

end Marker

end ActionAtlas.Mvc

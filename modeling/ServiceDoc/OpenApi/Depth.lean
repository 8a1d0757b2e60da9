import ServiceDoc.Json.Write
import ServiceDoc.OpenApi.Dump
import ServiceDoc.OpenApi.Load

/-!
# How deep elements go

Elements are loaded and written from the outside to the inside. Every step inwards takes room, and
there is a limit to the room.
-/

namespace ServiceDoc

/-- The room that steps inwards take. -/
structure StepRoom where
  element : Nat
  /-- To go on from an element to what a field holds. -/
  field : Nat
  /-- To go on from there to one of several elements. -/
  member : Nat
  /-- To go into a container among values. -/
  container : Nat

mutual
/-- The room that an element takes. -/
def Element.room (steps : StepRoom) : Element → Nat
  | .mk _ fields extensions =>
    steps.element + max (roomOfFields steps fields)
      (steps.container * (Value.depthOfEntries extensions + 2))

/-- The room that the contents of fields take. -/
def roomOfFields (steps : StepRoom) : List (String × Content) → Nat
  | [] => 0
  | (_, content) :: fields => max (roomOfContent steps content) (roomOfFields steps fields)

/-- The room that what a field holds takes. -/
def roomOfContent (steps : StepRoom) : Content → Nat
  | .value _ | .flag => 0
  | .list items => steps.field + steps.container * (Value.depthOfItems items + 2)
  | .map entries => steps.field + steps.container * (Value.depthOfEntries entries + 2)
  | .one element => steps.field + element.room steps
  | .many elements => steps.field + steps.member + roomOfMany steps elements
  | .table entries => steps.field + steps.member + roomOfTable steps entries

/-- The room that a sequence of elements takes. -/
def roomOfMany (steps : StepRoom) : List Element → Nat
  | [] => 0
  | element :: elements => max (element.room steps) (roomOfMany steps elements)

/-- The room that a mapping to elements takes. -/
def roomOfTable (steps : StepRoom) : List (Scalar × Element) → Nat
  | [] => 0
  | (_, element) :: entries => max (element.room steps) (roomOfTable steps entries)
end

/-- The room that is there. -/
def allRoom : Nat := 990

/-- The room that loading takes, in which values stay as they are. -/
def StepRoom.loading : StepRoom := { element := 2, field := 2, member := 1, container := 0 }

/-- The room that writing takes, for which values are copied. -/
def StepRoom.writing : StepRoom := { element := 1, field := 1, member := 1, container := 2 }

/-- An element that was loaded, unless it is too deep. -/
def Loading.limited (loaded : Loading Element) : Loading Element := do
  let element ← loaded
  if allRoom < element.room .loading then Reported.fail .endless
  return element

/-- Whether an element is too deep to be written. -/
def Element.isTooDeep (element : Element) : Bool := allRoom < element.room .writing

/-- The text of an element on one line, as code points. -/
def Element.line (element : Element) : Except WriteError (List Nat) :=
  if element.isTooDeep then .error .tooDeep else Json.line element.toValue

end ServiceDoc

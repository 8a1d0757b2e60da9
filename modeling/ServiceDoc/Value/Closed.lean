import ServiceDoc.Value.Basic

/-!
# Values on their own

A container that holds itself has a reference to itself inside. A part of such a container stands on
its own once the container is put in the place of the references to it.
-/

namespace ServiceDoc.Value

mutual
/-- Put a container in the place of the references to it. Inside the container itself they stay. -/
def plug (target : Mark) (container : Value) : Value → Value
  | .scalar value => .scalar value
  | .array mark items =>
    if mark = target then .array mark items else .array mark (plugItems target container items)
  | .pair mark first second =>
    .pair mark (plug target container first) (plug target container second)
  | .object mark entries =>
    if mark = target then .object mark entries
    else .object mark (plugEntries target container entries)
  | .set mark members => .set mark members
  | .enclosing shape mark => if mark = target then container else .enclosing shape mark

/-- Put a container in the place of the references to it among the items of a sequence. -/
def plugItems (target : Mark) (container : Value) : List Value → List Value
  | [] => []
  | item :: items => plug target container item :: plugItems target container items

/-- Put a container in the place of the references to it among the values of a mapping. -/
def plugEntries (target : Mark) (container : Value) : Entries Value → Entries Value
  | [] => []
  | (key, value) :: entries =>
    (key, plug target container value) :: plugEntries target container entries
end

/-- The containers around a value with their marks, the innermost first. -/
abbrev Surroundings := List (Mark × Value)

/-- The containers around the parts of a container. What is used once is not referred to. -/
def Surroundings.enter (around : Surroundings) (mark : Mark) (container : Value) : Surroundings :=
  if mark.isEmpty then around else (mark, container) :: around

/-- A value on its own: the containers around it are put in the places of references to them. -/
def closed (around : Surroundings) (value : Value) : Value :=
  around.foldl (fun value (mark, container) => plug mark container value) value

@[simp] theorem closed_nil (value : Value) : value.closed [] = value := rfl

@[simp] theorem enter_nil (around : Surroundings) (container : Value) :
    around.enter [] container = around := rfl

/-- The items of a sequence on their own. -/
def ownItems (mark : Mark) (items : List Value) : List Value :=
  items.map (closed (Surroundings.enter [] mark (.array mark items)))

/-- The entries of a mapping on their own. -/
def ownEntries (mark : Mark) (entries : Entries Value) : Entries Value :=
  entries.map fun (key, value) =>
    (key, value.closed (Surroundings.enter [] mark (.object mark entries)))

end ServiceDoc.Value

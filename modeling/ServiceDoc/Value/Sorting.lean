import ServiceDoc.Value.Same

/-!
# Sorting by values

Things are sorted by their keys, and things of one key keep their order. Texts have a total order,
so that every way of sorting by texts gives the same result. Other keys need not have an order, or
only some of them; then the result is that of the comparisons that are made: a short list is sorted
by inserting things into the run at its start.
-/

namespace ServiceDoc

namespace Sorting

variable {α : Type} (less : α → α → Except Disorder Bool)

/-- The things that go on with a run after its last one, and the things behind the run. A run either
falls, each thing before the one in front of it, or no thing is before the one in front of it. -/
def splitRun (falls : Bool) (last : α) : List α → Except Disorder (List α × List α)
  | [] => .ok ([], [])
  | next :: rest => do
    if (← less next last) == falls then
      let (run, others) ← splitRun falls next rest
      return (next :: run, others)
    else return ([], next :: rest)

/-- The place of a new thing among ordered things, between two bounds that are halved: behind the
last that it does not come before. -/
def placeOf (new : α) (ordered : Array α) : (fuel low high : Nat) → Except Disorder Nat
  | 0, low, _ => .ok low
  | fuel + 1, low, high =>
    if high ≤ low then .ok low
    else do
      let middle := low + (high - low) / 2
      match ordered[middle]? with
      | none => return low
      | some thing =>
        if ← less new thing then placeOf new ordered fuel low middle
        else placeOf new ordered fuel (middle + 1) high

/-- Insert a thing into ordered things. -/
def insert (ordered : List α) (new : α) : Except Disorder (List α) := do
  let place ← placeOf less new ordered.toArray ordered.length 0 ordered.length
  return ordered.take place ++ new :: ordered.drop place

/-- Sort a short list: the run at its start, turned round if it falls, takes in the other things. -/
def short : List α → Except Disorder (List α)
  | first :: second :: rest => do
    let falls ← less second first
    let (run, others) ← splitRun less falls second rest
    let ordered := first :: second :: run
    others.foldlM (insert less) (if falls then ordered.reverse else ordered)
  | things => .ok things

/-- Whether every two things can be ordered. -/
def isOrderable : List α → Except Disorder Unit
  | [] => .ok ()
  | thing :: rest => do
    rest.forM fun other => discard (less thing other)
    isOrderable rest

/-- From how many things on a list is long. -/
def longLength : Nat := 64

end Sorting

/-- Sort things by their keys; things of one key keep their order. -/
def sortBy {α : Type} (key : α → Value) (things : List α) : Except Disorder (List α) :=
  let less (a b : α) : Except Disorder Bool := (key a).less (key b)
  let isBefore (a b : α) : Bool := less a b matches .ok true
  let isText (thing : α) : Bool := key thing matches .scalar (.string _)
  if things.all isText then .ok (things.mergeSort fun a b => !isBefore b a)
  else if things.length < Sorting.longLength then Sorting.short less things
  else do
    Sorting.isOrderable less things
    return things.mergeSort fun a b => !isBefore b a

end ServiceDoc

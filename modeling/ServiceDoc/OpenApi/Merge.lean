import ServiceDoc.OpenApi.Element

/-!
# Merging elements

A second element is laid over a first of the same kind. Values and flags that it sets win, sequences
are appended, mappings are set key by key, and elements are merged in turn; an element of another
kind, or a truth value, replaces what was there. Extensions are set key by key.

What is taken over as a part is a copy: what is marked in it is marked anew by a stamp that names
the place of the part, so that it is told apart from that of other copies. A value that a field
takes over, and the key of an element, stay what they were.
-/

namespace ServiceDoc

/-- A stamp by its way. Its length comes first, so that no two ways give one mark. -/
def stampOf (way : List Nat) : Mark := way.length :: way

mutual
/-- Stamp what is marked in an element. -/
def Element.stamped (stamp : Mark) : Element → Element
  | .mk kind fields extensions =>
    .mk kind (stampedFields stamp fields) (Value.stampedEntries stamp extensions)

/-- Stamp what is marked in fields. -/
def stampedFields (stamp : Mark) : List (String × Content) → List (String × Content)
  | [] => []
  | (key, content) :: fields => (key, stampedContent stamp content) :: stampedFields stamp fields

/-- Stamp what is marked in what a field holds. -/
def stampedContent (stamp : Mark) : Content → Content
  | .value value => .value (value.stamped stamp)
  | .flag => .flag
  | .list items => .list (Value.stampedItems stamp items)
  | .map entries => .map (Value.stampedEntries stamp entries)
  | .one element => .one (element.stamped stamp)
  | .many elements => .many (stampedMany stamp elements)
  | .table entries => .table (stampedTable stamp entries)

/-- Stamp what is marked in a sequence of elements. -/
def stampedMany (stamp : Mark) : List Element → List Element
  | [] => []
  | element :: elements => element.stamped stamp :: stampedMany stamp elements

/-- Stamp what is marked in a mapping to elements. -/
def stampedTable (stamp : Mark) : List (Scalar × Element) → List (Scalar × Element)
  | [] => []
  | (key, element) :: entries =>
    (key.stamped stamp, element.stamped stamp) :: stampedTable stamp entries
end

mutual
/-- Lay an element over another of its kind. -/
def Element.mergeAt (way : List Nat) (current : Element) : Element → Element
  | .mk _ fields extensions =>
    .mk current.kind (mergeFields way 0 current.fields fields)
      (Entries.putAll current.extensions (Value.stampedEntries (stampOf way) extensions))

/-- Lay fields over others, counting from a position. -/
def mergeFields (way : List Nat) (position : Nat) (current : List (String × Content)) :
    List (String × Content) → List (String × Content)
  | [] => current
  | (key, content) :: fields =>
    let merged := mergeContent (way ++ [position]) (current.lookup key) content
    mergeFields way (position + 1) (Element.setField current key merged) fields

/-- Lay what a field holds over what the field of another element holds. -/
def mergeContent (way : List Nat) (current : Option Content) : Content → Content
  | .value value => .value value
  | .flag => .flag
  | .list items =>
    let copies := Value.stampedItems (stampOf way) items
    match current with
    | some (.list old) => .list (old ++ copies)
    | _ => .list copies
  | .map entries =>
    let copies := Value.stampedEntries (stampOf way) entries
    match current with
    | some (.map old) => .map (Entries.putAll old copies)
    | _ => .map copies
  | .one element =>
    match current with
    | some (.one old) =>
      if old.kind = element.kind then .one (old.mergeAt way element)
      else .one (element.stamped (stampOf way))
    | _ => .one (element.stamped (stampOf way))
  | .many elements =>
    let copies := stampedMany (stampOf way) elements
    match current with
    | some (.many old) => .many (old ++ copies)
    | _ => .many copies
  | .table entries =>
    match current with
    | some (.table old) => .table (mergeTable way 0 old entries)
    | _ => .table (mergeTable way 0 [] entries)

/-- Lay entries over those of another mapping, counting from a position. -/
def mergeTable (way : List Nat) (position : Nat) (current : List (Scalar × Element)) :
    List (Scalar × Element) → List (Scalar × Element)
  | [] => current
  | (key, element) :: entries =>
    let merged := match Entries.get? current key with
      | some old =>
        if old.kind = element.kind then old.mergeAt (way ++ [position]) element
        else element.stamped (stampOf (way ++ [position]))
      | none => element.stamped (stampOf (way ++ [position]))
    mergeTable way (position + 1) (Entries.put current key merged) entries
end

/-- Lay an element over another of its kind, once in the life of both. -/
def Element.merge (current other : Element) : Element := current.mergeAt [] other

end ServiceDoc

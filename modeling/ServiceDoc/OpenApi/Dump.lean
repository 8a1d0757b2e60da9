import ServiceDoc.OpenApi.Element

/-!
# Dumping elements

An element is written as a mapping: its fields in the order of its kind, those that hold nothing
left out, then its extensions. An extension with the key of a field takes the place of the field.
-/

namespace ServiceDoc

/-- The fields of a kind that are set, in the order of the kind. -/
def Kind.arrange (kind : Kind) (values : List (String × Value)) : Entries Value :=
  kind.fields.filterMap fun field =>
    (values.lookup field.key).map fun value => (.string field.key, value)

mutual
/-- The entries of the mapping that stands for an element. -/
def Element.dump : Element → List (Scalar × Value)
  | .mk kind fields extensions => Entries.putAll (kind.arrange (dumpFields fields)) extensions

/-- The values of fields, those that hold nothing left out. -/
def dumpFields : List (String × Content) → List (String × Value)
  | [] => []
  | (key, content) :: fields =>
    match dumpContent content with
    | some value => (key, value) :: dumpFields fields
    | none => dumpFields fields

/-- The value of what a field holds, unless it holds nothing. -/
def dumpContent : Content → Option Value
  | .value value => if value.isUnset then none else some value
  | .flag => some (.bool true)
  | .list items => if items.isEmpty then none else some (.list items)
  | .map entries => if entries.isEmpty then none else some (.map entries)
  | .one element => some (.map element.dump)
  | .many elements => if elements.isEmpty then none else some (.list (dumpMany elements))
  | .table entries => if entries.isEmpty then none else some (.map (dumpTable entries))

/-- The values of a sequence of elements. -/
def dumpMany : List Element → List Value
  | [] => []
  | element :: elements => .map element.dump :: dumpMany elements

/-- The values of a mapping to elements. -/
def dumpTable : List (Scalar × Element) → List (Scalar × Value)
  | [] => []
  | (key, element) :: entries => (key, .map element.dump) :: dumpTable entries
end

/-- The mapping that stands for an element. -/
def Element.toValue (element : Element) : Value := .map element.dump

end ServiceDoc

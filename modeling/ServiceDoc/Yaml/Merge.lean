import ServiceDoc.Yaml.Node

/-!
# Merge keys

A mapping takes over the entries of the mappings under its merge keys, before its own. This changes
the mapping itself, wherever it stands; the mappings that it takes over are changed in the same way
before.
-/

namespace ServiceDoc.Yaml

namespace Nodes

/-- The tag of a node. -/
def tagOf (nodes : Nodes) (number : Nat) : Tag := (nodes[number]?.map Node.tag).getD .foreign

/-- The entries of a mapping. -/
def entries? (nodes : Nodes) (number : Nat) : Option (List (Nat × Nat)) :=
  match nodes[number]?.map Node.content with
  | some (.mapping entries) => some entries
  | _ => none

/-- The mappings under a merge key, in the order in which they are taken over. -/
def sources (nodes : Nodes) (number : Nat) : List Nat :=
  match nodes[number]?.map Node.content with
  | some (.sequence items) => items
  | _ => [number]

/-- Give other entries to a mapping. -/
def setEntries (nodes : Nodes) (number : Nat) (entries : List (Nat × Nat)) : Nodes :=
  nodes.modify number fun node => { node with content := .mapping entries }

/-- Make the key of a default value a text like any other. -/
def plainKey (nodes : Nodes) (number : Nat) : Nodes :=
  nodes.modify number fun node =>
    if node.tag = .value then { node with tag := .string } else node

/-- The first merge key among entries: what stands under it, and the entries without it. -/
def takeMerge? (nodes : Nodes) : List (Nat × Nat) → Option (Nat × List (Nat × Nat))
  | [] => none
  | (key, value) :: rest =>
    if nodes.tagOf key = .merge then some (value, rest)
    else (nodes.takeMerge? rest).map fun (found, others) => (found, (key, value) :: others)

/-- The number of entries of all mappings: no more merge keys can be found. -/
def entryCount (nodes : Nodes) : Nat :=
  nodes.foldl (fun count node =>
    match node.content with
    | .mapping entries => count + entries.length
    | _ => count) 0

/-- Take over the entries of the mappings under the merge keys of a mapping, after those that were
gathered so far. Every merge key is taken away before what stands under it is looked at, so that
there are no more steps than entries. -/
def mergeFrom : (fuel : Nat) → (gathered : List (Nat × Nat)) → Nat → Nodes →
    Except ReadError Nodes
  | 0, _, _, _ => .error .malformed
  | fuel + 1, gathered, number, nodes =>
    match nodes.entries? number with
    | none => .error .malformed
    | some entries =>
      match nodes.takeMerge? entries with
      | none =>
        .ok ((entries.foldl (fun nodes entry => nodes.plainKey entry.1) nodes).setEntries number
          (gathered ++ entries))
      | some (value, rest) => do
        let (parts, last) ← (nodes.sources value).foldlM (fun (parts, nodes) source => do
          let merged ← mergeFrom fuel [] source nodes
          return ((merged.entries? source).getD [] :: parts, merged))
          (([] : List (List (Nat × Nat))), nodes.setEntries number rest)
        mergeFrom fuel (gathered ++ parts.flatten) number last

end Nodes

end ServiceDoc.Yaml

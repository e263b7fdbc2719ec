import WorkflowKit.Yaml.Tree

namespace WorkflowKit.Yaml

/-- A node. An alias holds the node that it stands for, nothing if it is one too many. -/
inductive Node where
  | scalar (mark : Mark) (tag : Option Octets) (style : Style) (text : String)
  | sequence (mark : Mark) (tag : Option Octets) (items : List Node)
  | mapping (mark : Mark) (tag : Option Octets) (entries : List (Node × Node))
  | reference (target : Option Node)
  deriving Repr

namespace Tree

mutual

/-- The number of marks in a document: one for a scalar or an alias, two for a collection. -/
def size : Tree → Nat
  | scalar .. => 1
  | reference .. => 1
  | sequence _ _ _ items => 2 + sizeOfItems items
  | mapping _ _ _ entries => 2 + sizeOfEntries entries

def sizeOfItems : List Tree → Nat
  | [] => 0
  | item :: items => size item + sizeOfItems items

def sizeOfEntries : List (Tree × Tree) → Nat
  | [] => 0
  | (name, value) :: entries => size name + size value + sizeOfEntries entries

end

mutual

/-- The nodes with an anchor and their numbers, in the order of the text. -/
def anchored : Tree → List (Nat × Tree)
  | tree@(scalar _ anchor _ _ _) => (anchor.map (·, tree)).toList
  | tree@(sequence _ anchor _ items) => (anchor.map (·, tree)).toList ++ anchoredItems items
  | tree@(mapping _ anchor _ entries) => (anchor.map (·, tree)).toList ++ anchoredEntries entries
  | reference .. => []

def anchoredItems : List Tree → List (Nat × Tree)
  | [] => []
  | item :: items => anchored item ++ anchoredItems items

def anchoredEntries : List (Tree × Tree) → List (Nat × Tree)
  | [] => []
  | (name, value) :: entries => anchored name ++ anchored value ++ anchoredEntries entries

end

/-- Follows the aliases of a tree in the order of the text, as long as their number is within the
limit and they lead no deeper than the fuel. Of two nodes with one number the later counts. -/
def follow (anchors : List (Nat × Tree)) (limit : Nat) : Nat → Tree → StateM Nat Node
  | _, scalar mark _ tag style text => pure (.scalar mark tag style text)
  | 0, _ => pure (.reference none)
  | fuel + 1, sequence mark _ tag items => do
    return .sequence mark tag (← items.mapM (follow anchors limit fuel))
  | fuel + 1, mapping mark _ tag entries => do
    let entries ← entries.mapM fun (name, value) => do
      let name ← follow anchors limit fuel name
      return (name, ← follow anchors limit fuel value)
    return .mapping mark tag entries
  | fuel + 1, reference _ n => do
    let count ← get
    set (count + 1)
    if limit < count + 1 then return .reference none
    else
      match anchors.lookup n with
      | some tree => return .reference (some (← follow anchors limit fuel tree))
      | none => return .reference none

end Tree

namespace Node

def depthLimit : Nat := 128

/-- A tree with its references followed, as deep as the limit lets them be read. -/
def ofTree (tree : Tree) : Node :=
  ((tree.follow tree.anchored.reverse (100 * tree.size) (2 * depthLimit + 8)).run 0).1

/-- The document of a text, `none` if the text is malformed. A text may have no document. -/
def ofText? (text : String) : Option (Option Node) :=
  ((tokens? text.toList).bind Tree.ofTokens?).map (·.map ofTree)

end Node

end WorkflowKit.Yaml

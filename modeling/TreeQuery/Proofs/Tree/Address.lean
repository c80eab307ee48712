import TreeQuery.Proofs.Tree.Everywhere

/-!
# Addresses of nodes

A node is found from the root by keys of objects and positions in arrays, one after another. A path may name the
same child in several ways; its address is one.
-/

namespace TreeQuery

/-- What leads from a container to one of its children. -/
inductive Step
  | key (name : String)
  | position (index : Nat)
deriving DecidableEq, Repr

abbrev Address := List Step

namespace Tree

def under? : Step → Tree → Option Tree
  | .key name, object entries => Entries.find? entries name
  | .position index, array items => items[index]?
  | _, _ => none

/-- The node at an address. -/
def at? : Address → Tree → Option Tree
  | [], tree => some tree
  | step :: address, tree => (tree.under? step).bind (at? address)

theorem at?_cons {step : Step} {address : Address} {tree child : Tree} (hchild : tree.under? step = some child) :
    tree.at? (step :: address) = child.at? address := by
  rw [at?, hchild, Option.bind_some]

theorem at?_cons_eq_some {step : Step} {address : Address} {tree node : Tree} :
    tree.at? (step :: address) = some node ↔
      ∃ child, tree.under? step = some child ∧ child.at? address = some node :=
  Option.bind_eq_some_iff

theorem at?_append {address : Address} {tree node : Tree} (hnode : tree.at? address = some node) (rest : Address) :
    tree.at? (address ++ rest) = node.at? rest := by
  induction address generalizing tree with
  | nil =>
      obtain rfl := Option.some.inj hnode
      rfl
  | cons step address ih =>
      obtain ⟨child, hchild, hnode⟩ := at?_cons_eq_some.mp hnode
      rw [List.cons_append, at?_cons hchild, ih hnode]

theorem at?_concat {address : Address} {step : Step} {tree node child : Tree} (hnode : tree.at? address = some node)
    (hchild : node.under? step = some child) : tree.at? (address ++ [step]) = some child := by
  rw [at?_append hnode, at?_cons hchild, at?]

theorem isScalar_of_under? {step : Step} {tree child : Tree} (hchild : tree.under? step = some child) :
    tree.isScalar = false := by
  cases tree with
  | array items => rfl
  | object entries => rfl
  | _ => cases step <;> cases hchild

theorem under?_of_isScalar {tree : Tree} (hscalar : tree.isScalar = true) (step : Step) : tree.under? step = none := by
  cases hchild : tree.under? step with
  | none => rfl
  | some child => rw [isScalar_of_under? hchild] at hscalar; cases hscalar

end Tree

end TreeQuery

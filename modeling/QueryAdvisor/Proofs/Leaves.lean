import QueryAdvisor.Predicate.Basic
/-!
# Leaves are the field-bearing nodes

`Predicate.leaves` walks a predicate's tree and pushes each node that tests one field onto an
array (`collectLeaves`): it steps into every connective, whatever its kind and however many
children it has, and drops raw SQL. What it pushes onto any array is the flattened list of
leaves, the children's lists joined (`collectLeaves_toList`, `leaves_eq_flatLeaves`).

Beside it, `Predicate.nodes` lists every node of the tree depth first, each node before its
children. The headline result, `leaves_preorder`, says the two agree: the leaves are the nodes
that `isLeaf` accepts, in the same order, and each of them names a field. Both proofs are one
induction over a predicate and the list of its children, run as a mutual recursion.
-/

namespace QueryAdvisor.Predicate

mutual

/-- The leaves of a predicate as one list: those of a connective's children, joined. -/
def flatLeaves : Predicate → List Predicate
  | .logical _ children => flatLeavesOf children
  | .raw _ => []
  | p => [p]

/-- The leaves of each predicate of a list, joined in order. -/
def flatLeavesOf : List Predicate → List Predicate
  | [] => []
  | p :: rest => flatLeaves p ++ flatLeavesOf rest

end

/-! ## The accumulator -/

mutual

theorem collectLeaves_toList : ∀ (p : Predicate) (out : Array Predicate),
    (collectLeaves p out).toList = out.toList ++ p.flatLeaves
  | .comparison _ _ _, _ | .inList _ _ _, _ | .between _ _ _, _ | .like _ _ _, _ | .nullCheck _ _, _
  | .subquery _ _, _ => by simp [collectLeaves, flatLeaves]
  | .raw _, _ => by simp [collectLeaves, flatLeaves]
  | .logical _ children, out => by
    simp only [collectLeaves, flatLeaves]
    exact collectLeavesOf_toList children out

theorem collectLeavesOf_toList : ∀ (ps : List Predicate) (out : Array Predicate),
    (collectLeavesOf ps out).toList = out.toList ++ flatLeavesOf ps
  | [], _ => by simp [collectLeavesOf, flatLeavesOf]
  | p :: rest, out => by
    simp only [collectLeavesOf, flatLeavesOf]
    rw [collectLeavesOf_toList rest, collectLeaves_toList p out, List.append_assoc]

end

/-- **The leaves collected into an empty array are the flattened leaves.** -/
theorem leaves_eq_flatLeaves (p : Predicate) : p.leaves = p.flatLeaves := by
  simp [leaves, collectLeaves_toList]

/-! ## Leaves among the nodes -/

mutual

theorem flatLeaves_eq_nodes_filter : ∀ p : Predicate, p.flatLeaves = p.nodes.filter isLeaf
  | .comparison _ _ _ | .inList _ _ _ | .between _ _ _ | .like _ _ _ | .nullCheck _ _
  | .subquery _ _ | .raw _ => rfl
  | .logical _ children => by
    simp only [flatLeaves, nodes, List.filter_cons, isLeaf]
    exact flatLeavesOf_eq_nodesOf_filter children

theorem flatLeavesOf_eq_nodesOf_filter : ∀ ps : List Predicate, flatLeavesOf ps = (nodesOf ps).filter isLeaf
  | [] => rfl
  | p :: rest => by
    simp only [flatLeavesOf, nodesOf, List.filter_append]
    rw [flatLeaves_eq_nodes_filter p, flatLeavesOf_eq_nodesOf_filter rest]

end

theorem leaves_eq_nodes_filter (p : Predicate) : p.leaves = p.nodes.filter isLeaf := by
  rw [leaves_eq_flatLeaves, flatLeaves_eq_nodes_filter]

theorem field_isSome_of_isLeaf : ∀ q : Predicate, q.isLeaf = true → q.field?.isSome = true
  | .comparison _ _ _, _ | .inList _ _ _, _ | .between _ _ _, _ | .like _ _ _, _ | .nullCheck _ _, _
  | .subquery _ _, _ => rfl

/-- **Leaves are the field-bearing nodes, in order**: the leaves of a predicate are the nodes
of its tree, depth first, that are neither connectives nor raw SQL, and each names a field. -/
theorem leaves_preorder (p : Predicate) :
    p.leaves = p.nodes.filter isLeaf ∧ ∀ q ∈ p.leaves, q.field?.isSome = true := by
  refine ⟨leaves_eq_nodes_filter p, fun q hq => ?_⟩
  rw [leaves_eq_nodes_filter p, List.mem_filter] at hq
  exact field_isSome_of_isLeaf q hq.2

end QueryAdvisor.Predicate

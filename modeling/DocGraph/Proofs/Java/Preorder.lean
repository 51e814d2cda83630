import DocGraph.Java.Walk

/-!
# The order of a walk

A tree in pre-order is its root followed by its children in pre-order, from left to right. A walk
that keeps a stack gives just this list: what it has still to give are the visits on the stack, each
with all that is below it.

The nodes of a walk are those that can be reached from the root through children.
-/

namespace DocGraph.Java

namespace Visit

mutual

/-- The visits to a node and to all below it in pre-order, given what is around and before it. -/
def preorder (owner : Option Text) (previous : Option Tree) : Tree → List Visit
  | .leaf kind role lexeme => [⟨.leaf kind role lexeme, previous, owner⟩]
  | .branch kind role children =>
    let visit : Visit := ⟨.branch kind role children, previous, owner⟩
    visit :: preorderAll visit.innerOwner none children

/-- The visits to siblings and to all below them in pre-order. -/
def preorderAll (owner : Option Text) (previous : Option Tree) : List Tree → List Visit
  | [] => []
  | node :: rest =>
    preorder owner previous node ++
      preorderAll owner (if node.isNamed then some node else previous) rest

end

/-- A visit and those to all below its node. -/
def descent (visit : Visit) : List Visit := preorder visit.owner visit.previous visit.node

variable {owner : Option Text} {previous : Option Tree} {visit : Visit} {pending : List Visit}

theorem descent_eq (visit : Visit) :
    visit.descent = visit :: preorderAll visit.innerOwner none visit.node.children := by
  obtain ⟨node, previous, owner⟩ := visit
  cases node <;> rfl

theorem flatMap_siblings (owner : Option Text) (previous : Option Tree) (nodes : List Tree) :
    (siblings owner previous nodes).flatMap descent = preorderAll owner previous nodes := by
  induction nodes generalizing previous with
  | nil => rfl
  | cons node rest ih =>
    rw [siblings, List.flatMap_cons, ih]
    rfl

theorem descent_eq_children (visit : Visit) :
    visit.descent = visit :: visit.children.flatMap descent := by
  rw [descent_eq, children, flatMap_siblings]

/-! ## The number of steps -/

/-- The number of nodes that a stack of visits has still to give. -/
def work (pending : List Visit) : Nat := Tree.sizeOfAll (pending.map (·.node))

theorem map_node_siblings (owner : Option Text) (previous : Option Tree) (nodes : List Tree) :
    (siblings owner previous nodes).map (·.node) = nodes := by
  induction nodes generalizing previous with
  | nil => rfl
  | cons node rest ih => rw [siblings, List.map_cons, ih]

theorem sizeOfAll_append (first second : List Tree) :
    Tree.sizeOfAll (first ++ second) = Tree.sizeOfAll first + Tree.sizeOfAll second := by
  induction first with
  | nil => simp [Tree.sizeOfAll]
  | cons node rest ih => rw [List.cons_append, Tree.sizeOfAll, Tree.sizeOfAll, ih, Nat.add_assoc]

theorem size_eq (node : Tree) : node.size = Tree.sizeOfAll node.children + 1 := by
  cases node with
  | leaf kind role lexeme => rfl
  | branch kind role children => rw [Tree.size, Tree.children]

/-- Each step takes one node off the work that is left. -/
theorem work_step (visit : Visit) (pending : List Visit) :
    work (visit :: pending) = work (visit.children ++ pending) + 1 := by
  have hchildren : visit.children.map (·.node) = visit.node.children :=
    map_node_siblings _ _ _
  rw [work, work, List.map_cons, List.map_append, hchildren, sizeOfAll_append, Tree.sizeOfAll,
    size_eq]
  omega

/-- With a step for each node, a walk gives what the visits on its stack stand for. -/
theorem walk_eq {steps : Nat} (h : work pending ≤ steps) :
    walk steps pending = pending.flatMap descent := by
  induction steps generalizing pending with
  | zero =>
    cases pending with
    | nil => rfl
    | cons visit pending =>
      rw [work_step] at h
      omega
  | succ steps ih =>
    cases pending with
    | nil => rfl
    | cons visit pending =>
      rw [work_step] at h
      rw [walk, ih (by omega), List.flatMap_append, List.flatMap_cons, descent_eq_children,
        List.cons_append]

end Visit

namespace Tree

/-- The visits of a whole tree in pre-order. -/
def preorder (root : Tree) : List Visit := Visit.preorder none none root

theorem visits_eq_preorder (root : Tree) : root.visits = root.preorder := by
  have hwork : Visit.work [⟨root, none, none⟩] ≤ root.size := by
    simp [Visit.work, sizeOfAll]
  rw [visits, Visit.walk_eq hwork, List.flatMap_singleton]
  rfl

/-! ## The nodes of a walk -/

/-- That a node is another one or lies below it. -/
inductive IsWithin (inner : Tree) : Tree → Prop
  | self : IsWithin inner inner
  | inChild {child node : Tree} (hchild : child ∈ node.children) (h : IsWithin inner child) :
      IsWithin inner node

end Tree

namespace Visit

variable {owner : Option Text} {previous : Option Tree} {node root : Tree} {visit : Visit}

/-- What is visited among siblings is visited below one of them. -/
theorem exists_mem_preorder {nodes : List Tree} (h : visit ∈ preorderAll owner previous nodes) :
    ∃ child ∈ nodes, ∃ before, visit ∈ preorder owner before child := by
  induction nodes generalizing previous with
  | nil => cases h
  | cons node rest ih =>
    rw [preorderAll] at h
    cases List.mem_append.1 h with
    | inl h => exact ⟨node, List.mem_cons_self, previous, h⟩
    | inr h =>
      obtain ⟨child, hchild, hvisit⟩ := ih h
      exact ⟨child, List.mem_cons_of_mem _ hchild, hvisit⟩

theorem isWithin_of_mem_preorder (h : visit ∈ preorder owner previous root) :
    visit.node.IsWithin root := by
  induction root using Tree.byChildren generalizing owner previous with
  | step root ih =>
    have hvisit : visit ∈ descent ⟨root, previous, owner⟩ := h
    rw [descent_eq] at hvisit
    cases List.mem_cons.1 hvisit with
    | inl hself =>
      rw [hself]
      exact .self
    | inr hbelow =>
      obtain ⟨child, hchild, before, hmem⟩ := exists_mem_preorder hbelow
      exact .inChild hchild (ih child hchild hmem)

theorem exists_preorder_subset {nodes : List Tree} (hnode : node ∈ nodes) (owner : Option Text)
    (previous : Option Tree) :
    ∃ before, preorder owner before node ⊆ preorderAll owner previous nodes := by
  induction nodes generalizing previous with
  | nil => cases hnode
  | cons first rest ih =>
    rw [preorderAll]
    rcases List.mem_cons.1 hnode with rfl | hnode
    · exact ⟨previous, List.subset_append_left _ _⟩
    · obtain ⟨before, hsubset⟩ := ih hnode (if first.isNamed then some first else previous)
      exact ⟨before, fun visit hvisit => List.mem_append_right _ (hsubset hvisit)⟩

theorem exists_visit_of_isWithin (h : node.IsWithin root) (owner : Option Text)
    (previous : Option Tree) : ∃ visit ∈ preorder owner previous root, visit.node = node := by
  induction h generalizing owner previous with
  | self =>
    have hmem : ⟨node, previous, owner⟩ ∈ descent ⟨node, previous, owner⟩ := by
      rw [descent_eq]
      exact List.mem_cons_self
    exact ⟨_, hmem, rfl⟩
  | @inChild child root hchild _ ih =>
    obtain ⟨before, hsubset⟩ :=
      exists_preorder_subset hchild (innerOwner ⟨root, previous, owner⟩) none
    obtain ⟨visit, hvisit, hnode⟩ := ih (innerOwner ⟨root, previous, owner⟩) before
    have hmem : visit ∈ descent ⟨root, previous, owner⟩ := by
      rw [descent_eq]
      exact List.mem_cons_of_mem _ (hsubset hvisit)
    exact ⟨visit, hmem, hnode⟩

end Visit

/-- A walk visits the root and all below it. -/
theorem Tree.exists_mem_visits_iff {node root : Tree} :
    (∃ visit ∈ root.visits, visit.node = node) ↔ node.IsWithin root := by
  rw [visits_eq_preorder]
  constructor
  · rintro ⟨visit, hvisit, rfl⟩
    exact Visit.isWithin_of_mem_preorder hvisit
  · exact fun h => Visit.exists_visit_of_isWithin h none none

/-! ## Declarations -/

namespace Tree

/-- The visits to type declarations in pre-order. -/
def typesInOrder (root : Tree) : List Visit := root.preorder.filter (·.node.isTypeDeclaration)

/-- The visits to method declarations in pre-order. -/
def methodsInOrder (root : Tree) : List Visit := root.preorder.filter (·.node.isMethodDeclaration)

theorem typeVisits_eq (root : Tree) : root.typeVisits = root.typesInOrder := by
  rw [typeVisits, visits_eq_preorder, typesInOrder]

theorem methodVisits_eq (root : Tree) : root.methodVisits = root.methodsInOrder := by
  rw [methodVisits, visits_eq_preorder, methodsInOrder]

/-- That a type with a name is declared somewhere in a tree. -/
def Declares (root : Tree) (name : Text) : Prop :=
  ∃ declaration, IsWithin declaration root ∧ declaration.isTypeDeclaration = true ∧
    declaration.declaredName = name

/-- The names of the types in a tree, but for the empty one. -/
theorem mem_declaredTypeNames_iff {root : Tree} {name : Text} :
    name ∈ root.declaredTypeNames ↔ name ≠ [] ∧ root.Declares name := by
  rw [declaredTypeNames, List.mem_eraseDups, List.mem_filter, and_comm, List.mem_map]
  refine and_congr (by simp) ?_
  constructor
  · rintro ⟨visit, hvisit, rfl⟩
    obtain ⟨hmem, htype⟩ := List.mem_filter.1 hvisit
    exact ⟨visit.node, exists_mem_visits_iff.1 ⟨visit, hmem, rfl⟩, htype, rfl⟩
  · rintro ⟨declaration, hwithin, htype, rfl⟩
    obtain ⟨visit, hmem, rfl⟩ := exists_mem_visits_iff.2 hwithin
    exact ⟨visit, List.mem_filter.2 ⟨hmem, htype⟩, rfl⟩

end Tree

end DocGraph.Java

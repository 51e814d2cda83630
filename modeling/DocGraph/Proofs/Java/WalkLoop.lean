import DocGraph.Java.Grammar
import DocGraph.Proofs.Java.Place

/-!
# The loop of a walk

A walk is a loop over a stack. Each round takes the visit on top of the stack, gives it, and puts
the visits to its children on top from left to right. What the loop has given and what the stack
stands for together stay the same, and each round leaves one node less to give. So the loop ends
after one round for each node, with the nodes in pre-order.

As the types of a source are found along a walk, the first one with a name is the one whose place
comes before the places of all others.
-/

namespace DocGraph.Java

namespace Visit

/-- A walk between two rounds: the visits it has given, and those on its stack. -/
structure Progress where
  given : List Visit
  pending : List Visit

/-- A round of the loop. There is none where the stack is empty. -/
inductive Round : Progress → Progress → Prop
  | pop (given : List Visit) (visit : Visit) (pending : List Visit) :
    Round ⟨given, visit :: pending⟩ ⟨given ++ [visit], visit.children ++ pending⟩

/-- A number of rounds, one after the other. -/
inductive Rounds : Nat → Progress → Progress → Prop
  | none (state : Progress) : Rounds 0 state state
  | more {n : Nat} {first second last : Progress} (h : Round first second)
      (hrest : Rounds n second last) : Rounds (n + 1) first last

/-- All that a walk gives in the end: what it has given, and what its stack stands for. -/
def Progress.whole (state : Progress) : List Visit := state.given ++ state.pending.flatMap descent

variable {n : Nat} {first second last : Progress} {given pending : List Visit}

/-! ## Rounds -/

theorem Round.whole_eq (h : Round first second) : second.whole = first.whole := by
  cases h with
  | pop given visit pending =>
    rw [Progress.whole, Progress.whole, List.flatMap_append, List.flatMap_cons, descent_eq_children,
      List.append_assoc]
    rfl

theorem Round.work_eq (h : Round first second) : work first.pending = work second.pending + 1 := by
  cases h with
  | pop given visit pending => exact work_step visit pending

theorem Rounds.whole_eq (h : Rounds n first last) : last.whole = first.whole := by
  induction h with
  | none state => rfl
  | more hround _ ih => exact ih.trans hround.whole_eq

theorem Rounds.work_eq (h : Rounds n first last) : work first.pending = work last.pending + n := by
  induction h with
  | none state => rfl
  | more hround _ ih => rw [hround.work_eq, ih, Nat.add_assoc]

theorem work_eq_zero_iff : work pending = 0 ↔ pending = [] := by
  cases pending with
  | nil => simp [work, Tree.sizeOfAll]
  | cons visit pending => simp [work_step]

/-- The loop goes on until its stack is empty. -/
theorem rounds_work (given pending : List Visit) :
    Rounds (work pending) ⟨given, pending⟩ ⟨given ++ pending.flatMap descent, []⟩ := by
  induction hn : work pending generalizing given pending with
  | zero =>
    obtain rfl := work_eq_zero_iff.1 hn
    rw [List.flatMap_nil, List.append_nil]
    exact .none _
  | succ n ih =>
    cases pending with
    | nil => simp [work, Tree.sizeOfAll] at hn
    | cons visit pending =>
      have hround := Round.pop given visit pending
      have hrest := ih (given ++ [visit]) (visit.children ++ pending)
        (Nat.succ.inj ((work_step visit pending).symm.trans hn))
      have hwhole : given ++ [visit] ++ (visit.children ++ pending).flatMap descent =
          given ++ (visit :: pending).flatMap descent := hround.whole_eq
      rw [hwhole] at hrest
      exact .more hround hrest

end Visit

namespace Tree

mutual

/-- The nodes of a tree in pre-order. -/
def nodes : Tree → List Tree
  | leaf kind role lexeme => [leaf kind role lexeme]
  | branch kind role children => branch kind role children :: nodesOfAll children

/-- The nodes of several trees in pre-order, tree by tree. -/
def nodesOfAll : List Tree → List Tree
  | [] => []
  | node :: rest => nodes node ++ nodesOfAll rest

end

/-- A walk before its first round. -/
def atStart (root : Tree) : Visit.Progress := ⟨[], [⟨root, none, none⟩]⟩

/-- Whether a type with a name is declared at a place. -/
def HasTypeAt (root : Tree) (name : Text) (place : Place) : Prop :=
  ∃ node, root.at? place = some node ∧ node.isTypeDeclaration = true ∧ node.declaredName = name

variable {root declaration : Tree} {name : Text} {place : Place} {n : Nat} {state : Visit.Progress}

/-! ## Pre-order -/

theorem nodesOfAll_eq (nodes : List Tree) : nodesOfAll nodes = nodes.flatMap Tree.nodes := by
  induction nodes with
  | nil => rfl
  | cons node rest ih => rw [nodesOfAll, ih, List.flatMap_cons]

theorem nodes_eq (node : Tree) : node.nodes = node :: node.children.flatMap nodes := by
  cases node with
  | leaf kind role lexeme => rfl
  | branch kind role children => rw [nodes, nodesOfAll_eq, Tree.children]

theorem map_node_descent (visit : Visit) : visit.descent.map (·.node) = visit.node.nodes := by
  induction hnode : visit.node using Tree.byChildren generalizing visit with
  | step node ih =>
    have hchildren : visit.children.map (·.node) = node.children := by
      rw [← hnode]
      exact Visit.map_node_siblings _ _ _
    have hbelow : ∀ child ∈ visit.children, child.descent.map (·.node) = child.node.nodes := by
      intro child hchild
      have hmem : child.node ∈ node.children := by
        rw [← hchildren]
        exact List.mem_map_of_mem hchild
      exact ih child.node hmem child rfl
    rw [Visit.descent_eq_children, List.map_cons, List.map_flatMap, List.flatMap_congr hbelow,
      ← List.flatMap_map, hchildren, hnode, ← nodes_eq]

theorem map_node_visits (root : Tree) : root.visits.map (·.node) = root.nodes := by
  rw [visits_eq_preorder]
  exact map_node_descent ⟨root, none, none⟩

/-! ## The rounds of a whole tree -/

theorem work_atStart (root : Tree) : Visit.work root.atStart.pending = root.size := by
  simp [atStart, Visit.work, sizeOfAll]

theorem whole_atStart (root : Tree) : root.atStart.whole = root.visits := by
  rw [visits_eq_preorder, atStart, Visit.Progress.whole, List.flatMap_singleton]
  rfl

/-- The loop is over after one round for each node. -/
theorem rounds_size (root : Tree) : Visit.Rounds root.size root.atStart ⟨root.visits, []⟩ := by
  have h := Visit.rounds_work [] root.atStart.pending
  have hwhole : [] ++ root.atStart.pending.flatMap Visit.descent = root.visits :=
    whole_atStart root
  rwa [work_atStart, hwhole] at h

theorem le_size_of_rounds (h : Visit.Rounds n root.atStart state) : n ≤ root.size := by
  have hwork := h.work_eq
  rw [work_atStart] at hwork
  omega

theorem given_of_rounds (h : Visit.Rounds n root.atStart state) (hend : state.pending = []) :
    state.given = root.visits := by
  have hwhole := h.whole_eq
  rwa [whole_atStart, Visit.Progress.whole, hend, List.flatMap_nil, List.append_nil] at hwhole

/-- A node stands before all below it. -/
theorem index_lt_of_below {i j : Nat} {below : Place} (hi : root.places[i]? = some place)
    (hj : root.places[j]? = some (place ++ below)) (hbelow : below ≠ []) : i < j := by
  obtain ⟨hi', rfl⟩ := List.getElem?_eq_some_iff.1 hi
  obtain ⟨hj', hplace⟩ := List.getElem?_eq_some_iff.1 hj
  have hlt : root.places[i] < root.places[j] := hplace ▸ lt_append hbelow
  by_contra hle
  rcases Nat.eq_or_lt_of_le (Nat.le_of_not_lt hle) with rfl | hgt
  · exact lt_irrefl _ hlt
  · exact lt_asymm hlt (List.pairwise_iff_getElem.1 (pairwise_places root) _ _ _ _ hgt)

/-! ## First declarations -/

theorem findType?_eq_none_iff :
    root.findType? name = none ↔ name ∉ root.typeVisits.map (·.node.declaredName) := by
  simp [findType?]

theorem findType?_eq_find? (root : Tree) (name : Text) :
    root.findType? name = (root.placedVisits.find? fun stop =>
      stop.2.node.isTypeDeclaration && stop.2.node.declaredName == name).map (·.2.node) := by
  rw [findType?, typeVisits_eq_map, List.find?_map, List.find?_filter, Option.map_map]
  simp only [Function.comp_def, Bool.decide_and, Bool.decide_eq_true]

/-- The type that is found comes before all others with its name. -/
theorem exists_first_of_findType? (h : root.findType? name = some declaration) :
    ∃ place, root.at? place = some declaration ∧ root.HasTypeAt name place ∧
      ∀ other, root.HasTypeAt name other → place ≤ other := by
  rw [findType?_eq_find?, Option.map_eq_some_iff] at h
  obtain ⟨⟨place, visit⟩, hfind, rfl⟩ := h
  obtain ⟨htest, before, after, hsplit, hbefore⟩ := List.find?_eq_some_iff_append.1 hfind
  have hvisit := isVisit_of_mem_placedVisits (List.mem_of_find?_eq_some hfind)
  simp only [Bool.and_eq_true, beq_iff_eq] at htest
  refine ⟨place, hvisit.node, ⟨visit.node, hvisit.node, htest⟩, ?_⟩
  rintro other ⟨node, hnode, htype, hname⟩
  obtain ⟨found, hmem, rfl⟩ := exists_mem_placedVisits hnode
  have hascending := pairwise_placedVisits root
  rw [hsplit] at hmem hascending
  rcases List.mem_append.1 hmem with hmem | hmem
  · have hfails := hbefore _ hmem
    simp [htype, hname] at hfails
  · rcases List.mem_cons.1 hmem with heq | hmem
    · cases heq
      exact le_rfl
    · have hlater := (List.pairwise_cons.1 (List.pairwise_append.1 hascending).2.1).1
      exact le_of_lt (hlater _ hmem)

theorem findType?_eq_some_iff : root.findType? name = some declaration ↔
    ∃ place, root.at? place = some declaration ∧ root.HasTypeAt name place ∧
      ∀ other, root.HasTypeAt name other → place ≤ other := by
  refine ⟨exists_first_of_findType?, ?_⟩
  rintro ⟨place, hat, htype, hfirst⟩
  cases hfind : root.findType? name with
  | none =>
    obtain ⟨node, hnode, hdeclares, hname⟩ := htype
    obtain ⟨visit, hmem, rfl⟩ := exists_mem_placedVisits hnode
    rw [findType?_eq_find?, Option.map_eq_none_iff, List.find?_eq_none] at hfind
    have hfails := hfind _ hmem
    simp [hdeclares, hname] at hfails
  | some found =>
    obtain ⟨place', hat', htype', hfirst'⟩ := exists_first_of_findType? hfind
    obtain rfl : place = place' := le_antisymm (hfirst place' htype') (hfirst' place htype)
    exact hat'.symm.trans hat

/-- The loop of a walk ends after one round for each node of the tree, and not later. It then has
given the root and its children in pre-order: each place of the tree once, in ascending order, and
so every node before all below it. Of the types with a name, the first one in this order is found,
and none only where no type on the walk has the name. -/
theorem walk_in_preorder (root : Tree) :
    (Visit.Rounds root.size root.atStart ⟨root.visits, []⟩ ∧
      ∀ n state, Visit.Rounds n root.atStart state →
        n ≤ root.size ∧ (state.pending = [] → state.given = root.visits)) ∧
    (root.visits.map (·.node) = root.nodes ∧
      ∀ node : Tree, node.nodes = node :: node.children.flatMap nodes) ∧
    (List.Forall₂ (fun place visit => root.at? place = some visit.node) root.places root.visits ∧
      (∀ place, place ∈ root.places ↔ ∃ node, root.at? place = some node) ∧
      root.places.Pairwise (· < ·) ∧
      ∀ (i j : Nat) (place below : Place), root.places[i]? = some place →
        root.places[j]? = some (place ++ below) → below ≠ [] → i < j) ∧
    ∀ name, (root.findType? name = none ↔
        name ∉ root.typeVisits.map (·.node.declaredName)) ∧
      ∀ declaration, root.findType? name = some declaration ↔
        ∃ place, root.at? place = some declaration ∧ root.HasTypeAt name place ∧
          ∀ other, root.HasTypeAt name other → place ≤ other := by
  refine ⟨⟨rounds_size root, ?_⟩, ⟨map_node_visits root, nodes_eq⟩, ⟨?_, ?_, ?_, ?_⟩, ?_⟩
  · exact fun n state h => ⟨le_size_of_rounds h, given_of_rounds h⟩
  · exact (forall₂_isVisit root).imp fun _ _ h => h.node
  · exact fun place => mem_places_iff
  · exact pairwise_places root
  · exact fun i j place below => index_lt_of_below
  · exact fun name => ⟨findType?_eq_none_iff, fun declaration => findType?_eq_some_iff⟩

/-- Of two types named `B`, the one inside `A` stands before the one behind `A`, and is found. -/
theorem walk_in_preorder_of_two_namesakes :
    let root := (outline "class A\x7bclass B\x7b\x7d\x7dclass B\x7b\x7d".toList).root
    Visit.Rounds 19 root.atStart ⟨root.visits, []⟩ ∧
      (∃ state, Visit.Rounds 1 root.atStart state ∧ 1 ≤ root.size) ∧
      (root.places[0]? = some [] ∧ root.places[13]? = some [1] ∧ 0 < 13) ∧
      root.HasTypeAt ['B'] [1] ∧ ∃ declaration place, root.findType? ['B'] = some declaration ∧
        root.at? place = some declaration ∧ root.HasTypeAt ['B'] place ∧ place ≤ [1] := by
  intro root
  obtain ⟨⟨hend, hbound⟩, -, ⟨-, -, -, hbelow⟩, hfind⟩ := walk_in_preorder root
  have hsize : root.size = 19 := by decide +kernel
  have hround : Visit.Rounds 1 root.atStart _ := .more (.pop [] ⟨root, none, none⟩ []) (.none _)
  have hfirst : root.places[0]? = some [] := by decide +kernel
  have hlast : root.places[13]? = some [1] := by decide +kernel
  have htype : root.HasTypeAt ['B'] [1] := by
    have hany : (root.at? [1]).any (fun node =>
        node.isTypeDeclaration && node.declaredName == ['B']) = true := by decide +kernel
    obtain ⟨node, hnode, htest⟩ := (Option.any_eq_true _ _).1 hany
    simp only [Bool.and_eq_true, beq_iff_eq] at htest
    exact ⟨node, hnode, htest⟩
  have hsome : (root.findType? ['B']).isSome = true := by decide +kernel
  obtain ⟨declaration, hfound⟩ := Option.isSome_iff_exists.1 hsome
  obtain ⟨place, hat, hplace, hbefore⟩ := ((hfind ['B']).2 declaration).1 hfound
  exact ⟨hsize ▸ hend, ⟨_, hround, (hbound 1 _ hround).1⟩,
    ⟨hfirst, hlast, hbelow 0 13 [] [1] hfirst hlast (by decide)⟩, htype, declaration, place, hfound,
    hat, hplace, hbefore [1] htype⟩

end Tree

end DocGraph.Java

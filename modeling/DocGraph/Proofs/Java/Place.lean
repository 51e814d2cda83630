import DocGraph.Proofs.Java.Preorder
import Mathlib.Data.List.Forall2
import Mathlib.Data.List.Infix
import Mathlib.Data.List.Lex

/-!
# Places in a tree

Equal nodes may stand at several places of a tree, so a place is told by the way to it: which child
to take at each step from the root. In the order of words, places are in pre-order: a place comes
before all below it, and all below one child before all below a later one.

A walk goes to every place once, in this order. What a visit tells of the surroundings of a node can
be read off the tree at its place: the nearest named sibling before it, and the innermost type
declaration around it.
-/

namespace DocGraph.Java

/-- The way from a node to one below it: which child to take at each step. -/
abbrev Place := List Nat

namespace Tree

/-- The node at a place. -/
def at? : Tree → Place → Option Tree
  | node, [] => some node
  | node, i :: place => node.children[i]?.bind fun child => at? child place

mutual

/-- The places of a tree in pre-order. -/
def places : Tree → List Place
  | leaf .. => [[]]
  | branch _ _ children => [] :: placesOfAll 0 children

/-- The places of siblings in pre-order, given the number of those before them. -/
def placesOfAll (i : Nat) : List Tree → List Place
  | [] => []
  | node :: rest => (places node).map (i :: ·) ++ placesOfAll (i + 1) rest

end

/-- Whether the first place is the one of the nearest named sibling before the second one. -/
def NamedBefore (root : Tree) (before place : Place) : Prop :=
  ∃ above i j, before = above ++ [i] ∧ place = above ++ [j] ∧ i < j ∧
    (∃ node, root.at? before = some node ∧ node.isNamed = true) ∧
    ∀ k, i < k → k < j → ∀ node, root.at? (above ++ [k]) = some node → node.isNamed = false

/-- Whether the first place is the one of the innermost type declaration around the second one. -/
structure Encloses (root : Tree) (around place : Place) : Prop where
  isAround : around <+: place ∧ around ≠ place
  declares : ∃ node, root.at? around = some node ∧ node.isTypeDeclaration = true
  innermost : ∀ other node, other <+: place → other ≠ place → root.at? other = some node →
    node.isTypeDeclaration = true → other <+: around

/-- Whether a node is the nearest named sibling before a place. -/
def PreviousAt (root : Tree) (place : Place) (previous : Option Tree) : Prop :=
  ∀ node, previous = some node ↔
    ∃ before, root.NamedBefore before place ∧ root.at? before = some node

/-- Whether a name is that of the innermost type declaration around a place. -/
def OwnerAt (root : Tree) (place : Place) (owner : Option Text) : Prop :=
  ∀ name, owner = some name ↔ ∃ around declaration, root.Encloses around place ∧
    root.at? around = some declaration ∧ declaration.declaredName = name

/-- Whether a visit tells what there is at a place and around it. -/
structure IsVisit (root : Tree) (place : Place) (visit : Visit) : Prop where
  node : root.at? place = some visit.node
  previous : root.PreviousAt place visit.previous
  owner : root.OwnerAt place visit.owner

variable {root node : Tree} {place before around : Place} {i : Nat} {nodes : List Tree}
variable {previous : Option Tree} {owner : Option Text}

/-! ## Nodes at places -/

@[simp] theorem at?_nil (root : Tree) : root.at? [] = some root := rfl

theorem at?_cons (root : Tree) (i : Nat) (place : Place) :
    root.at? (i :: place) = root.children[i]?.bind fun child => child.at? place := rfl

theorem at?_append (root : Tree) (above place : Place) :
    root.at? (above ++ place) = (root.at? above).bind fun node => node.at? place := by
  induction above generalizing root with
  | nil => rfl
  | cons i above ih =>
    rw [List.cons_append, at?_cons, at?_cons, Option.bind_assoc]
    congr 1
    funext child
    exact ih child

theorem at?_concat (h : root.at? place = some node) (i : Nat) :
    root.at? (place ++ [i]) = node.children[i]? := by
  rw [at?_append, h, Option.bind_some, at?_cons]
  simp

/-! ## The order of places -/

theorem places_eq (node : Tree) : node.places = [] :: placesOfAll 0 node.children := by
  cases node with
  | leaf kind role lexeme => rfl
  | branch kind role children => rw [places, Tree.children]

/-- The places of siblings begin with the number of one of them. -/
theorem mem_placesOfAll_iff : place ∈ placesOfAll i nodes ↔
    ∃ k node rest, nodes[k]? = some node ∧ rest ∈ node.places ∧ place = (i + k) :: rest := by
  induction nodes generalizing i with
  | nil => simp [placesOfAll]
  | cons first nodes ih =>
    rw [placesOfAll, List.mem_append, List.mem_map, ih]
    constructor
    · rintro (⟨rest, hrest, rfl⟩ | ⟨k, node, rest, hnode, hrest, rfl⟩)
      · exact ⟨0, first, rest, rfl, hrest, rfl⟩
      · exact ⟨k + 1, node, rest, by simpa using hnode, hrest, by rw [Nat.add_right_comm]; rfl⟩
    · rintro ⟨k, node, rest, hnode, hrest, rfl⟩
      cases k with
      | zero =>
        cases hnode
        exact .inl ⟨rest, hrest, rfl⟩
      | succ k =>
        exact .inr ⟨k, node, rest, by simpa using hnode, hrest, by rw [Nat.add_right_comm]; rfl⟩

theorem mem_places_iff : place ∈ root.places ↔ ∃ node, root.at? place = some node := by
  induction place generalizing root with
  | nil => simp [places_eq]
  | cons i place ih =>
    rw [places_eq, List.mem_cons, mem_placesOfAll_iff, at?_cons]
    constructor
    · rintro (h | ⟨k, child, rest, hchild, hrest, hplace⟩)
      · cases h
      · rw [Nat.zero_add, List.cons.injEq] at hplace
        obtain ⟨rfl, rfl⟩ := hplace
        rw [hchild]
        exact ih.1 hrest
    · rintro ⟨node, hnode⟩
      obtain ⟨child, hchild, hat⟩ := Option.bind_eq_some_iff.1 hnode
      exact .inr ⟨i, child, place, hchild, ih.2 ⟨node, hat⟩, by rw [Nat.zero_add]⟩

theorem pairwise_map_cons {places : List Place} (h : places.Pairwise (· < ·)) (i : Nat) :
    (places.map (i :: ·)).Pairwise (· < ·) :=
  List.pairwise_map.2 (h.imp fun hlt => List.cons_lt_cons_iff.2 (.inr ⟨rfl, hlt⟩))

theorem pairwise_placesOfAll (h : ∀ node ∈ nodes, node.places.Pairwise (· < ·)) (i : Nat) :
    (placesOfAll i nodes).Pairwise (· < ·) := by
  induction nodes generalizing i with
  | nil => exact List.Pairwise.nil
  | cons first nodes ih =>
    rw [List.forall_mem_cons] at h
    rw [placesOfAll, List.pairwise_append]
    refine ⟨pairwise_map_cons h.1 i, ih h.2 (i + 1), ?_⟩
    intro place hplace other hother
    obtain ⟨rest, -, rfl⟩ := List.mem_map.1 hplace
    obtain ⟨k, -, later, -, -, rfl⟩ := mem_placesOfAll_iff.1 hother
    exact List.cons_lt_cons_iff.2 (.inl (by omega))

/-- Places are listed in ascending order, so none is listed twice. -/
theorem pairwise_places (root : Tree) : root.places.Pairwise (· < ·) := by
  induction root using Tree.byChildren with
  | step root ih =>
    rw [places_eq, List.pairwise_cons]
    refine ⟨?_, pairwise_placesOfAll ih 0⟩
    intro place hplace
    obtain ⟨k, node, rest, -, -, rfl⟩ := mem_placesOfAll_iff.1 hplace
    exact List.nil_lt_cons _ _

theorem lt_append {below : Place} (h : below ≠ []) : place < place ++ below := by
  induction place with
  | nil =>
    obtain ⟨i, rest, rfl⟩ := List.exists_cons_of_ne_nil h
    exact List.nil_lt_cons _ _
  | cons i place ih => exact List.cons_lt_cons_iff.2 (.inr ⟨rfl, ih⟩)

/-! ## Siblings before a place -/

theorem not_namedBefore_root (root : Tree) (before : Place) : ¬ root.NamedBefore before [] := by
  rintro ⟨above, i, j, -, hplace, -⟩
  cases above <;> cases hplace

/-- No sibling stands before the first child. -/
theorem not_namedBefore_first (root : Tree) (before place : Place) :
    ¬ root.NamedBefore before (place ++ [0]) := by
  rintro ⟨above, i, j, -, hplace, hlt, -⟩
  obtain ⟨-, hj⟩ := List.append_inj' hplace rfl
  rw [List.cons.injEq] at hj
  omega

/-- The nearest named sibling before the next child is this child, or else the one before it. -/
theorem namedBefore_next_iff (hnode : root.at? (place ++ [i]) = some node) :
    root.NamedBefore before (place ++ [i + 1]) ↔
      if node.isNamed then before = place ++ [i] else root.NamedBefore before (place ++ [i]) := by
  constructor
  · rintro ⟨above, k, j, rfl, hplace, hlt, hnamed, hbetween⟩
    obtain ⟨rfl, hj⟩ := List.append_inj' hplace rfl
    obtain rfl : i + 1 = j := by simpa using hj
    split
    · next hname =>
      by_cases hk : k = i
      · rw [hk]
      · rw [hbetween i (by omega) (by omega) node hnode] at hname
        cases hname
    · next hname =>
      have hk : k ≠ i := by
        rintro rfl
        obtain ⟨found, hfound, hisNamed⟩ := hnamed
        rw [hnode, Option.some.injEq] at hfound
        exact hname (hfound ▸ hisNamed)
      exact ⟨place, k, i, rfl, rfl, by omega, hnamed,
        fun between hlower hupper => hbetween between hlower (by omega)⟩
  · intro h
    split at h
    · next hname =>
      refine ⟨place, i, i + 1, h, rfl, Nat.lt_succ_self i, ⟨node, h ▸ hnode, hname⟩, ?_⟩
      intro k hlower hupper
      omega
    · next hname =>
      obtain ⟨above, k, j, rfl, hplace, hlt, hnamed, hbetween⟩ := h
      obtain ⟨rfl, hj⟩ := List.append_inj' hplace rfl
      obtain rfl : i = j := by simpa using hj
      refine ⟨place, k, i + 1, rfl, rfl, by omega, hnamed, ?_⟩
      intro between hlower hupper other hother
      rcases Nat.lt_succ_iff_lt_or_eq.1 hupper with hlt' | rfl
      · exact hbetween between hlower hlt' other hother
      · rw [hnode, Option.some.injEq] at hother
        rw [← hother]
        exact Bool.eq_false_iff.2 hname

/-- A node is the nearest named sibling before one named node at most. -/
theorem NamedBefore.unique {other : Place} {second : Tree} (h : root.NamedBefore before place)
    (h' : root.NamedBefore before other) (hnode : root.at? place = some node)
    (hnamed : node.isNamed = true) (hsecond : root.at? other = some second)
    (hnamed' : second.isNamed = true) : place = other := by
  obtain ⟨above, i, j, rfl, rfl, hlt, -, hbetween⟩ := h
  obtain ⟨above', i', j', hbefore, rfl, hlt', -, hbetween'⟩ := h'
  obtain ⟨rfl, hi⟩ := List.append_inj' hbefore rfl
  obtain rfl : i = i' := by simpa using hi
  rcases Nat.lt_trichotomy j j' with hj | rfl | hj
  · rw [hbetween' j hlt hj node hnode] at hnamed
    cases hnamed
  · rfl
  · rw [hbetween j' hlt' hj second hsecond] at hnamed'
    cases hnamed'

/-- Only one place is that of the nearest named sibling before another one. -/
theorem NamedBefore.before_unique {other : Place} (h : root.NamedBefore before place)
    (h' : root.NamedBefore other place) : before = other := by
  obtain ⟨above, i, j, rfl, rfl, hlt, ⟨node, hnode, hnamed⟩, hbetween⟩ := h
  obtain ⟨above', i', j', rfl, hplace, hlt', ⟨node', hnode', hnamed'⟩, hbetween'⟩ := h'
  obtain ⟨rfl, hj⟩ := List.append_inj' hplace rfl
  obtain rfl : j = j' := by simpa using hj
  rcases Nat.lt_trichotomy i i' with hi | rfl | hi
  · rw [hbetween i' hi hlt' node' hnode'] at hnamed'
    cases hnamed'
  · rfl
  · rw [hbetween' i hi hlt node hnode] at hnamed
    cases hnamed

/-! ## Type declarations around a place -/

theorem not_encloses_root (root : Tree) (around : Place) : ¬ root.Encloses around [] := fun h =>
  h.isAround.2 (List.prefix_nil.1 h.isAround.1)

theorem isPrefix_and_ne_concat_iff {other : Place} :
    other <+: place ++ [i] ∧ other ≠ place ++ [i] ↔ other <+: place := by
  rw [List.prefix_concat_iff]
  constructor
  · rintro ⟨h, hne⟩
    exact h.resolve_left hne
  · intro h
    refine ⟨.inr h, ?_⟩
    rintro rfl
    have hlength := h.length_le
    rw [List.length_append, List.length_singleton] at hlength
    omega

/-- Around a child there is its parent, if that declares a type, or else what is around the parent.
-/
theorem encloses_child_iff (hnode : root.at? place = some node) :
    root.Encloses around (place ++ [i]) ↔
      if node.isTypeDeclaration then around = place else root.Encloses around place := by
  constructor
  · rintro ⟨hisAround, hdeclares, hinnermost⟩
    rw [isPrefix_and_ne_concat_iff] at hisAround
    split
    · next htype =>
      obtain ⟨hself, hne⟩ := (@isPrefix_and_ne_concat_iff place i place).2 (List.prefix_refl _)
      exact hisAround.eq_of_length_le (hinnermost place node hself hne hnode htype).length_le
    · next htype =>
      refine ⟨⟨hisAround, ?_⟩, hdeclares, ?_⟩
      · rintro rfl
        obtain ⟨found, hfound, hdeclared⟩ := hdeclares
        rw [hnode, Option.some.injEq] at hfound
        exact htype (hfound ▸ hdeclared)
      · intro other declaration hwithin hne
        obtain ⟨hwithin', hne'⟩ := (@isPrefix_and_ne_concat_iff place i other).2 hwithin
        exact hinnermost other declaration hwithin' hne'
  · intro h
    split at h
    · next htype =>
      subst h
      refine ⟨isPrefix_and_ne_concat_iff.2 (List.prefix_refl _), ⟨node, hnode, htype⟩, ?_⟩
      intro other declaration hwithin hne _ _
      exact isPrefix_and_ne_concat_iff.1 ⟨hwithin, hne⟩
    · next htype =>
      refine ⟨isPrefix_and_ne_concat_iff.2 h.isAround.1, h.declares, ?_⟩
      intro other declaration hwithin hne hat hdeclared
      refine h.innermost other declaration (isPrefix_and_ne_concat_iff.1 ⟨hwithin, hne⟩) ?_ hat
        hdeclared
      rintro rfl
      rw [hnode, Option.some.injEq] at hat
      exact htype (hat ▸ hdeclared)

/-! ## The places of a walk -/

theorem previousAt_none (h : ∀ before, ¬ root.NamedBefore before place) :
    root.PreviousAt place none := by
  intro node
  refine ⟨nofun, ?_⟩
  rintro ⟨before, hbefore, -⟩
  exact absurd hbefore (h before)

theorem PreviousAt.next (h : root.PreviousAt (place ++ [i]) previous)
    (hnode : root.at? (place ++ [i]) = some node) :
    root.PreviousAt (place ++ [i + 1]) (if node.isNamed then some node else previous) := by
  intro other
  simp only [namedBefore_next_iff hnode]
  split
  · rw [← hnode]
    simp
  · exact h other

theorem ownerAt_root (root : Tree) : root.OwnerAt [] none := by
  intro name
  refine ⟨nofun, ?_⟩
  rintro ⟨around, -, haround, -⟩
  exact absurd haround (not_encloses_root root around)

theorem OwnerAt.inner (h : root.OwnerAt place owner) (hnode : root.at? place = some node)
    (previous : Option Tree) (i : Nat) :
    root.OwnerAt (place ++ [i]) (Visit.innerOwner ⟨node, previous, owner⟩) := by
  intro name
  simp only [encloses_child_iff hnode, Visit.innerOwner]
  split
  · simp [hnode]
  · exact h name

/-- What is visited among siblings is what there is at their places, if this is so below each of
them. -/
theorem forall₂_isVisit_preorderAll
    (hbelow : ∀ child ∈ nodes, ∀ {place previous owner}, root.at? place = some child →
      root.PreviousAt place previous → root.OwnerAt place owner →
      List.Forall₂ root.IsVisit (child.places.map (place ++ ·))
        (Visit.preorder owner previous child))
    (hat : ∀ k child, nodes[k]? = some child → root.at? (place ++ [i + k]) = some child)
    (hprevious : root.PreviousAt (place ++ [i]) previous)
    (howner : ∀ k, root.OwnerAt (place ++ [k]) owner) :
    List.Forall₂ root.IsVisit ((placesOfAll i nodes).map (place ++ ·))
      (Visit.preorderAll owner previous nodes) := by
  induction nodes generalizing i previous with
  | nil => exact List.Forall₂.nil
  | cons first nodes ih =>
    rw [List.forall_mem_cons] at hbelow
    have hfirst : root.at? (place ++ [i]) = some first := hat 0 first rfl
    rw [placesOfAll, List.map_append, List.map_map, Visit.preorderAll]
    refine List.rel_append ?_ (ih hbelow.2 ?_ (hprevious.next hfirst))
    · have hmap : ((place ++ ·) ∘ (i :: ·) : Place → Place) = (place ++ [i] ++ ·) := by
        funext rest
        simp
      rw [hmap]
      exact hbelow.1 hfirst hprevious (howner i)
    · intro k child hchild
      rw [Nat.add_right_comm, Nat.add_assoc]
      exact hat (k + 1) child (by simpa using hchild)

theorem forall₂_isVisit_preorder (hnode : root.at? place = some node)
    (hprevious : root.PreviousAt place previous) (howner : root.OwnerAt place owner) :
    List.Forall₂ root.IsVisit (node.places.map (place ++ ·))
      (Visit.preorder owner previous node) := by
  induction node using Tree.byChildren generalizing place previous owner with
  | step node ih =>
    have hdescent : Visit.preorder owner previous node = Visit.descent ⟨node, previous, owner⟩ :=
      rfl
    rw [hdescent, Visit.descent_eq, places_eq, List.map_cons, List.append_nil]
    refine .cons ⟨hnode, hprevious, howner⟩ ?_
    apply forall₂_isVisit_preorderAll
    · exact fun child hchild _ _ _ => ih child hchild
    · intro k child hchild
      rw [Nat.zero_add, at?_concat hnode, hchild]
    · exact previousAt_none fun before => not_namedBefore_first root before place
    · exact howner.inner hnode previous

/-- A walk goes to all places of a tree, in their order, and tells what there is at each. -/
theorem forall₂_isVisit (root : Tree) : List.Forall₂ root.IsVisit root.places root.visits := by
  have h := forall₂_isVisit_preorder (at?_nil root) (previousAt_none (not_namedBefore_root root))
    (ownerAt_root root)
  rw [visits_eq_preorder, preorder]
  simpa using h

/-- The visits of a walk with their places. -/
def placedVisits (root : Tree) : List (Place × Visit) := root.places.zip root.visits

theorem isVisit_of_mem_placedVisits {stop : Place × Visit} (h : stop ∈ root.placedVisits) :
    root.IsVisit stop.1 stop.2 :=
  List.forall₂_zip (forall₂_isVisit root) h

theorem map_fst_placedVisits (root : Tree) : root.placedVisits.map Prod.fst = root.places :=
  List.map_fst_zip (forall₂_isVisit root).length_eq.le

theorem map_snd_placedVisits (root : Tree) : root.placedVisits.map Prod.snd = root.visits :=
  List.map_snd_zip (forall₂_isVisit root).length_eq.ge

theorem pairwise_placedVisits (root : Tree) :
    root.placedVisits.Pairwise fun a b => a.1 < b.1 := by
  have h := pairwise_places root
  rwa [← map_fst_placedVisits, List.pairwise_map] at h

/-- Every node of a tree is visited at its place. -/
theorem exists_mem_placedVisits (h : root.at? place = some node) :
    ∃ visit, (place, visit) ∈ root.placedVisits ∧ visit.node = node := by
  have hplace : place ∈ root.places := mem_places_iff.2 ⟨node, h⟩
  rw [← map_fst_placedVisits, List.mem_map] at hplace
  obtain ⟨⟨place, visit⟩, hmem, rfl⟩ := hplace
  have hvisit := (isVisit_of_mem_placedVisits hmem).node
  rw [h, Option.some.injEq] at hvisit
  exact ⟨visit, hmem, hvisit.symm⟩

theorem typeVisits_eq_map (root : Tree) :
    root.typeVisits =
      (root.placedVisits.filter (·.2.node.isTypeDeclaration)).map Prod.snd := by
  rw [typeVisits, ← map_snd_placedVisits, List.filter_map]
  rfl

end Tree

end DocGraph.Java

import DocGraph.Proofs.Graph.Concatenation
import DocGraph.Proofs.Text.Order

/-!
# Documented uses of one node

What a graph documents about a name is read off a single node, `IsNodeFor`. The names are those
behind the last dots of its targets. They are listed in the order in which they first occur, and
nothing else in the graph counts: neither another node of the same name nor a block without one.

So a text that follows behind a blank line changes nothing if the node is found without it, be it by
its name or, where no node has the name, as the first.
-/

namespace DocGraph

open Text (trim)

variable {content name target last : Text} {nodes more : List Node} {node : Node}

/-! ## Simple names -/

/-- That the last part of a name, the one behind its last dot, is a text. -/
def LastPart (name last : Text) : Prop :=
  '.' ∉ last ∧ (name = last ∨ ∃ qualifier, name = qualifier ++ '.' :: last)

theorem LastPart.unqualified_eq (h : LastPart name last) : unqualified name = trim last := by
  obtain ⟨hdots, hname⟩ := h
  have hkept : ∀ c ∈ last.reverse, decide (c ≠ '.') = true := by
    intro c hc
    rw [decide_eq_true_eq]
    rintro rfl
    exact hdots (List.mem_reverse.1 hc)
  have htaken : name.reverse.takeWhile (· ≠ '.') = last.reverse := by
    rcases hname with rfl | ⟨qualifier, rfl⟩
    · exact List.takeWhile_eq_self_iff.2 hkept
    · rw [List.reverse_append, List.reverse_cons, List.append_assoc,
        List.takeWhile_append_of_pos hkept]
      simp
  rw [unqualified, htaken, List.reverse_reverse]

theorem exists_lastPart (name : Text) : ∃ last, LastPart name last := by
  induction name with
  | nil => exact ⟨[], by simp, .inl rfl⟩
  | cons c rest ih =>
    obtain ⟨last, hdots, rfl | ⟨qualifier, rfl⟩⟩ := ih
    · by_cases hc : c = '.'
      · exact ⟨rest, hdots, .inr ⟨[], by rw [hc]; rfl⟩⟩
      · exact ⟨c :: rest, by simp [Ne.symm hc, hdots], .inl rfl⟩
    · exact ⟨last, hdots, .inr ⟨c :: qualifier, rfl⟩⟩

theorem unqualified_eq_iff :
    unqualified target = name ↔ ∃ last, LastPart target last ∧ trim last = name := by
  constructor
  · rintro rfl
    obtain ⟨last, hlast⟩ := exists_lastPart target
    exact ⟨last, hlast, hlast.unqualified_eq.symm⟩
  · rintro ⟨last, hlast, rfl⟩
    exact hlast.unqualified_eq

/-! ## First occurrences -/

section

variable {α : Type} [BEq α] [LawfulBEq α] {a b : α} {items : List α} {p : α → Bool}

/-- Items keep their order when others are left out. -/
theorem idxOf_lt_idxOf_of_filter (ha : p a = true) (hb : p b = true)
    (h : (items.filter p).idxOf a < (items.filter p).idxOf b) : items.idxOf a < items.idxOf b := by
  induction items with
  | nil => simp at h
  | cons c rest ih =>
    by_cases hc : p c = true
    · rw [List.filter_cons_of_pos hc] at h
      simp only [List.idxOf_cons] at h ⊢
      cases hca : c == a <;> cases hcb : c == b <;> simp_all
    · have hca : (c == a) = false := by
        rw [beq_eq_false_iff_ne]
        rintro rfl
        exact hc ha
      have hcb : (c == b) = false := by
        rw [beq_eq_false_iff_ne]
        rintro rfl
        exact hc hb
      rw [List.filter_cons_of_neg hc] at h
      simpa [List.idxOf_cons, hca, hcb] using ih h

/-- Without repetitions, items stand in the order of their first occurrences. -/
theorem eraseDups_ordered (items : List α) :
    items.eraseDups.Pairwise fun a b => items.idxOf a < items.idxOf b := by
  match items with
  | [] => exact List.Pairwise.nil
  | a :: rest =>
    have hkept : ∀ b ∈ (rest.filter fun b => !b == a).eraseDups, (!b == a) = true :=
      fun b hb => (List.mem_filter.1 (List.mem_eraseDups.1 hb)).2
    have hne : ∀ b ∈ (rest.filter fun b => !b == a).eraseDups, (a == b) = false := by
      intro b hb
      have hba := hkept b hb
      rw [Bool.not_eq_true', beq_eq_false_iff_ne] at hba
      exact beq_eq_false_iff_ne.2 hba.symm
    have hlater := eraseDups_ordered (rest.filter fun b => !b == a)
    rw [List.eraseDups_cons, List.pairwise_cons]
    refine ⟨fun b hb => ?_, hlater.imp_of_mem fun {b c} hb hc hlt => ?_⟩
    · simp [List.idxOf_cons, hne b hb]
    · have hrest := idxOf_lt_idxOf_of_filter (p := fun b => !b == a) (hkept b hb) (hkept c hc) hlt
      simpa [List.idxOf_cons, hne b hb, hne c hc] using hrest
termination_by items.length
decreasing_by
  have hfilter := List.length_filter_le (fun b => !b == a) rest
  simp only [List.length_cons]
  omega

end

/-! ## The uses of a node -/

/-- The names of the types that a node uses: the simple names of the targets of its outbound edges
with the relation `uses`, each once and in the order in which they first occur. -/
structure Node.ListsUses (node : Node) (names : List Text) : Prop where
  nodup : names.Nodup
  filled : [] ∉ names
  mem_iff : ∀ name, name ≠ [] → (name ∈ names ↔
    ∃ edge ∈ node.edges, edge.relation = "uses".toList ∧ edge.direction = .outbound ∧
      ∃ target ∈ edge.targets, ∃ last, LastPart target last ∧ trim last = name)
  ordered : names.Pairwise fun first second =>
    (node.usesTargets.map unqualified).idxOf first < (node.usesTargets.map unqualified).idxOf second

theorem Node.mem_usesTargets_iff : target ∈ node.usesTargets ↔
    ∃ edge ∈ node.edges, edge.relation = "uses".toList ∧ edge.direction = .outbound ∧
      target ∈ edge.targets := by
  rw [Node.usesTargets, Node.edgesWith, List.mem_flatMap]
  constructor
  · rintro ⟨edge, hedge, htarget⟩
    obtain ⟨hmem, hkind⟩ := List.mem_filter.1 hedge
    rw [Bool.and_eq_true, beq_iff_eq, Option.all_some, beq_iff_eq] at hkind
    exact ⟨edge, hmem, hkind.1, hkind.2, htarget⟩
  · rintro ⟨edge, hmem, hrelation, hdirection, htarget⟩
    exact ⟨edge, List.mem_filter.2 ⟨hmem, by simp [hrelation, hdirection, usesRelation]⟩, htarget⟩

theorem Node.listsUses (node : Node) : node.ListsUses node.uses where
  nodup := nodup_eraseDups _
  filled := by
    rw [Node.uses, List.mem_eraseDups, List.mem_filter]
    rintro ⟨-, hfilled⟩
    cases hfilled
  mem_iff name hname := by
    have hfilled : (!name.isEmpty) = true := by simpa using hname
    simp only [Node.uses, List.mem_eraseDups, List.mem_filter, List.mem_map, hfilled, and_true,
      Node.mem_usesTargets_iff, unqualified_eq_iff]
    constructor
    · rintro ⟨target, ⟨edge, hedge, hrelation, hdirection, htarget⟩, hlast⟩
      exact ⟨edge, hedge, hrelation, hdirection, target, htarget, hlast⟩
    · rintro ⟨edge, hedge, hrelation, hdirection, target, htarget, hlast⟩
      exact ⟨target, ⟨edge, hedge, hrelation, hdirection, htarget⟩, hlast⟩
  ordered := by
    apply (eraseDups_ordered _).imp_of_mem
    intro first second hfirst hsecond hlt
    rw [List.mem_eraseDups, List.mem_filter] at hfirst hsecond
    exact idxOf_lt_idxOf_of_filter hfirst.2 hsecond.2 hlt

/-! ## The node of a name -/

/-- The node of a graph for a name: the first that has the name, or the first of all if none has. -/
inductive IsNodeFor (nodes : List Node) (name : Text) (node : Node) : Prop
  | named {before after : List Node} (hnodes : nodes = before ++ node :: after)
      (hname : node.name = name) (hbefore : ∀ other ∈ before, other.name ≠ name)
  | first (hnone : ∀ other ∈ nodes, other.name ≠ name) (hhead : nodes.head? = some node)

theorem name_ne_nil_of_mem_readGraph (h : node ∈ readGraph content) : node.name ≠ [] := by
  simpa [Node.isEmpty] using (List.mem_filter.1 h).2

/-- An empty name is that of no node, and needs no case of its own where all nodes have names. -/
theorem nodeNamed_eq (hnamed : ∀ node ∈ nodes, node.name ≠ []) (name : Text) :
    nodeNamed nodes name = (nodes.find? (·.name == name)).or nodes.head? := by
  rw [nodeNamed]
  split
  · next hempty =>
    have hnone : nodes.find? (·.name == name) = none := by
      rw [List.find?_eq_none, List.isEmpty_iff.1 hempty]
      intro node hnode
      simpa using hnamed node hnode
    rw [hnone, Option.none_or]
  · rfl

theorem IsNodeFor.nodeNamed_eq (hnamed : ∀ node ∈ nodes, node.name ≠ [])
    (h : IsNodeFor nodes name node) : nodeNamed nodes name = some node := by
  rw [DocGraph.nodeNamed_eq hnamed]
  cases h with
  | named hnodes hname hbefore =>
    have hfound : nodes.find? (·.name == name) = some node := by
      rw [List.find?_eq_some_iff_append]
      exact ⟨by simpa using hname, _, _, hnodes, fun other hother => by
        simpa using hbefore other hother⟩
    rw [hfound, Option.some_or]
  | first hnone hhead =>
    have hfound : nodes.find? (·.name == name) = none := by
      rw [List.find?_eq_none]
      intro other hother
      simpa using hnone other hother
    rw [hfound, hhead, Option.none_or]

theorem exists_isNodeFor (h : nodes ≠ []) (name : Text) : ∃ node, IsNodeFor nodes name node := by
  cases hfound : nodes.find? (·.name == name) with
  | some node =>
    obtain ⟨hname, before, after, hnodes, hbefore⟩ := List.find?_eq_some_iff_append.1 hfound
    exact ⟨node, .named hnodes (by simpa using hname) fun other hother => by
      simpa using hbefore other hother⟩
  | none =>
    obtain ⟨node, rest, rfl⟩ := List.exists_cons_of_ne_nil h
    have hnone : ∀ other ∈ node :: rest, other.name ≠ name := fun other hother => by
      simpa using List.find?_eq_none.1 hfound other hother
    exact ⟨node, .first hnone rfl⟩

/-- Nodes behind the others do not matter if one with the name is among those, or if none of them
has it. -/
theorem IsNodeFor.append (h : IsNodeFor nodes name node)
    (hmore : (∃ other ∈ nodes, other.name = name) ∨ ∀ other ∈ more, other.name ≠ name) :
    IsNodeFor (nodes ++ more) name node := by
  cases h with
  | @named before after hnodes hname hbefore =>
    have hall : nodes ++ more = before ++ node :: (after ++ more) := by rw [hnodes]; simp
    exact .named hall hname hbefore
  | first hnone hhead =>
    refine .first (fun other hother => ?_) (by rw [List.head?_append, hhead, Option.some_or])
    rcases List.mem_append.1 hother with hother | hother
    · exact hnone other hother
    · rcases hmore with ⟨same, hsame, hname⟩ | hmore
      · exact absurd hname (hnone same hsame)
      · exact hmore other hother

/-! ## The uses that a graph documents -/

theorem documentedUses_of_isNodeFor (h : IsNodeFor (readGraph content) name node) :
    documentedUses content name = node.uses := by
  rw [documentedUses, h.nodeNamed_eq fun _ => name_ne_nil_of_mem_readGraph]

/-- The documented uses are those of the one node for the name, and there are none without a node.
A text behind a blank line changes nothing if a node before it has the name, and nor does one
without a node of the name if there is any node before it. -/
theorem documentedUses_of_one_node (content name : Text) :
    (readGraph content = [] → documentedUses content name = []) ∧
      (readGraph content ≠ [] → ∃ node, IsNodeFor (readGraph content) name node) ∧
      (∀ node, IsNodeFor (readGraph content) name node →
        node.ListsUses (documentedUses content name)) ∧
      ∀ gap more, (∀ c ∈ gap, isLineEnd c = false) → undecorate gap = [] →
        (∃ node ∈ readGraph content, node.name = name) ∨
          (readGraph content ≠ [] ∧ ∀ node ∈ readGraph more, node.name ≠ name) →
        documentedUses (content ++ '\n' :: (gap ++ '\n' :: more)) name =
          documentedUses content name := by
  refine ⟨fun hnone => ?_, fun hsome => exists_isNodeFor hsome name, fun node hnode => ?_,
    fun gap more hunbroken hgap happended => ?_⟩
  · rw [documentedUses, hnone, nodeNamed]
    simp
  · rw [documentedUses_of_isNodeFor hnode]
    exact node.listsUses
  · have hsome : readGraph content ≠ [] := by
      rcases happended with ⟨node, hnode, -⟩ | ⟨hsome, -⟩
      · exact List.ne_nil_of_mem hnode
      · exact hsome
    obtain ⟨node, hnode⟩ := exists_isNodeFor hsome name
    have hboth : IsNodeFor (readGraph (content ++ '\n' :: (gap ++ '\n' :: more))) name node := by
      rw [readGraph_append_gap hunbroken hgap]
      exact hnode.append (happended.imp_right And.right)
    rw [documentedUses_of_isNodeFor hboth, documentedUses_of_isNodeFor hnode]

/-- The second node of a graph, which names one type twice. Behind it the name comes again, and for
a name that no node has the first node stays the one that is read. -/
theorem documentedUses_of_second_node :
    let content := "Z\n\nA\n├─[uses]→ x.B, C\n└─[uses]→ y. B".toList
    let edges : List Edge :=
      [⟨"uses".toList, .outbound, ["x.B".toList, "C".toList]⟩,
        ⟨"uses".toList, .outbound, ["y. B".toList]⟩]
    let more := "A\n├─[uses]→ D".toList
    documentedUses " *".toList "A".toList = [] ∧
      (∃ node, IsNodeFor (readGraph content) "A".toList node) ∧
      (⟨"A".toList, edges⟩ : Node).ListsUses (documentedUses content "A".toList) ∧
      documentedUses (content ++ '\n' :: (" *".toList ++ '\n' :: more)) "A".toList =
        documentedUses content "A".toList ∧
      documentedUses (content ++ '\n' :: (" *".toList ++ '\n' :: more)) "B".toList =
        documentedUses content "B".toList := by
  intro content edges more
  have hgraph : readGraph content = [⟨"Z".toList, []⟩, ⟨"A".toList, edges⟩] := by decide +kernel
  have hsome : readGraph content ≠ [] := by
    rw [hgraph]
    exact List.cons_ne_nil _ _
  have hnode : IsNodeFor (readGraph content) "A".toList ⟨"A".toList, edges⟩ :=
    @IsNodeFor.named _ _ _ [⟨"Z".toList, []⟩] [] hgraph rfl (by decide)
  have hagain : ∃ node ∈ readGraph content, node.name = "A".toList :=
    ⟨⟨"A".toList, edges⟩, by rw [hgraph]; exact List.mem_cons_of_mem _ List.mem_cons_self, rfl⟩
  have hgap : ∀ c ∈ " *".toList, isLineEnd c = false :=
    List.forall_mem_cons.2 ⟨rfl, List.forall_mem_singleton.2 rfl⟩
  obtain ⟨-, hexists, hlists, happend⟩ := documentedUses_of_one_node content "A".toList
  exact ⟨(documentedUses_of_one_node " *".toList "A".toList).1 (by decide +kernel), hexists hsome,
    hlists _ hnode, happend " *".toList more hgap (by decide) (.inl hagain),
    (documentedUses_of_one_node content "B".toList).2.2.2 " *".toList more hgap (by decide)
      (.inr ⟨hsome, by decide +kernel⟩)⟩

end DocGraph

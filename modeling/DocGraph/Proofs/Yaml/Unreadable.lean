import DocGraph.Proofs.Yaml.Loaded
import DocGraph.Proofs.Yaml.Refusal

/-!
# Scalars that cannot be read

A node that is well formed may still have no value, as one of its scalars says what its kind cannot
mean: a date that is not in the calendar, or a number without digits. These are the only faults of a
value that are not against the format, and they can all be found in the nodes themselves.

Merge keys make this less than plain, since the entries of a mapping are put together from those of
other nodes. So the nodes that are asked for a value are followed through `mergedEntries`: what is
unreadable in them is unreadable in the node that is loaded.
-/

namespace DocGraph.Yaml

section

variable {allowed : Fault → Prop} (hform : allowed .malformed)

include hform

theorem faults_scalarValue {kind : Kind} (h : kind.canFail = false) (t : Text) :
    FaultsOnly allowed (scalarValue kind t) := by
  cases kind with
  | null => exact .ok
  | text => exact .ok
  | binary =>
    refine .ite ?_ (.error hform)
    split
    · exact .ok
    · exact .error hform
  | bool | int | float | timestamp => cases h
  | _ => exact .error hform

theorem Node.faults_valueOfText {node : Node} (h : node.kind.canFail = false) (t : Text) :
    FaultsOnly allowed (node.valueOfText t) := by
  unfold valueOfText
  split
  next hkind => simp [hkind, Kind.canFail] at h
  · exact faults_scalarValue hform h t

theorem Node.faults_scalarText (fuel : Nat) (node : Node) :
    FaultsOnly allowed (node.scalarText fuel) := by
  induction fuel generalizing node with
  | zero => exact .error hform
  | succ fuel ih =>
    cases node with
    | scalar kind t => exact .ok
    | sequence kind items => exact .error hform
    | mapping number kind entries =>
      rw [scalarText]
      split
      · exact ih _
      · exact .error hform

end

/-! ## Nodes with faults -/

namespace Node

/-- What is unreadable in a node has faults that are allowed. -/
def ScalarFaultsOnly (allowed : Fault → Prop) (node : Node) : Prop :=
  ∀ inner, node.Within inner → ∀ fault, inner.Unreadable fault → allowed fault

/-- What is unreadable in the keys and values of entries has faults that are allowed. -/
def EntryFaultsOnly (allowed : Fault → Prop) (entries : List (Node × Node)) : Prop :=
  ∀ entry ∈ entries, entry.1.ScalarFaultsOnly allowed ∧ entry.2.ScalarFaultsOnly allowed

variable {allowed : Fault → Prop} {number : Nat} {kind : Kind} {entries more : List (Node × Node)}

theorem ScalarFaultsOnly.items {items : List Node}
    (h : (sequence kind items).ScalarFaultsOnly allowed) :
    ∀ item ∈ items, item.ScalarFaultsOnly allowed :=
  fun _ hitem inner hinner => h inner (.item hitem hinner)

theorem ScalarFaultsOnly.entryFaultsOnly
    (h : (mapping number kind entries).ScalarFaultsOnly allowed) :
    EntryFaultsOnly allowed entries :=
  fun _ hentry =>
    ⟨fun inner hinner => h inner (.key hentry hinner),
      fun inner hinner => h inner (.value hentry hinner)⟩

theorem scalarFaultsOnly_text (t : Text) : (scalar .text t).ScalarFaultsOnly allowed := by
  intro inner hinner fault hunreadable
  cases hinner
  cases hunreadable.canFail

theorem entryFaultsOnly_nil : EntryFaultsOnly allowed [] := by simp [EntryFaultsOnly]

theorem EntryFaultsOnly.append (hfirst : EntryFaultsOnly allowed entries)
    (hsecond : EntryFaultsOnly allowed more) :
    EntryFaultsOnly allowed (entries ++ more) := fun entry hentry => by
  rcases List.mem_append.1 hentry with hentry | hentry
  · exact hfirst entry hentry
  · exact hsecond entry hentry

/-! ## Merge keys -/

/-- The default key becomes an ordinary text, which can be read; all else is as it was. -/
theorem entryFaultsOnly_splitMerges (h : EntryFaultsOnly allowed entries) :
    (∀ node ∈ (splitMerges entries).1, node.ScalarFaultsOnly allowed) ∧
      EntryFaultsOnly allowed (splitMerges entries).2 := by
  induction entries with
  | nil => exact ⟨by simp [splitMerges], entryFaultsOnly_nil⟩
  | cons entry rest ih =>
    obtain ⟨hkey, hvalue⟩ := h entry List.mem_cons_self
    obtain ⟨hmerges, hown⟩ := ih fun other hother => h other (List.mem_cons_of_mem _ hother)
    rw [splitMerges]
    dsimp only
    split
    · exact ⟨List.forall_mem_cons.2 ⟨hvalue, hmerges⟩, hown⟩
    · exact ⟨hmerges, List.forall_mem_cons.2 ⟨⟨scalarFaultsOnly_text _, hvalue⟩, hown⟩⟩
    · exact ⟨hmerges, List.forall_mem_cons.2 ⟨⟨hkey, hvalue⟩, hown⟩⟩

section

variable (hform : allowed .malformed)

include hform

mutual

theorem faults_mergedEntries :
    ∀ fuel entries, FaultsOnly allowed (mergedEntries fuel entries)
  | 0, _ => .error hform
  | fuel + 1, _ => .bind (faults_broughtEntries fuel _) fun _ => .ok

theorem faults_broughtEntries :
    ∀ fuel nodes, FaultsOnly allowed (broughtEntries fuel nodes)
  | 0, _ => .error hform
  | _ + 1, [] => .ok
  | fuel + 1, .mapping _ _ entries :: rest =>
    .bind (faults_mergedEntries fuel entries) fun _ =>
      .bind (faults_broughtEntries fuel rest) fun _ => .ok
  | fuel + 1, .sequence _ items :: rest =>
    .bind (faults_listedEntries fuel items) fun _ =>
      .bind (faults_broughtEntries fuel rest) fun _ => .ok
  | _ + 1, .scalar _ _ :: _ => .error hform

theorem faults_listedEntries :
    ∀ fuel items, FaultsOnly allowed (listedEntries fuel items)
  | 0, _ => .error hform
  | _ + 1, [] => .ok
  | fuel + 1, .mapping _ _ entries :: rest =>
    .bind (faults_mergedEntries fuel entries) fun _ =>
      .bind (faults_listedEntries fuel rest) fun _ => .ok
  | _ + 1, .sequence _ _ :: _ => .error hform
  | _ + 1, .scalar _ _ :: _ => .error hform

end

end

mutual

/-- Merge keys bring in entries that stand in the same nodes. -/
theorem entryFaultsOnly_mergedEntries : ∀ fuel entries merged, EntryFaultsOnly allowed entries →
    mergedEntries fuel entries = .ok merged → EntryFaultsOnly allowed merged
  | 0, _, _, _, h => by cases h
  | fuel + 1, _, _, hfaults, h => by
    obtain ⟨hmerges, hown⟩ := entryFaultsOnly_splitMerges hfaults
    obtain ⟨brought, hbrought, h⟩ := bind_eq_ok_iff.1 h
    cases h
    exact (entryFaultsOnly_broughtEntries fuel _ brought hmerges hbrought).append hown

theorem entryFaultsOnly_broughtEntries :
    ∀ fuel nodes brought, (∀ node ∈ nodes, node.ScalarFaultsOnly allowed) →
      broughtEntries fuel nodes = .ok brought → EntryFaultsOnly allowed brought
  | 0, _, _, _, h => by cases h
  | _ + 1, [], _, _, h => by
    cases h
    exact entryFaultsOnly_nil
  | fuel + 1, .mapping number kind entries :: rest, _, hfaults, h => by
    obtain ⟨hnode, hrest⟩ := List.forall_mem_cons.1 hfaults
    obtain ⟨first, hfirst, h⟩ := bind_eq_ok_iff.1 h
    obtain ⟨more, hmore, h⟩ := bind_eq_ok_iff.1 h
    cases h
    have hentries := hnode.entryFaultsOnly
    have hfaults := entryFaultsOnly_mergedEntries fuel entries first hentries hfirst
    exact hfaults.append (entryFaultsOnly_broughtEntries fuel rest more hrest hmore)
  | fuel + 1, .sequence kind items :: rest, _, hfaults, h => by
    obtain ⟨hnode, hrest⟩ := List.forall_mem_cons.1 hfaults
    obtain ⟨first, hfirst, h⟩ := bind_eq_ok_iff.1 h
    obtain ⟨more, hmore, h⟩ := bind_eq_ok_iff.1 h
    cases h
    have hfaults := entryFaultsOnly_listedEntries fuel items first hnode.items hfirst
    exact hfaults.append (entryFaultsOnly_broughtEntries fuel rest more hrest hmore)
  | _ + 1, .scalar _ _ :: _, _, _, h => by cases h

theorem entryFaultsOnly_listedEntries :
    ∀ fuel items listed, (∀ item ∈ items, item.ScalarFaultsOnly allowed) →
      listedEntries fuel items = .ok listed → EntryFaultsOnly allowed listed
  | 0, _, _, _, h => by cases h
  | _ + 1, [], _, _, h => by
    cases h
    exact entryFaultsOnly_nil
  | fuel + 1, .mapping number kind entries :: rest, _, hfaults, h => by
    obtain ⟨hitem, hrest⟩ := List.forall_mem_cons.1 hfaults
    obtain ⟨first, hfirst, h⟩ := bind_eq_ok_iff.1 h
    obtain ⟨more, hmore, h⟩ := bind_eq_ok_iff.1 h
    cases h
    have hentries := hitem.entryFaultsOnly
    have hfaults := entryFaultsOnly_mergedEntries fuel entries first hentries hfirst
    exact (entryFaultsOnly_listedEntries fuel rest more hrest hmore).append hfaults
  | _ + 1, .sequence _ _ :: _, _, _, h => by cases h
  | _ + 1, .scalar _ _ :: _, _, _, h => by cases h

end

/-! ## Values -/

section

variable (hform : allowed .malformed)

include hform

theorem ScalarFaultsOnly.faults_valueOfText {node : Node} (h : node.ScalarFaultsOnly allowed)
    {fuel : Nat} {t : Text} (htold : node.scalarText fuel = .ok t) :
    FaultsOnly allowed (node.valueOfText t) := by
  intro fault hfault
  by_cases hfail : node.kind.canFail = true
  · by_cases hfaultForm : fault = .malformed
    · rwa [hfaultForm]
    · exact h node (.self node) fault ⟨hfail, ⟨fuel, t, htold, hfault⟩, hfaultForm⟩
  · exact Node.faults_valueOfText hform (by simpa using hfail) t fault hfault

mutual

/-- Besides its form, only what is unreadable in a node keeps it from having a value. -/
theorem faults_value :
    ∀ fuel (node : Node), node.ScalarFaultsOnly allowed → FaultsOnly allowed (value fuel node)
  | 0, _, _ => .error hform
  | fuel + 1, node, h => by
    refine .ite (.bind_of_ok (faults_scalarText hform fuel node) fun t ht => ?_) ?_
    · exact h.faults_valueOfText hform ht
    split
    · have hitems := h.items
      refine .bind (.mapM fun item hitem => ?_) fun _ => .ok
      exact faults_value fuel item (hitems item hitem)
    · have hitems := h.items
      refine .bind (.mapM fun item hitem => ?_) fun _ => .ok
      exact faults_onlyPair fuel item (hitems item hitem)
    · have hitems := h.items
      refine .bind (.mapM fun item hitem => ?_) fun _ => .ok
      exact faults_onlyPair fuel item (hitems item hitem)
    · exact .bind (faults_entryValues fuel _ h.entryFaultsOnly) fun _ => .ok
    · exact .bind (faults_entryValues fuel _ h.entryFaultsOnly) fun _ => .ok
    · exact .error hform

theorem faults_onlyPair :
    ∀ fuel (node : Node), node.ScalarFaultsOnly allowed → FaultsOnly allowed (onlyPair fuel node)
  | 0, _, _ => .error hform
  | fuel + 1, node, h => by
    unfold onlyPair
    split
    next key item =>
      obtain ⟨hkey, hitem⟩ := h.entryFaultsOnly (key, item) List.mem_cons_self
      refine .bind (faults_value fuel key hkey) fun _ => ?_
      exact .bind (faults_value fuel item hitem) fun _ => .ok
    · exact .error hform

theorem faults_entryValues :
    ∀ fuel entries, EntryFaultsOnly allowed entries → FaultsOnly allowed (entryValues fuel entries)
  | 0, _, _ => .error hform
  | fuel + 1, entries, h => by
    rw [entryValues]
    refine .bind_of_ok (faults_mergedEntries hform fuel entries) fun merged hmerged => ?_
    have hfaults := entryFaultsOnly_mergedEntries fuel entries merged h hmerged
    refine .bind (.mapM fun entry hentry => ?_) fun _ => .ok
    obtain ⟨hkey, hitem⟩ := hfaults entry hentry
    refine .bind (faults_value fuel entry.1 hkey) fun key => .ite ?_ (.error hform)
    exact .bind (faults_value fuel entry.2 hitem) fun _ => .ok

end

end

end Node

/-- A fault of loading that is not against the format comes from a number that is read with the
tokens, or from a scalar somewhere in the document. -/
theorem load_fault {t : Text} {fault : Fault} (h : Value.load t = .error fault)
    (hfault : fault ≠ .malformed) :
    (Node.ofText? t = .error .valueOutOfRange ∧ fault = .valueOutOfRange) ∨
      ∃ root inner, Node.ofText? t = .ok (some root) ∧ root.Within inner ∧
        inner.Unreadable fault := by
  cases htokens : Token.ofText t with
  | error scanned =>
    simp only [Value.load, htokens, bind, Except.bind] at h
    cases h
    obtain rfl : fault = .valueOutOfRange :=
      (Token.faults_ofText t fault htokens).resolve_left hfault
    exact .inl ⟨by simp [Node.ofText?, htokens, bind, Except.bind], rfl⟩
  | ok tokens =>
    simp only [Value.load, htokens, bind, Except.bind] at h
    cases hroot : Node.ofTokens? tokens with
    | error refused =>
      rw [hroot] at h
      cases h
      exact absurd (Node.faults_ofTokens? tokens fault hroot) hfault
    | ok root? =>
      rw [hroot] at h
      cases root? with
      | none => cases h
      | some root =>
        have hscalars : root.ScalarFaultsOnly fun found =>
            found = .malformed ∨ ∃ inner, root.Within inner ∧ inner.Unreadable found :=
          fun inner hinner found hunreadable => .inr ⟨inner, hinner, hunreadable⟩
        obtain ⟨inner, hinner, hunreadable⟩ :=
          (Node.faults_value (.inl rfl) _ root hscalars fault h).resolve_left hfault
        exact .inr ⟨root, inner, by simp [Node.ofText?, htokens, hroot, bind, Except.bind],
          hinner, hunreadable⟩

/-- The format as it is read here. What is wrong with the form of a text is not told. -/
instance : Format where
  root? := Node.ofText?
  value := Value.load
  problem _ _ := "<yaml error>"
  keyed := keyed_load
  faults := load_fault

end DocGraph.Yaml

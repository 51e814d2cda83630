import DocGraph.Yaml.Load

/-!
# The format of settings

Settings are written in YAML. Which reader of it is at work is left open: what depends on it takes a
`Format`. Two things are relied on. The mappings of a value have distinct keys, and a text that is
in the format has no value only on account of a scalar in it that means nothing, or of a number that
is out of range while its document is put together.

`Value.load` is at work unless said otherwise.
-/

namespace DocGraph.Yaml

namespace Value

/-- That no entry has the key of one before it. -/
def DistinctKeys (entries : List (Value × Value)) : Prop :=
  entries.Pairwise fun a b => a.1.isSameKey b.1 = false

def isMapping : Value → Bool
  | mapping _ _ => true
  | _ => false

/-- That a mapping has distinct keys, and so have the mappings among its values. -/
inductive Keyed : Value → Prop
  | mapping {number : Option Nat} {entries : List (Value × Value)} (hkeys : DistinctKeys entries)
      (hvalues : ∀ entry ∈ entries, Keyed entry.2) : Keyed (.mapping number entries)
  | other {value : Value} (h : value.isMapping = false) : Keyed value

end Value

/-- Whether scalars of a kind can be well formed and mean nothing. -/
def Kind.canFail (kind : Kind) : Bool := kind ∈ [bool, int, float, timestamp]

namespace Node

/-- A node and all that stands in it. -/
inductive Within : Node → Node → Prop
  | self (node : Node) : Within node node
  | item {kind items item node} :
      item ∈ items → Within item node → Within (.sequence kind items) node
  | key {number kind entries entry node} :
      entry ∈ entries → Within entry.1 node → Within (.mapping number kind entries) node
  | value {number kind entries entry node} :
      entry ∈ entries → Within entry.2 node → Within (.mapping number kind entries) node

/-- A node of a scalar kind with a text that means nothing. -/
structure Unreadable (node : Node) (fault : Fault) : Prop where
  canFail : node.kind.canFail = true
  told : ∃ fuel t, node.scalarText fuel = .ok t ∧ node.valueOfText t = .error fault
  fault : fault ≠ .malformed

end Node

/-- A reader of the format: the root of the document in a text, if there is one, the value of the
text, and what is said of a text that is not in the format, given the name of its file. -/
class Format where
  root? : Text → Except Fault (Option Node)
  value : Text → Except Fault Value
  problem : Text → Text → Text
  keyed : ∀ {t found}, value t = .ok found → found.Keyed
  faults : ∀ {t fault}, value t = .error fault → fault ≠ .malformed →
    (root? t = .error .valueOutOfRange ∧ fault = .valueOutOfRange) ∨
      ∃ root inner, root? t = .ok (some root) ∧ root.Within inner ∧ inner.Unreadable fault

end DocGraph.Yaml

import DocGraph.Java.Walk

/-!
# Reading sources

A source is read into a syntax tree. There are several readers of Java, and which one is at work is
left open: what depends on it takes a `SourceReader`. Two things are relied on. The name of a
declaration is a plain one, and a tree is made of parts of its source, of which it tells the lines.

`outline` is a reader, and the one that is at work unless said otherwise.
-/

namespace DocGraph

/-- Whether a text could be a name: its characters are those of words. A hyphen is part of one
keyword. -/
def isPlainName (name : Text) : Bool := name.all fun c => Java.Lexeme.isWordPart c || c == '-'

namespace Java

/-- A lexeme stands in the text, and its line is counted from the line of the text. -/
def Lexeme.StandsIn (x : Lexeme) (line : Nat) (t : Text) : Prop :=
  ∃ before after, t = before ++ x.text ++ after ∧ x.line = line + lineFeeds before

/-- A source that has been read: its tree, and whether it has faults. -/
structure SourceTree where
  root : Tree
  faulty : Bool
deriving Repr

/-- A reader of sources. -/
class SourceReader where
  tree : Text → SourceTree
  plainNames : ∀ {source visit}, visit ∈ (tree source).root.visits →
    isPlainName visit.node.declaredName = true
  standsIn : ∀ {source x}, x ∈ (tree source).root.lexemes → x.StandsIn 1 source

def readSource [SourceReader] (source : Text) : SourceTree := SourceReader.tree source

end Java

end DocGraph

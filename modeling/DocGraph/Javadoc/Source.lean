import DocGraph.Java.Walk
import DocGraph.Javadoc.Entry

/-!
# Entries of a source

The entries of a source are the tags in the comments of its declarations. A type is located by its
package and name, a method by its package, the type around it and its name with parentheses. The
entries of types come before those of methods; within each group they follow the source.
-/

namespace DocGraph

open Java

/-- A name within a package. The default package adds nothing. -/
def qualified (package : Text) (name : Text) : Text :=
  if package.isEmpty then name else package ++ '.' :: name

/-- The type that is named for a method outside all types. -/
def unknownOwner : Text := "Unknown"

def typeLocation (package : Text) (visit : Visit) : Text := qualified package visit.node.declaredName

def methodLocation (package : Text) (visit : Visit) : Text :=
  let owner :=
    match visit.owner with
    | some name => if name.isEmpty then unknownOwner else name
    | none => unknownOwner
  qualified package (owner ++ '.' :: visit.node.declaredName ++ ['(', ')'])

/-- The entries of the tags in the comment of a declaration. -/
def visitEntries (tagPrefix file : Text) (level : Level) (location : Text) (visit : Visit) :
    List Entry :=
  match visit.javadoc? with
  | some comment =>
    (readTags tagPrefix comment).map (Entry.ofTag location file visit.node.line level)
  | none => []

/-- The entries of a source. -/
def sourceEntries (tagPrefix file : Text) (root : Tree) : List Entry :=
  let package := root.declaredPackage
  (root.typeVisits.flatMap fun visit =>
    visitEntries tagPrefix file .architectural (typeLocation package visit) visit) ++
  (root.methodVisits.flatMap fun visit =>
    visitEntries tagPrefix file .implementation (methodLocation package visit) visit)

end DocGraph

import DocGraph.Javadoc.Tag

/-!
# Documentation entries

An entry is a tag together with the place where it was found: the declaration, named from its
package, the file and the line. Tags of a type declaration are architectural, those of a method
belong to the implementation.

Entries may also be handed in, so the kind of an entry is any text.
-/

namespace DocGraph

/-- Where a tag was written. -/
inductive Level
  | architectural
  | implementation
deriving DecidableEq, Repr

/-- A tag and its place. -/
structure Entry where
  location : Text
  file : Text
  line : Int
  level : Level
  type : Text
  content : Text
  timestamp : Option Text
deriving DecidableEq, Repr

namespace Level

def name : Level → Text
  | .architectural => "architectural"
  | .implementation => "implementation"

def ofName? (t : Text) : Option Level :=
  if t = Level.architectural.name then some .architectural
  else if t = Level.implementation.name then some .implementation
  else none

end Level

namespace Entry

/-- Whether an entry is a tag of a kind on a type declaration. -/
def tagsClass (entry : Entry) (type : TagType) : Bool :=
  entry.level == .architectural && entry.type == type.name

/-- The entry of a tag at a place. -/
def ofTag (location : Text) (file : Text) (line : Int) (level : Level) (tag : Tag) : Entry :=
  ⟨location, file, line, level, tag.type.name, tag.content, tag.timestamp⟩

end Entry

end DocGraph

import DocGraph.Number.Integer
import DocGraph.Text.Quoted

/-!
# JSON

A JSON tree is written with one item on a line, each level indented by two blanks more. Only the
double quote, the backslash and control characters are escaped.
-/

namespace DocGraph

/-- A value in JSON. -/
inductive JsonTree
  | text (t : Text)
  | number (n : Int)
  | list (items : List JsonTree)
  | object (fields : List (Text × JsonTree))
deriving Repr

namespace JsonTree

/-- One character of a text in JSON. -/
def escapeChar (c : Char) : Text :=
  if c = '"' || c = '\\' then ['\\', c]
  else if c = '\n' then ['\\', 'n']
  else if c = '\r' then ['\\', 'r']
  else if c = '\t' then ['\\', 't']
  else if c.toNat = 8 then ['\\', 'b']
  else if c.toNat = 12 then ['\\', 'f']
  else if c.toNat < 0x20 then ['\\', 'u'] ++ Text.hexDigits 4 c.toNat
  else [c]

/-- A text in JSON. -/
def quote (t : Text) : Text := '"' :: t.flatMap escapeChar ++ ['"']

/-- A line end and the indentation of a level. -/
def newLine (level : Nat) : Text := '\n' :: List.replicate (2 * level) ' '

/-- Items between brackets, one on a line. -/
def enclose (level : Nat) (first last : Char) (items : List Text) : Text :=
  if items.isEmpty then [first, last]
  else
    first :: newLine (level + 1) ++ Text.join (',' :: newLine (level + 1)) items ++
      newLine level ++ [last]

mutual

/-- A value at a level of indentation. -/
def write (level : Nat) : JsonTree → Text
  | text t => quote t
  | number n => writeInteger n
  | list items => enclose level '[' ']' (writeAll (level + 1) items)
  | object fields => enclose level '\x7b' '\x7d' (writeFields (level + 1) fields)

/-- Values at a level of indentation. -/
def writeAll (level : Nat) : List JsonTree → List Text
  | [] => []
  | value :: rest => write level value :: writeAll level rest

/-- The fields of an object at a level of indentation. -/
def writeFields (level : Nat) : List (Text × JsonTree) → List Text
  | [] => []
  | (name, value) :: rest => (quote name ++ ':' :: ' ' :: write level value) :: writeFields level rest

end

end JsonTree

end DocGraph

import DocGraph.Command.Notice
import DocGraph.Console.JsonTree
import DocGraph.Console.Outline
import DocGraph.Graph.Layout
import DocGraph.Javadoc.Source
import DocGraph.Project.SourceFile

/-!
# The command that shows graphs

The graphs and ignore lists of the classes in one source file are shown as outlines, or as one list
in JSON. In an outline the names of a graph are protected, so that they are never read as markup.
-/

namespace DocGraph

variable [Screen.Pictures] [Java.SourceReader]

namespace JsonTree

def ofEdge (edge : Edge) : JsonTree :=
  let direction :=
    match edge.direction with
    | .outbound => "outbound"
    | .inbound => "inbound"
  .object [("relation_type", .text edge.relation), ("direction", .text direction.toList),
    ("targets", .list (edge.targets.map .text))]

def ofNode (node : Node) : JsonTree :=
  .object [("name", .text node.name), ("edges", .list (node.edges.map ofEdge))]

/-- A tag on a class in JSON, with the nodes of its graph. -/
def ofEntry (entry : Entry) (nodes : List Node) : JsonTree :=
  .object [("location", .text entry.location), ("line", .number entry.line),
    ("type", .text entry.type), ("nodes", .list (nodes.map ofNode)),
    ("content", .text entry.content)]

end JsonTree

namespace Outline

def ofEdge (edge : Edge) : Outline := .item (Markup.escape edge.label) []

def ofNode (node : Node) : Outline :=
  .item ("[cyan]".toList ++ Markup.escape node.name) (node.edges.map ofEdge)

/-- The heading of a tag on a class. -/
def heading (tagPrefix : Text) (entry : Entry) : Text :=
  Text.phrase ["[bold]", entry.location, "[/bold] (", tagText tagPrefix entry.type, ", line ",
    writeInteger entry.line, ")"]

/-- The outline of a tag on a class: its ignore list or the nodes of its graph. -/
def ofEntry (tagPrefix : Text) (entry : Entry) (nodes : List Node) : Outline :=
  .item (heading tagPrefix entry)
    ((if entry.tagsClass .graphIgnore then [.item (Markup.escape entry.content) []] else []) ++
      nodes.map ofNode)

end Outline

/-- The nodes of the graph in an entry; an ignore list has none. -/
def graphNodes (entry : Entry) : List Node :=
  if entry.tagsClass .graph then readGraph entry.content else []

/-- What is reported when the graph in an entry is read. -/
def graphEvents (entry : Entry) : List Event :=
  if entry.tagsClass .graph then (targetlessLines entry.content).map .edgeWithoutTargets else []

/-- The graphs and ignore lists of the classes in a source file. -/
def graphEntries (tagPrefix : Text) (source : SourceFile) : List Entry :=
  (sourceEntries tagPrefix source.path.text source.tree.root).filter fun entry =>
    entry.tagsClass .graph || entry.tagsClass .graphIgnore

/-- The notice of a file that cannot be read. -/
def unreadableNotice (error : FileError) : Text :=
  Text.phrase ["[red]Could not read ", error.path.text, ": ", error.message]

def showOutline (outline : Outline) : Activity Unit :=
  match outline.plain? with
  | some outline => .print (Screen.stack outline.lines)
  | none => .stop (.fault .badMarkup)

/-- Shows the graph or ignore list in an entry. -/
def showEntry (tagPrefix : Text) (entry : Entry) : Activity Unit := do
  Activity.report (graphEvents entry)
  showOutline (.ofEntry tagPrefix entry (graphNodes entry))

/-- Shows entries in JSON. -/
def showJson (entries : List Entry) : Activity Unit := do
  Activity.report (entries.flatMap graphEvents)
  let items := entries.map fun entry => JsonTree.ofEntry entry (graphNodes entry)
  Activity.print ((JsonTree.list items).write 0 ++ ['\n'])

/-- Reads a source file and reports what is noticed on the way. -/
def openSource (file : Path) : Activity SourceFile := do
  let reading := Activity.ofRun fun disk => .ofFiles (disk.readSourceFile file)
  let source ← reading.orFileNotice unreadableNotice
  Activity.report source.events
  pure source

/-- Shows the graphs of a source file. -/
def showGraphs (file : Path) (tagPrefix : Text) (asJson : Bool) :
    Activity Unit := do
  let source ← openSource file
  let entries := graphEntries tagPrefix source
  if asJson then showJson entries
  else if entries.isEmpty then
    Activity.say (Text.phrase
      ["[yellow]No ", tagText tagPrefix TagType.graph.name, " tags in ", file.text])
  else Activity.forEach entries (showEntry tagPrefix)

end DocGraph

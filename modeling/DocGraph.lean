import DocGraph.Command.Activity
import DocGraph.Command.Arguments
import DocGraph.Command.Initialise
import DocGraph.Command.Invocation
import DocGraph.Command.Notice
import DocGraph.Command.ProjectSettings
import DocGraph.Command.Reach
import DocGraph.Command.Run
import DocGraph.Command.Show
import DocGraph.Command.Suggest
import DocGraph.Command.Validate
import DocGraph.Config.InPlace
import DocGraph.Config.Load
import DocGraph.Config.Override
import DocGraph.Config.Settings
import DocGraph.Console.JsonTree
import DocGraph.Console.Markup
import DocGraph.Console.Outline
import DocGraph.Console.Screen
import DocGraph.Files.Disk
import DocGraph.Files.FileError
import DocGraph.Files.FileSystem
import DocGraph.Files.Path
import DocGraph.Graph.Basic
import DocGraph.Graph.Block
import DocGraph.Graph.EdgeLine
import DocGraph.Graph.Layout
import DocGraph.Graph.Suggested
import DocGraph.Graph.Target
import DocGraph.Graph.Uses
import DocGraph.Java.Ahead
import DocGraph.Java.Dependencies
import DocGraph.Java.Grammar
import DocGraph.Java.Lexeme
import DocGraph.Java.Piece
import DocGraph.Java.SourceReader
import DocGraph.Java.Tree
import DocGraph.Java.Walk
import DocGraph.Javadoc.Draft
import DocGraph.Javadoc.Entry
import DocGraph.Javadoc.Source
import DocGraph.Javadoc.Tag
import DocGraph.Main
import DocGraph.Number.Binary64
import DocGraph.Number.Integer
import DocGraph.Project.Check
import DocGraph.Project.ClassIndex
import DocGraph.Project.DiskRun
import DocGraph.Project.Event
import DocGraph.Project.Exclusion
import DocGraph.Project.Listing
import DocGraph.Project.Report
import DocGraph.Project.Run
import DocGraph.Project.Scan
import DocGraph.Project.SourceFile
import DocGraph.Project.Suggestion
import DocGraph.Proofs.Files.Routes
import DocGraph.Proofs.Files.Walk
import DocGraph.Text.Basic
import DocGraph.Text.Blank
import DocGraph.Text.Digit
import DocGraph.Text.Glob
import DocGraph.Text.LetterCase
import DocGraph.Text.Lines
import DocGraph.Text.Printable
import DocGraph.Text.Quoted
import DocGraph.Text.Utf8
import DocGraph.Yaml.Base64
import DocGraph.Yaml.Cursor
import DocGraph.Yaml.Format
import DocGraph.Yaml.Load
import DocGraph.Yaml.Node
import DocGraph.Yaml.Scalar
import DocGraph.Yaml.Schema
import DocGraph.Yaml.Timestamp
import DocGraph.Yaml.Token
import DocGraph.Yaml.Value
import DocGraph.Proofs.Files.Written
import DocGraph.Proofs.Files.Lookup
import DocGraph.Proofs.Project.Sources
import DocGraph.Proofs.Project.Validation
import DocGraph.Proofs.Project.Recorded
import DocGraph.Proofs.Java.Grammar
import DocGraph.Proofs.Java.Outline
import DocGraph.Proofs.Java.Naming
import DocGraph.Proofs.Java.Lines
import DocGraph.Proofs.Project.Scanned
import DocGraph.Proofs.Project.Coverage
import DocGraph.Proofs.Project.WorkingFolder
import DocGraph.Proofs.Project.Ownership
import DocGraph.Proofs.Text.Occurrence
import DocGraph.Proofs.Text.Pieces
import DocGraph.Proofs.Text.Glob
import DocGraph.Proofs.Text.Utf8
import DocGraph.Proofs.Text.FileLines
import DocGraph.Proofs.Text.Trim
import DocGraph.Proofs.Text.Lines
import DocGraph.Proofs.Graph.Padding
import DocGraph.Proofs.Graph.Decoration
import DocGraph.Proofs.Graph.Target
import DocGraph.Proofs.Graph.EdgeLine
import DocGraph.Proofs.Graph.Layout
import DocGraph.Proofs.Javadoc.Date
import DocGraph.Proofs.Javadoc.Cleaning
import DocGraph.Proofs.Javadoc.Marker
import DocGraph.Proofs.Javadoc.Stretch
import DocGraph.Proofs.Javadoc.Ending
import DocGraph.Proofs.Javadoc.RoundTrip
import DocGraph.Proofs.Javadoc.GraphComment
import DocGraph.Proofs.Javadoc.DatedGraph
import DocGraph.Proofs.Javadoc.IgnoreList
import DocGraph.Proofs.Graph.SuggestedBlock
import DocGraph.Proofs.Project.PastedSuggestion
import DocGraph.Proofs.Project.Exemption
import DocGraph.Proofs.Files.Growth
import DocGraph.Proofs.Project.Growth
import DocGraph.Proofs.Yaml.Entries
import DocGraph.Proofs.Yaml.Loaded
import DocGraph.Proofs.Config.Sharing
import DocGraph.Proofs.Config.Layers
import DocGraph.Proofs.Yaml.Faults
import DocGraph.Proofs.Yaml.Refusal
import DocGraph.Proofs.Config.Failure
import DocGraph.Proofs.Config.InPlace
import DocGraph.Proofs.Config.Reloading
import DocGraph.Proofs.Command.Failure
import DocGraph.Proofs.Java.Preorder
import DocGraph.Proofs.Project.Listing
import DocGraph.Proofs.Project.Relisting
import DocGraph.Proofs.Project.ClassIndex
import DocGraph.Proofs.Project.ScanOrder
import DocGraph.Proofs.Files.Writing
import DocGraph.Proofs.Project.Suggested
import DocGraph.Proofs.Console.Pictures
import DocGraph.Proofs.Command.ErrorSummary
import DocGraph.Proofs.Graph.Separator
import DocGraph.Proofs.Graph.Concatenation
import DocGraph.Proofs.Java.Dependencies
import DocGraph.Proofs.Graph.SingleBlock
import DocGraph.Proofs.Graph.DocumentedUses
import DocGraph.Proofs.Config.Merging
import DocGraph.Proofs.Config.TextSettings
import DocGraph.Proofs.Project.Inheritance
import DocGraph.Proofs.Project.LineEnds
import DocGraph.Proofs.Project.Enumeration
import DocGraph.Proofs.Java.Place
import DocGraph.Proofs.Java.WalkLoop
import DocGraph.Proofs.Javadoc.Trimmed
import DocGraph.Proofs.Project.Attribution

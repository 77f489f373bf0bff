import TerminalMarkup.Binary64.Basic
import TerminalMarkup.Binary64.Shortest
import TerminalMarkup.Color.Basic
import TerminalMarkup.Color.Named
import TerminalMarkup.Color.Palette
import TerminalMarkup.Color.Rgb
import TerminalMarkup.CommandLine.Command
import TerminalMarkup.CommandLine.Run
import TerminalMarkup.Composition
import TerminalMarkup.Delimiters
import TerminalMarkup.Dictionary
import TerminalMarkup.Escape.Remnant
import TerminalMarkup.Escape.Sequence
import TerminalMarkup.Escape.Strip
import TerminalMarkup.Files
import TerminalMarkup.Main
import TerminalMarkup.Profile
import TerminalMarkup.Registry.Basic
import TerminalMarkup.Registry.Builtin
import TerminalMarkup.Registry.Name
import TerminalMarkup.Renderer
import TerminalMarkup.Rendering
import TerminalMarkup.Segment
import TerminalMarkup.Sgr
import TerminalMarkup.Style.Basic
import TerminalMarkup.Style.Flags
import TerminalMarkup.Text.Basic
import TerminalMarkup.Text.Blank
import TerminalMarkup.Text.CharRanges
import TerminalMarkup.Text.DecimalDigit
import TerminalMarkup.Text.Lowercase
import TerminalMarkup.Text.Lowercase.Table
import TerminalMarkup.Text.Octets
import TerminalMarkup.Text.Width
import TerminalMarkup.Text.Width.Table
import TerminalMarkup.Theme.File
import TerminalMarkup.Theme.Resolver
import TerminalMarkup.Theme.Table
import TerminalMarkup.Token
import TerminalMarkup.Widget
import TerminalMarkup.Yaml.Character
import TerminalMarkup.Yaml.Document
import TerminalMarkup.Yaml.Lexeme
import TerminalMarkup.Yaml.Node
import TerminalMarkup.Yaml.Number
import TerminalMarkup.Yaml.Scalar.Block
import TerminalMarkup.Yaml.Scalar.Plain
import TerminalMarkup.Yaml.Scalar.Quoted
import TerminalMarkup.Yaml.Spacing
import TerminalMarkup.Yaml.Tag
import TerminalMarkup.Yaml.Value
import TerminalMarkup.Proofs.Theme.Reference
import TerminalMarkup.Proofs.Theme.Walk
import TerminalMarkup.Proofs.Theme.History
import TerminalMarkup.Proofs.Token.Canonical
import TerminalMarkup.Proofs.Strip.Normal
import TerminalMarkup.Proofs.Escape.Phase
import TerminalMarkup.Proofs.Strip.Rendered
import TerminalMarkup.Proofs.Strip.Interrupted
import TerminalMarkup.Proofs.Composition.Letters
import TerminalMarkup.Proofs.Composition.Merge
import TerminalMarkup.Proofs.Theme.Registry
import TerminalMarkup.Proofs.Theme.Acyclic
import TerminalMarkup.Proofs.Token.Replace
import TerminalMarkup.Proofs.Composition.Effect
import TerminalMarkup.Proofs.Theme.Redirect
import TerminalMarkup.Proofs.Widget.Group
import TerminalMarkup.Proofs.Widget.Injection
import TerminalMarkup.Proofs.Token.Positions
import TerminalMarkup.Proofs.Text.Ends
import TerminalMarkup.Proofs.Text.Lowercase
import TerminalMarkup.Proofs.Registry.Namespace
import TerminalMarkup.Proofs.Composition.Made
import TerminalMarkup.Proofs.Theme.Naming
import TerminalMarkup.Proofs.Theme.Identity
import TerminalMarkup.Proofs.Theme.Preview
import TerminalMarkup.Proofs.Theme.Isolation
import TerminalMarkup.Proofs.Theme.Removal
import TerminalMarkup.Proofs.Rendering.Reach
import TerminalMarkup.Proofs.Rendering.Resets
import TerminalMarkup.Proofs.Rendering.Passes
import TerminalMarkup.Proofs.Terminal.Pen
import TerminalMarkup.Proofs.Terminal.Style
import TerminalMarkup.Proofs.Terminal.Captured
import TerminalMarkup.Proofs.Terminal.Screen
import TerminalMarkup.Proofs.Terminal.Attributes
import TerminalMarkup.Proofs.Rendering.Sequences
import TerminalMarkup.Proofs.Theme.Live
import TerminalMarkup.Proofs.Theme.Codes
import TerminalMarkup.Proofs.Token.Written
import TerminalMarkup.Proofs.Registry.Normal
import TerminalMarkup.Proofs.Dictionary
import TerminalMarkup.Proofs.Registry.Runs
import TerminalMarkup.Proofs.Registry.Snapshot
import TerminalMarkup.Proofs.Registry.Tagged
import TerminalMarkup.Proofs.Theme.Trace
import TerminalMarkup.Proofs.Theme.Outside
import TerminalMarkup.Proofs.Widget.Escaped
import TerminalMarkup.Proofs.Composition.Idempotent
import TerminalMarkup.Proofs.Color.Hex
import TerminalMarkup.Proofs.Color.Grammar
import TerminalMarkup.Proofs.Color.Nearest
import TerminalMarkup.Proofs.Theme.Spelling
import TerminalMarkup.Proofs.Style.Flags
import TerminalMarkup.Proofs.Registry.Named

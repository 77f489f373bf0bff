import TerminalMarkup.CommandLine.Command
import TerminalMarkup.Renderer
import TerminalMarkup.Theme.File

/-!
# Running commands

A command writes one text to the standard output, or fails. A text operand that is a lone dash stands for the standard
input. A profile that is given with the command holds for every output, terminal or not. A theme that cannot be loaded
leaves the built-in styles as they are; only `Command.checkTheme` fails for want of its theme.
-/

namespace TerminalMarkup

namespace CommandLine

/-- What a command finds when it runs. -/
structure Surroundings where
  environment : Environment
  files : FileReader
  /-- The standard input. -/
  input : List UInt8

/-- Why a command fails. -/
inductive Failure
  | unreadableInput
  | unreadableTheme (file : Text)
  | noColors (file : Text)
  deriving DecidableEq, Repr

/-- What is said of a failure. -/
def Failure.message : Failure → Text
  | unreadableInput => "Error: Failed to read stdin".toList
  | unreadableTheme file => "Error: Cannot check theme ".toList ++ file
  | noColors file => "Error: ".toList ++ file ++ " defines no colors".toList

namespace Surroundings

/-- The renderer over the built-in styles. -/
def renderer (w : Surroundings) (profile : Option Profile) : Renderer :=
  match profile with
  | some p => { Renderer.new .builtin with profile := p }
  | none => .ofEnvironment .builtin w.environment

/-- The text that an operand stands for. Line breaks at the end of the standard input are dropped. -/
def readText (w : Surroundings) (operand : Text) : Except Failure Text :=
  if operand = ['-'] then
    match Text.ofOctets? w.input with
    | some s => pure (s.dropEndWhile (· == '\n'))
    | none => throw .unreadableInput
  else pure operand

/-- Loads a theme, if there is one to load. -/
def loadTheme (w : Surroundings) (re : Renderer) (path ns : Option Text) : Renderer :=
  match path.map (ThemeFile.load w.files) with
  | some (.ok f) => { re with registry := (re.registry.loadFile f ns).2 }
  | _ => re

end Surroundings

/-! ## The commands -/

/-- A text with spaces behind it, so that it has at least `width` characters. -/
def padded (width : Nat) (s : Text) : Text := s ++ List.replicate (width - s.length) ' '

/-- A line that shows a registered style. -/
def sampleLine (re : Renderer) (width : Nat) (name code : Text) : Text :=
  let sample := re.delimiters.wrapDirect code ++ "sample".toList ++ re.delimiters.wrapDirect ['-']
  padded width name ++ "  ".toList ++ padded 16 code ++ "  ".toList ++ re.ansi sample ++ ['\n']

/-- What is shown of a theme: its name, and a line for each style. -/
def themeReport (re : Renderer) (f : ThemeFile) : Text :=
  let (loaded, registry) := re.registry.loadFile f none
  let re := { re with registry }
  let width := ((loaded.entries.map fun e => e.1.utf8Length).max?).getD 0
  (f.metadata.name.map (· ++ ['\n'])).getD []
    ++ loaded.entries.flatMap fun (name, code) => sampleLine re width name code

/-- Runs a command. -/
def Command.run (w : Surroundings) : Command → Except Failure Text
  | render operand theme profile preview base => do
    let re := w.loadTheme (w.renderer profile) theme preview
    let s ← w.readText operand
    let out := match base with
      | some base => re.ansiWithin s base
      | none => re.ansi s
    pure (out ++ ['\n'])
  | strip operand => do pure ((w.renderer none).strip (← w.readText operand) ++ ['\n'])
  | markup operand theme => do
    let re := w.loadTheme (w.renderer none) theme none
    pure (re.widgetMarkup (← w.readText operand) ++ ['\n'])
  | checkTheme file profile =>
    match ThemeFile.load w.files file with
    | .error _ => throw (.unreadableTheme file)
    | .ok f => if f.colors.size = 0 then throw (.noColors file) else pure (themeReport (w.renderer profile) f)

/-- The path of the file that a command reads. -/
def Command.path? : Command → Option Text
  | render _ theme _ _ _ => theme
  | strip _ => none
  | markup _ theme => theme
  | checkTheme file _ => some file

/-- The command reads the standard input. -/
def Command.readsInput : Command → Bool
  | render operand _ _ _ _ | strip operand | markup operand _ => operand = ['-']
  | checkTheme _ _ => false

/-- The version of the program. -/
def versionText : Text := "stylemark 0.4.0\n".toList

/-- How the program is used. -/
def helpText : Text :=
  "Render, strip and convert stylemark markup

Usage: stylemark [OPTIONS] <COMMAND>

Commands:
  render       Render markup to ANSI escapes
  strip        Remove tags and escape sequences
  markup       Convert markup to bracket-style widget markup
  check-theme  Resolve a theme file and show a sample of every key
  help         Print this message or the help of the given subcommand(s)

Options:
  -v, --verbose  Log theme loading and profile detection (same as RUST_LOG=debug)
  -h, --help     Print help
  -V, --version  Print version
".toList

/-- Answers a request. -/
def Request.answer (w : Surroundings) : Request → Except Failure Text
  | run c => c.run w
  | version => pure versionText
  | help => pure helpText

end CommandLine
end TerminalMarkup

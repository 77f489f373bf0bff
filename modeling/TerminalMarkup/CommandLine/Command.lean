import TerminalMarkup.Profile

/-!
# Commands

The arguments of the program name a command, its options, and the one text or file that the command is for. An option is
written with two dashes and its name, or with a dash and its letter; letters may share a dash. A value is the next
argument, or stands behind an equals sign, or behind a letter. A value that is an argument of its own does not begin
with a dash, unless it is a lone dash; behind a double dash no argument is an option. No option is given twice.

`Request.ofArguments?` reads the arguments.
-/

namespace TerminalMarkup

namespace CommandLine

/-! ## Options -/

/-- An option of the program. -/
inductive Switch
  | verbose
  | version
  | help
  | theme
  | profile
  | preview
  | within
  deriving DecidableEq, Repr

namespace Switch

/-- The name of an option. -/
def name : Switch → String
  | verbose => "verbose"
  | version => "version"
  | help => "help"
  | theme => "theme"
  | profile => "profile"
  | preview => "preview"
  | within => "within"

/-- The letter of an option. -/
def letter? : Switch → Option Char
  | verbose => some 'v'
  | version => some 'V'
  | help => some 'h'
  | theme => some 't'
  | profile => some 'p'
  | preview | within => none

/-- The option has a value. -/
def takesValue : Switch → Bool
  | theme | profile | preview | within => true
  | verbose | version | help => false

/-- The option may have a given value: paths are not empty, and profiles are known. -/
def admits : Switch → Text → Bool
  | theme, value => !value.isEmpty
  | profile, value => (Profile.ofName? value).isSome
  | _, _ => true

end Switch

/-! ## Arguments -/

/-- Why the rest of the arguments is not read. -/
inductive Stop
  | misuse
  | help
  | version
  deriving DecidableEq, Repr

/-- The options and the operand that have been given to a command. -/
structure Given where
  switches : List (Switch × Text)
  operand : Option Text
  deriving DecidableEq, Repr

namespace Given

/-- Nothing has been given. -/
def empty : Given := ⟨[], none⟩

/-- The value of an option. -/
def value? (g : Given) (s : Switch) : Option Text := g.switches.lookup s

/-- Adds an option. -/
def add (g : Given) (s : Switch) (value : Text) : Except Stop Given :=
  match s with
  | .help => throw .help
  | .version => throw .version
  | s =>
    if (g.value? s).isSome || !s.admits value then throw .misuse
    else pure { g with switches := (s, value) :: g.switches }

/-- Adds the operand. -/
def addOperand (admits : Text → Bool) (g : Given) (operand : Text) : Except Stop Given :=
  if g.operand.isSome || !admits operand then throw .misuse else pure { g with operand := some operand }

/-- Adds the options of letters behind one dash; the last one may still lack its value. -/
def addLetters (known : List Switch) (g : Given) : Text → Except Stop (Given × Option Switch)
  | [] => pure (g, none)
  | c :: cs =>
    match known.find? fun s => s.letter? = some c with
    | none => throw .misuse
    | some s =>
      if s.takesValue then
        match cs with
        | [] => pure (g, some s)
        | '=' :: value => do pure (← g.add s value, none)
        | value => do pure (← g.add s value, none)
      else do addLetters known (← g.add s []) cs

/-- Adds the option of a name behind two dashes; it may still lack its value. -/
def addNamed (known : List Switch) (g : Given) (s : Text) : Except Stop (Given × Option Switch) :=
  let (name, value) := match Text.cut? ['='] s with
    | some (name, value) => (name, some value)
    | none => (s, none)
  match known.find? fun s => s.name.toList = name, value with
  | none, _ => throw .misuse
  | some s, none => if s.takesValue then pure (g, some s) else do pure (← g.add s [], none)
  | some s, some value => if s.takesValue then do pure (← g.add s value, none) else throw .misuse

/-- Adds the arguments of a command; the option before them may lack its value. -/
def addAll (known : List Switch) (admits : Text → Bool) : Option Switch → Given → List Text → Except Stop Given
  | none, g, [] => pure g
  | some _, _, [] => throw .misuse
  | some s, g, a :: as =>
    match a with
    | '-' :: _ :: _ => throw .misuse
    | a => do addAll known admits none (← g.add s a) as
  | none, g, a :: as =>
    match a with
    | ['-', '-'] => as.foldlM (addOperand admits) g
    | '-' :: '-' :: name => do
      let (g, lacking) ← g.addNamed known name
      addAll known admits lacking g as
    | '-' :: c :: cs => do
      let (g, lacking) ← g.addLetters known (c :: cs)
      addAll known admits lacking g as
    | a => do addAll known admits none (← g.addOperand admits a) as

end Given

/-! ## Commands -/

/-- What the program does. -/
inductive Command
  /-- Write a text for a terminal, with a theme that is loaded under the namespace `preview`, inside a base style. -/
  | render (text : Text) (theme : Option Text) (profile : Option Profile) (preview base : Option Text)
  /-- Write a text without tags and escapes. -/
  | strip (text : Text)
  /-- Write a text in widget markup. -/
  | markup (text : Text) (theme : Option Text)
  /-- Show what the keys of a theme file look like. -/
  | checkTheme (file : Text) (profile : Option Profile)
  deriving DecidableEq, Repr

/-- A kind of command. -/
structure CommandKind where
  name : String
  /-- The options that only some commands have. -/
  switches : List Switch
  /-- The operand is a path. -/
  takesPath : Bool
  /-- The command with the given options and operand. -/
  build : Given → Text → Option Command

/-- The profile that has been given. -/
def Given.profile? (g : Given) : Option Profile := (g.value? .profile).bind Profile.ofName?

/-- The commands. A preview is a preview of a theme. -/
def CommandKind.all : List CommandKind :=
  [⟨"render", [.theme, .profile, .preview, .within], false, fun g text =>
      if (g.value? .preview).isSome && (g.value? .theme).isNone then none
      else some (.render text (g.value? .theme) g.profile? (g.value? .preview) (g.value? .within))⟩,
    ⟨"strip", [], false, fun _ text => some (.strip text)⟩,
    ⟨"markup", [.theme], false, fun g text => some (.markup text (g.value? .theme))⟩,
    ⟨"check-theme", [.profile], true, fun g file => some (.checkTheme file g.profile?)⟩]

/-- What is asked of the program. -/
inductive Request
  | run (c : Command)
  | version
  | help
  deriving DecidableEq, Repr

namespace Request

/-- The word that asks for help. -/
def helpWord : Text := "help".toList

/-- Reads the arguments of a command. -/
def ofCommand (kind : CommandKind) (args : List Text) : Except Stop Request := do
  let admits (operand : Text) := !(kind.takesPath && operand.isEmpty)
  let g ← Given.addAll (.verbose :: .help :: kind.switches) admits none .empty args
  match g.operand.bind (kind.build g) with
  | some c => pure (.run c)
  | none => throw .misuse

/-- Reads a question for help on a command. -/
def ofHelp : List Text → Except Stop Request
  | [] => pure .help
  | [name] =>
    if name = helpWord || CommandKind.all.any fun k => k.name.toList = name then pure .help else throw .misuse
  | _ => throw .misuse

/-- Reads options up to the name of a command, and its arguments. -/
def ofCommandLine (g : Given) : List Text → Except Stop Request
  | [] => throw .misuse
  | a :: as =>
    let known := [.verbose, .version, .help]
    match a with
    | '-' :: '-' :: name => do ofCommandLine (← g.addNamed known name).1 as
    | '-' :: c :: cs => do ofCommandLine (← g.addLetters known (c :: cs)).1 as
    | a =>
      if a = helpWord then ofHelp as
      else
        match CommandKind.all.find? fun k => k.name.toList = a with
        | some kind => ofCommand kind as
        | none => throw .misuse

/-- Reads the arguments of the program; none if they ask for nothing that it does. -/
def ofArguments? (args : List Text) : Option Request :=
  match ofCommandLine .empty args with
  | .ok r => some r
  | .error .help => some .help
  | .error .version => some .version
  | .error .misuse => none

end Request
end CommandLine
end TerminalMarkup

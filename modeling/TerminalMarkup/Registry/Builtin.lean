import TerminalMarkup.Registry.Basic

/-!
# Built-in styles

The styles that a registry starts with: attributes, colors, log levels, and roles. A style for a role returns everything
to the default first, so that it does not depend on the text around it.
-/

namespace TerminalMarkup

namespace Registry

/-- Styles that set one attribute or return everything to the default. -/
def attributeStyles : List (String × List String) :=
  [("reset", ["-"]), ("nc", ["-"]), ("bold", ["::B"]), ("bd", ["::B"]), ("dim", ["::D"]), ("dm", ["::D"]),
    ("underline", ["::U"]), ("ul", ["::U"]), ("blink", ["::L"]), ("bl", ["::L"]), ("reverse", ["::R"]),
    ("rv", ["::R"]), ("italic", ["::I"]), ("it", ["::I"]), ("strike", ["::S"]), ("st", ["::S"])]

/-- Styles that paint the foreground. -/
def foregroundStyles : List (String × List String) :=
  [("black", ["black"]), ("red", ["red"]), ("green", ["green"]), ("yellow", ["yellow"]), ("blue", ["blue"]),
    ("magenta", ["magenta"]), ("cyan", ["cyan"]), ("white", ["white"]), ("k", ["black"]), ("r", ["red"]),
    ("g", ["green"]), ("y", ["yellow"]), ("b", ["blue"]), ("m", ["magenta"]), ("c", ["cyan"]), ("w", ["white"]),
    ("f_black", ["black"]), ("f_red", ["red"]), ("f_green", ["green"]), ("f_yellow", ["yellow"]),
    ("f_blue", ["blue"]), ("f_magenta", ["magenta"]), ("f_cyan", ["cyan"]), ("f_white", ["white"])]

/-- Styles that paint the background. -/
def backgroundStyles : List (String × List String) :=
  [("blackbg", [":black"]), ("redbg", [":red"]), ("greenbg", [":green"]), ("yellowbg", [":yellow"]),
    ("bluebg", [":blue"]), ("magentabg", [":magenta"]), ("cyanbg", [":cyan"]), ("whitebg", [":white"]),
    ("b_black", [":black"]), ("b_red", [":red"]), ("b_green", [":green"]), ("b_yellow", [":yellow"]),
    ("b_blue", [":blue"]), ("b_magenta", [":magenta"]), ("b_cyan", [":cyan"]), ("b_white", [":white"])]

/-- Styles for log messages. -/
def logStyles : List (String × List String) :=
  [("timestamp", ["-"]), ("trace", ["-", "blue"]), ("debug", ["-", "blue"]), ("info", ["-", "blue"]),
    ("notice", ["-", "green"]), ("warn", ["-", "yellow"]), ("error", ["-", "red"]), ("fatal", ["-", "white:red"]),
    ("fatalfooter", ["-"]), ("traceheader", ["-", "red"]), ("tracefooter", ["-", "red"]),
    ("traceframenumber", ["-", "red"]), ("traceframelines", ["-", "red"]), ("tracesourcefile", ["-", "cyan::B"]),
    ("tracelinenumber", ["-", "yellow::B"]), ("tracefunction", ["-", "green::B"]), ("tracecmd", ["-", "green::B"]),
    ("tracecmdargs", ["-", "green"]), ("unittestpass", ["-", "green"]), ("unittestfail", ["-", "red"]),
    ("unittestfailarrow", ["-", "red"])]

/-- Styles for the things an application talks about. -/
def roleStyles : List (String × List String) :=
  [("app", ["-", "cyan"]), ("applicationname", ["-", "cyan::B"]), ("branch", ["-", "cyan"]),
    ("failingcommand", ["-", "red"]), ("file", ["-", "cyan::B"]), ("folder", ["-", "cyan::B"]),
    ("program", ["-", "cyan"]), ("runningcommand", ["-", "green::B"]), ("theme", ["-", "cyan"]),
    ("update", ["-", "green"]), ("user", ["-", "cyan"]), ("url", ["-", "cyan::U"]),
    ("usercommand", ["-", "yellow::B"]), ("usercommanderror", ["-", "red::U"]),
    ("usercommanderrormarker", ["-", "red"]), ("var", ["-", "magenta"]), ("version", ["-", "cyan"]),
    ("yes", ["-", "green"]), ("no", ["-", "red"])]

/-- Styles for usage texts. -/
def usageStyles : List (String × List String) :=
  [("usagecommand", ["-", "yellow::B"]), ("usageoption", ["-", "yellow"]), ("usageapp", ["-", "cyan"]),
    ("usagebranch", ["-", "cyan"]), ("usagefile", ["-", "cyan::B"]), ("usagepage", ["-", "cyan::B"]),
    ("usagetheme", ["-", "cyan"]), ("usagevar", ["-", "magenta"])]

/-- A style given by its codes, as it is stored: one code bare, several as direct tags. -/
def storedCodes : List String → Text
  | [code] => code.toList
  | codes => codes.flatMap fun code => Delimiters.canonical.wrapDirect code.toList

/-- The built-in styles as entries. -/
def builtinEntries : List (Text × Text) :=
  (attributeStyles ++ foregroundStyles ++ backgroundStyles ++ logStyles ++ roleStyles ++ usageStyles).map
    fun (name, codes) => (name.toList, storedCodes codes)

/-- The registry of the built-in styles. -/
def builtin : Registry := ofEntries builtinEntries

end Registry
end TerminalMarkup

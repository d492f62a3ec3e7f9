/-!
# Switches of the command line

A switch is a flag, which is set or not, or a setting, which takes a value. Each has a long name and
some have a short one.
-/

namespace SolFront.CommandLine

/-- The name of the program. -/
def programName : String := "solcjs"

/-- A switch without a value. -/
inductive Flag where
  | abi
  | bytecode
  | optimize
  | prettyJson
  | standardJson
  | verbose
  deriving DecidableEq, Inhabited, Repr

namespace Flag

/-- The flags. -/
def all : List Flag := [abi, bytecode, optimize, prettyJson, standardJson, verbose]

/-- The long name of a flag. -/
def long : Flag → String
  | abi => "abi"
  | bytecode => "bin"
  | optimize => "optimize"
  | prettyJson => "pretty-json"
  | standardJson => "standard-json"
  | verbose => "verbose"

/-- The short name of a flag. -/
def short? : Flag → Option Char
  | prettyJson => some 'p'
  | verbose => some 'v'
  | _ => none

end Flag

/-- A switch with a value. -/
inductive Setting where
  | basePath
  | includePath
  | optimizeRuns
  | outputDirectory
  | solc
  deriving DecidableEq, Inhabited, Repr

namespace Setting

/-- The settings. -/
def all : List Setting := [basePath, includePath, optimizeRuns, outputDirectory, solc]

/-- The long name of a setting. -/
def long : Setting → String
  | basePath => "base-path"
  | includePath => "include-path"
  | optimizeRuns => "optimize-runs"
  | outputDirectory => "output-dir"
  | solc => "solc"

/-- The short name of a setting. -/
def short? : Setting → Option Char
  | outputDirectory => some 'o'
  | _ => none

/-- What stands for the value where the setting is shown. -/
def placeholder : Setting → String
  | basePath => "base-path"
  | includePath => "include-paths"
  | optimizeRuns => "optimize-runs"
  | outputDirectory => "output-directory"
  | solc => "solc"

/-- Whether the setting can be given more than once. -/
def repeatable : Setting → Bool
  | includePath => true
  | _ => false

/-- The value of the setting where none is given. -/
def default? : Setting → Option String
  | optimizeRuns => some "200"
  | outputDirectory => some "."
  | _ => none

end Setting

/-- A flag or a setting. -/
inductive Switch where
  | flag (f : Flag)
  | setting (s : Setting)
  deriving DecidableEq, Inhabited, Repr

namespace Switch

/-- The switches in the order in which a usage line shows them. -/
def all : List Switch :=
  [.setting .basePath, .setting .includePath, .flag .optimize, .setting .optimizeRuns, .flag .abi,
    .flag .bytecode, .setting .outputDirectory, .flag .prettyJson, .setting .solc,
    .flag .standardJson, .flag .verbose]

/-- The long name of a switch. -/
def long : Switch → String
  | flag f => f.long
  | setting s => s.long

/-- The short name of a switch. -/
def short? : Switch → Option Char
  | flag f => f.short?
  | setting s => s.short?

/-- Whether the switch can be given more than once. -/
def repeatable : Switch → Bool
  | flag _ => false
  | setting s => s.repeatable

/-- The switch as it is shown. -/
def shown : Switch → String
  | flag f => "--" ++ f.long
  | setting s =>
    "--" ++ s.long ++ " <" ++ s.placeholder ++ ">" ++ (if s.repeatable then "..." else "")

/-- Whether the switch has a value where none is given. -/
def hasDefault : Switch → Bool
  | flag _ => false
  | setting s => s.default?.isSome

end Switch

/-- The usage of the program where nothing is known about what is wanted. -/
def generalUsage : String :=
  programName ++ " [FLAGS] [OPTIONS] [--] [input-files]..."

/-- The usage of the program with the given switches. -/
def usageOf (used : List Switch) : String :=
  if used.isEmpty then generalUsage
  else " ".intercalate (programName :: used.map (·.shown))

end SolFront.CommandLine

import SolFront.CommandLine.Switch
import SolFront.Text.Split

/-!
# Help

The help tells about every switch in a text that is at most as wide as a usual terminal. The short
layout has each description beside its switch, the long layout has it below. In the long layout a
description of a single line is followed by an empty one.
-/

namespace SolFront.CommandLine

/-- The name of the program and its version. -/
def versionLine : String := programName ++ " 0.1.0"

/-! ## Filling lines -/

/-- How wide the help is. -/
def helpWidth : Nat := 120

/-- Puts words on lines of the given width, as many on each as there is room for. -/
def fillLines (width : Nat) (line : List Char) : List (List Char) → List (List Char)
  | [] => [line]
  | word :: words =>
    if line = [] then fillLines width word words
    else if line.length + 1 + word.length ≤ width then
      fillLines width (line ++ ' ' :: word) words
    else line :: fillLines width word words

/-- The lines of a text of the given width. -/
def linesOf (width : Nat) (text : String) : List String :=
  (fillLines width [] (Text.splitOn ' ' text.toList)).map String.ofList

/-- So many spaces. -/
def spaces (n : Nat) : String :=
  String.ofList (List.replicate n ' ')

/-- The text with spaces behind it up to the given width. -/
def padded (width : Nat) (text : String) : String :=
  text ++ spaces (width - text.length)

/-! ## Contents -/

/-- A description beside what it describes. -/
structure Entry where
  subject : String
  description : String

/-- The subject for a switch, which has room for a short name. -/
def subjectOf (short : Option Char) (shown : String) : String :=
  (match short with
    | some c => String.ofList ['-', c, ',', ' ']
    | none => spaces 4) ++ shown

/-- The entry for a switch. The default of a setting is told behind its description. -/
def entryOf (s : Switch) (description : String) : Entry where
  subject := subjectOf s.short? s.shown
  description := description ++
    (match s with
    | .setting s => s.default?.elim "" fun value => " [default: " ++ value ++ "]"
    | .flag _ => "")

/-- The flags. -/
def flagEntries : List Entry :=
  [⟨subjectOf (some 'h') "--help", "Prints help information"⟩,
   entryOf (.flag .optimize) "Enable bytecode optimizer",
   entryOf (.flag .abi) "ABI of the contracts",
   entryOf (.flag .bytecode) "Binary of the contracts in hex",
   entryOf (.flag .prettyJson) "Pretty-print all JSON output",
   entryOf (.flag .standardJson)
    ("Turn on Standard JSON Input / Output mode. Reads from stdin, result is written to " ++
      "stdout"),
   ⟨subjectOf (some 'V') "--version", "Prints version information"⟩,
   entryOf (.flag .verbose) "More detailed console output"]

/-- The settings. -/
def settingEntries : List Entry :=
  [entryOf (.setting .basePath)
    ("Root of the project source tree. The import callback will attempt to interpret all " ++
      "import paths as relative to this directory"),
   entryOf (.setting .includePath)
    ("Extra source directories available to the import callback. When using a package manager " ++
      "to install libraries, use this option to specify directories where packages are " ++
      "installed. Can be used multiple times to provide multiple locations. Can only be used " ++
      "if base path has a non-empty value"),
   entryOf (.setting .optimizeRuns)
    ("The number of runs specifies roughly how often each opcode of the deployed code will be " ++
      "executed across the lifetime of the contract. Lower values will optimize more for " ++
      "initial deployment cost, higher values will optimize more for high-frequency usage"),
   entryOf (.setting .outputDirectory) "Output directory for the contracts",
   entryOf (.setting .solc)
    "Path to the `solc` executable. By default, the one in $PATH is used"]

/-- What may follow the switches. -/
def argumentEntries : List Entry :=
  [⟨"<input-files>...", "The input file paths"⟩]

/-- What the program does. -/
def about : List String :=
  ["Compiles the given Solidity input files and writes the components specified in the options " ++
    "to files in the output directory. Imports are automatically read from the filesystem.",
   "",
   "Example: solcjs --bin --abi ERC20.sol --base-path . --include-path node_modules/ -o build/"]

/-! ## Layouts -/

/-- How far subjects are indented. -/
def subjectIndent : Nat := 4

/-- How far descriptions below their subjects are indented. -/
def belowIndent : Nat := 12

/-- An entry in the short layout. -/
def entryBeside (subjectWidth : Nat) (e : Entry) : String :=
  let indent := subjectIndent + subjectWidth + 4
  spaces subjectIndent ++ padded (subjectWidth + 4) e.subject ++
    ("\n" ++ spaces indent).intercalate (linesOf (helpWidth - indent) e.description)

/-- An entry in the long layout. -/
def entryBelow (subjectWidth : Nat) (e : Entry) : String :=
  let lines := linesOf (helpWidth - belowIndent) e.description
  spaces subjectIndent ++ padded (subjectWidth + 4) e.subject ++ "\n" ++
    "\n".intercalate (lines.map (spaces belowIndent ++ ·)) ++
    (if lines.length = 1 then "\n" else "")

/-- A section with its title. -/
def sectionOf (layout : Nat → Entry → String) (title : String) (entries : List Entry) : String :=
  let width := entries.foldl (fun n e => max n e.subject.length) 0
  "\n".intercalate ((title ++ ":") :: entries.map (layout width))

/-- The help in a layout. -/
def helpIn (layout : Nat → Entry → String) : String :=
  "\n".intercalate (versionLine :: about.flatMap (linesOf helpWidth)) ++ "\n\n" ++
    "\n\n".intercalate
      ["USAGE:\n    " ++ generalUsage, sectionOf layout "FLAGS" flagEntries,
       sectionOf layout "OPTIONS" settingEntries, sectionOf layout "ARGS" argumentEntries]

/-- The help with each description beside its switch. -/
def shortHelp : String := helpIn entryBeside

/-- The help with each description below its switch. -/
def longHelp : String := helpIn entryBelow

end SolFront.CommandLine

import SolFront.Path
import SolFront.Text.Utf8

/-!
# Paths of the operating system

For the operating system a path is bytes, and a name in it can have any bytes but those of a
separator. Most paths are text, and then the bytes are those of the text. A path that is none can
still be taken apart like a text, byte by byte: a separator and a dot are one byte each, and these
bytes are part of no other character.

Where such a path is shown as a text, what is no character is replaced.
-/

namespace SolFront

namespace Text

/-- Bytes as a text that has one character for each of them. -/
def bytewise (bytes : List UInt8) : String :=
  String.ofList (bytes.map fun b => Char.ofNat b.toNat)

/-- The bytes of a text that has one character for each of them. -/
def bytesOf (text : String) : List UInt8 :=
  text.toList.map fun c => UInt8.ofNat c.toNat

end Text

/-- A path as the operating system has it. -/
structure OsPath where
  bytes : List UInt8
  deriving DecidableEq, Inhabited, Repr

namespace OsPath

/-- The path that a text spells. -/
def ofString (text : String) : OsPath :=
  ⟨Text.encode text⟩

/-- The components of the path. Names have one character for each byte. -/
def path (p : OsPath) : Path :=
  Path.ofString (Text.bytewise p.bytes)

end OsPath

/-- The component with one character for each byte of its name. -/
def Component.bytewise : Component → Component
  | .name s => .name (Text.bytewise (Text.encode s))
  | c => c

namespace Path

/-- The path with one character for each byte of its names. -/
def bytewise (path : Path) : Path :=
  path.map Component.bytewise

/-- The text that a path with one character for each byte is shown as, with U+FFFD for what is no
text. -/
def shown (path : Path) : String :=
  Text.decodeLenient (Text.bytesOf (toString path))

end Path

/-- Where the path leads, seen from a working directory. Names have one character for each byte. -/
def OsPath.seenFrom (p : OsPath) (workingDirectory : Path) : Path :=
  Path.resolve workingDirectory.bytewise p.path

end SolFront

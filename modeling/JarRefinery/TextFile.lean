import JarRefinery.Text.Lines
import JarRefinery.World

/-!
Text files. A text is written beside its target and moved there once it is complete, so the target
holds the old text or the new one.
-/
namespace JarRefinery.TextFile

structure Style where
  encoding : String
  /-- What is written for a line feed; the line feed itself if empty. -/
  lineEnd : String
  mode : Int

/-- UTF-8, lines as they are, readable for all. -/
def defaultStyle : Style :=
  ⟨"utf-8", "\n", 0o644⟩

def lineEnds : List String := ["", "\n", "\r", "\r\n"]

/-- The bytes of `text`. -/
def encode (style : Style) (text : String) : Except Fault Bytes := do
  if !lineEnds.contains style.lineEnd then
    throw (.value ("illegal newline value: " ++ style.lineEnd))
  match Text.Encoding.ofName? style.encoding with
  | none => throw (.of .lookupError ("unknown encoding: " ++ style.encoding))
  | some encoding =>
    let text :=
      if style.lineEnd = "" ∨ style.lineEnd = "\n" then text
      else String.ofList (text.toList.flatMap fun c =>
        if c = '\n' then style.lineEnd.toList else [c])
    (encoding.encode text).mapError .unencodable

/-- Numbers from here on cannot be modes. -/
def modeLimit : Int := 0x80000000

/-- Modes have twelve bits; a number that cannot be one is passed over. -/
def setMode (path : Path) (mode : Int) : Action Unit :=
  if mode < -modeLimit ∨ modeLimit ≤ mode then pure ()
  else Action.onFiles (FileTree.setMode path (mode % 0o10000).toNat)

def fill (style : Style) (text : String) (file : Path) : Action Unit := do
  let bytes ← Action.ofResult (encode style text)
  Action.onFiles (FileTree.writeFile file bytes)
  setMode file style.mode

/-- Writes `text` to `path`. -/
def write (style : Style) (path : Path) (text : String) : Action Unit :=
  Action.withSibling path fun sibling => Action.moving sibling path (fill style text sibling)

/-- The text of a file in UTF-8, all its line ends made line feeds. -/
def read (path : Path) : Action String := do
  let bytes ← Action.onFiles (FileTree.readFile path)
  let chars ← Action.ofExcept .undecodable (Text.Utf8.decode bytes)
  pure (String.ofList (Text.unifyLineEnds chars))

end JarRefinery.TextFile

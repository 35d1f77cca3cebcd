import JarRefinery.Text.CodePage
import JarRefinery.Text.Utf8

/-!
Names of archive entries. A flag says that a name is written in UTF-8; without it the bytes from 128
up stand for the characters of the old code page 437.
-/
namespace JarRefinery.Archive

def unicodeNameFlag : Nat := 0x800

/-- Whether `flags` holds every bit of `flag`. -/
def hasFlag (flags flag : Nat) : Bool :=
  flags &&& flag == flag

def decodeName (flags : Nat) (bytes : Bytes) : Except Text.DecodeError String :=
  if hasFlag flags unicodeNameFlag then (Text.Utf8.decode bytes).map String.ofList
  else .ok (String.ofList (bytes.map Text.CodePage.page437.char))

/-- The flags that a written name needs. -/
def nameFlags (name : String) : Nat :=
  if name.toList.all (·.toNat < 0x80) then 0 else unicodeNameFlag

/-- A name up to its first zero character. -/
def cutName (name : String) : String :=
  String.ofList (name.toList.takeWhile (· != '\x00'))

end JarRefinery.Archive

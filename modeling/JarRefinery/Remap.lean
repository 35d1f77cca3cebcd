import JarRefinery.Mapping.Set
import JarRefinery.Tool.Call
import JarRefinery.Workspace

/-!
Remapping: one pass of the remapper for every mapping set, each on the output of the pass before.
What an earlier run left at the place of an output is removed before the pass.
-/
namespace JarRefinery

/-- The remapper and how it is called. -/
structure Remapper where
  java : String
  jar : Path
  arguments : List String
  timeout : Option Seconds
deriving DecidableEq, Repr

namespace Remapper

def argv (remapper : Remapper) (input output : Path) (set : MappingSet) : List String :=
  Tool.javaArgv remapper.java [] remapper.jar
    ([input.toString, output.toString, set.path.toString, set.source, set.target] ++
      remapper.arguments)

def passOutput (workspace : Workspace) (set : MappingSet) : Path :=
  workspace.mapped set.name "jar"

/-- Refuses a set that does not map from the namespace of the artifact. -/
def checkSource (artifact : Artifact) (set : MappingSet) : Except Fault Unit :=
  if set.source = artifact.space then .ok ()
  else .error (.of .remapFailure ("Pass " ++ Text.quote set.name ++ " maps from " ++
    Text.quote set.source ++ " but " ++ artifact.name ++ " is in " ++ Text.quote artifact.space))

/-- Makes the place of an output ready: its directory is there and no file is. -/
def clearOutput (artifact : Artifact) (set : MappingSet) (output : Path) : Action Unit := do
  let to_ ← Action.onFiles (FileTree.resolve output)
  let from_ ← Action.onFiles (FileTree.resolve artifact.path)
  Action.refuse (to_ = from_) (.of .remapFailure ("Pass " ++ Text.quote set.name ++
    " would overwrite its own input " ++ output.toString))
  Action.onFiles (FileTree.ensureDirectories output.parent)
  Action.onFiles (FileTree.discard output)

/-- One pass: the remapped artifact and how the call went. -/
def pass (remapper : Remapper) (workspace : Workspace) (artifact : Artifact) (set : MappingSet) :
    Action (Artifact × ToolResult) := do
  Action.ofResult (checkSource artifact set)
  let output := passOutput workspace set
  clearOutput artifact set output
  let result ← Tool.call ⟨remapper.argv artifact.path output set, none, remapper.timeout⟩
  Action.refuse (!result.isOk)
    (.of .remapFailure ("Remapper exited with " ++ toString result.status ++ " on pass " ++
      Text.quote set.name ++ ": " ++ result.shown))
  let written ← Action.onFiles (FileTree.isFile output)
  Action.refuse (!written) (.of .remapFailure
    ("Remapper reported success but " ++ output.toString ++ " was not written"))
  pure (⟨set.name ++ "-mapped", output, set.target⟩, result)

/-- The outputs of the passes in order, the last one being final, each with what `onPass` made of
it. -/
def chain {α : Type} (remapper : Remapper) (workspace : Workspace)
    (onPass : MappingSet → Artifact → ToolResult → Action α) :
    Artifact → List MappingSet → Action (List (Artifact × α))
  | _, [] => pure []
  | artifact, set :: rest => do
    let (output, result) ← remapper.pass workspace artifact set
    let noted ← onPass set output result
    return (output, noted) :: (← chain remapper workspace onPass output rest)

end Remapper

end JarRefinery

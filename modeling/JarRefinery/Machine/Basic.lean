import JarRefinery.FileTree

/-!
A small machine that external tools run on: a system directory with some programs in it, and a
directory to work in.
-/
namespace JarRefinery.Machine

/-- The directories in which programs are looked for. -/
def searchPath : List String := ["/usr/local/bin", "/usr/bin", "/bin"]

/-- The programs that are installed. -/
def programs : List String := ["sh", "bash", "dash", "cat", "chmod", "cp", "date", "echo", "env",
  "false", "grep", "head", "kill", "ln", "ls", "mkdir", "mv", "printf", "pwd", "python3", "rm",
  "sed", "seq", "sleep", "sort", "tail", "test", "touch", "tr", "true", "uname", "wc", "yes", "["]

/-- The directories of the system. -/
def directories : List Location := [["tmp"], ["usr"], ["usr", "local"], ["usr", "local", "bin"],
  ["usr", "bin"], ["bin"], ["etc"], ["root"]]

/-- The files of a machine on which nothing but the directory to work in was made. -/
def files (here : Location) : FileTree where
  here := here
  nodes :=
    (directories ++ [here]).map (·, .directory) ++ [(["etc", "passwd"], .file [] 0o644)] ++
      programs.flatMap fun name =>
        [(["usr", "bin", name], .file [] 0o755), (["bin", name], .file [] 0o755)]

end JarRefinery.Machine

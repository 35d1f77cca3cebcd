import JarRefinery.Bytes

/-!
Writing deflated data, in stored blocks.
-/
namespace JarRefinery.Compress

def storedLimit : Nat := 65535

/-- One block that holds `data` as it is. -/
def storedBlock (last : Bool) (data : Bytes) : Bytes :=
  (if last then 1 else 0) :: Bytes.ofLittleEndian 2 data.length ++
    Bytes.ofLittleEndian 2 (storedLimit - data.length) ++ data

/-- `data` as a deflated stream: full blocks, and the last one with what is left. -/
def deflate (data : Bytes) : Bytes :=
  if data.length ≤ storedLimit then storedBlock true data
  else storedBlock false (data.take storedLimit) ++ deflate (data.drop storedLimit)
termination_by data.length
decreasing_by
  rw [List.length_drop]
  have : 0 < storedLimit := by decide
  omega

end JarRefinery.Compress

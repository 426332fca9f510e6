import ClientRegen.Main
import ClientRegen.Proofs.ClearingAgain
import ClientRegen.Proofs.Config.Settings
import ClientRegen.Proofs.EnumFiles
import ClientRegen.Proofs.EnumSource.Agreement
import ClientRegen.Proofs.EnumSource.CommentLines
import ClientRegen.Proofs.EnumSource.KeyTokens
import ClientRegen.Proofs.EnumSource.Slicing
import ClientRegen.Proofs.FailedRuns
import ClientRegen.Proofs.FileTree.Resolution
import ClientRegen.Proofs.Generator.Parameters
import ClientRegen.Proofs.KeptPaths
import ClientRegen.Proofs.Shell.Word
import ClientRegen.Proofs.SourcePatches
import ClientRegen.Proofs.Spec.Chains
import ClientRegen.Proofs.Spec.EntryValues
import ClientRegen.Proofs.Spec.FileNames
import ClientRegen.Proofs.Spec.Names
import ClientRegen.Proofs.Spec.SearchRuns
import ClientRegen.Proofs.Yaml.Numbers

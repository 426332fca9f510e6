import ClientRegen.Document.Value
import ClientRegen.Run
/-!
# Reports of runs

What a run did, as a document and as a summary for people.
-/

namespace ClientRegen

/-- A counter in a document. -/
def counter (n : Nat) : Value :=
  .number (.integer n)

/-- The document of what was removed and kept. -/
def ClearReport.toValue (r : ClearReport) : Value :=
  .object [
    ("files_removed", counter r.filesRemoved),
    ("dirs_removed", counter r.dirsRemoved),
    ("kept", .array (r.kept.map .string))]

/-- The document of what a generator did. -/
def GeneratorOutput.toValue (o : GeneratorOutput) : Value :=
  .object [
    ("command_line", .string o.commandLine),
    ("stdout", .string o.stdout),
    ("stderr", .string o.stderr),
    ("exit_code", (o.exitCode.map counter).getD .null)]

namespace Report

/-- The document of a report. -/
def toValue (r : Report) : Value :=
  .object [
    ("client", .string r.client.label),
    ("output_dir", .string r.outputDir.text),
    ("cleared", r.cleared.toValue),
    ("generator", r.generator.toValue),
    ("patched", .array (r.patched.map fun p => .string p.text)),
    ("license_seeded", .bool r.licenseSeeded)]

/-- Lines for the items of a list, or one that says that there are none. -/
def itemLines (items : List String) : List String :=
  if items.isEmpty then ["  (none)"] else items.map ("  - " ++ ·)

/-- A path as seen from a directory, with slashes for backslashes. -/
def shownFrom (root p : Path) : String :=
  ((p.relativeTo? root).getD p).text.map fun c => if c = '\\' then '/' else c

/-- The lines of a summary. -/
def summaryLines (r : Report) : List String :=
  ["Client: " ++ r.client.label,
    "Output: " ++ r.outputDir.text,
    "Cleared: " ++ toString r.cleared.filesRemoved ++ " files, " ++
      toString r.cleared.dirsRemoved ++ " directories",
    "Kept:"] ++ itemLines r.cleared.kept ++
  ["Generator: " ++ r.generator.commandLine,
    "Patched files:"] ++ itemLines (r.patched.map (shownFrom r.outputDir)) ++
  if r.licenseSeeded then ["License: seeded LICENSE.md"] else []

/-- The summary for people, without blanks at its end. -/
def summary (r : Report) : String :=
  trimTextEnd (String.intercalate "\n" r.summaryLines)

end Report
end ClientRegen

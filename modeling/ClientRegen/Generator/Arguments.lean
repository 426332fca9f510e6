import ClientRegen.Config.Settings
/-!
# Arguments of a generator

What a generator is told: where the specification is, which generator is meant and where the
package goes, and then whatever else is configured.

* The generator undoes backslash escapes in parameters once, so backslashes are doubled.
-/

namespace ClientRegen.Generator

/-- The value of a parameter with its backslashes doubled. -/
def escapeParam (value : String) : String :=
  String.ofList (value.toList.flatMap fun c => if c = '\\' then ['\\', '\\'] else [c])

/-- Parameters as one argument. -/
def paramsArgument (params : List (String × String)) : String :=
  String.intercalate "," (params.map fun p => p.1 ++ "=" ++ escapeParam p.2)

/-- A flag and its value, unless the value is missing or empty. -/
def flag (name : String) (value : Option String) : List String :=
  match value with
  | some v => if v = "" then [] else [name, v]
  | none => []

end ClientRegen.Generator

namespace ClientRegen.Settings

open Generator

/-- The arguments that are left out where nothing is configured. -/
def optionalArguments (s : Settings) : List String :=
  flag "--git-user-id" s.gitUser ++ flag "--git-repo-id" s.gitRepo ++
    flag "--git-host" s.gitHost ++ flag "-t" (s.templateDir.map (·.text)) ++
    flag "-p" (some (paramsArgument s.params))

/-- All arguments for a run. -/
def arguments (s : Settings) : List String :=
  ["generate", "-i", s.specPath.text, "-g", s.generatorName, "-o", s.outputDir.text] ++
    s.optionalArguments

end ClientRegen.Settings

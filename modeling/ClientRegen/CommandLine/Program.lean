import ClientRegen.CommandLine.Usage
import ClientRegen.Document.JsonWriter
import ClientRegen.Report
/-!
# The program

What a command line does: it loads the configuration, resolves it for a client, and runs, or shows
what it would run.

* A dry run changes nothing.
-/

namespace ClientRegen.CommandLine

/-- The variable of the environment that may name the configuration file. -/
def configVariable : String := "OPENAPI_CLIENT_GENERATOR_CONFIG"

/-- What a failure is reported as: what was being done, then the failure, then its causes. -/
def chain (doing : Option String) (f : Failure) : List String :=
  doing.toList ++ f.message :: f.causes

/-- The text of a failure: the failure, and below it its causes, numbered if there are several. -/
def chainText : List String → String
  | [] => ""
  | [top] => "Error: " ++ top
  | [top, cause] => "Error: " ++ top ++ "\n\nCaused by:\n    " ++ cause
  | top :: causes =>
    "Error: " ++ top ++ "\n\nCaused by:" ++
      String.join (causes.zipIdx.map fun c => "\n    " ++ toString c.2 ++ ": " ++ c.1)

/-- Adds to a failure what was being done. -/
def during {α : Type} (doing : Option String) (result : Except Failure α) :
    Except (List String) α :=
  match result with
  | .ok a => .ok a
  | .error f => .error (chain doing f)

/-- The settings that an invocation leads to. -/
def settings (i : Invocation) (w : World) : Except (List String) Settings := do
  let (file, base) ← during none (ConfigFile.load w i.config)
  during (some ("failed to configure " ++ i.client.label ++ " client"))
    (file.resolve w base i.client i.overrides)

/-- What is shown of a report. -/
def shown (i : Invocation) (r : Report) : String :=
  if i.json then Json.pretty 0 r.toValue else r.summary

/-- What an invocation prints, or why it fails, and the world after it. -/
def execute (launch : Launcher) (i : Invocation) (w : World) :
    Except (List String) String × World :=
  match settings i w with
  | .error causes => (.error causes, w)
  | .ok s =>
    if i.dryRun then ((during none (s.plan w)).map (· ++ "\n"), w)
    else
      match s.run launch w with
      | .ok report w => (.ok (shown i report ++ "\n"), w)
      | .error f w =>
        (.error (chain (some ("failed to generate " ++ i.client.label ++ " client")) f), w)

/-- Reads a command line with what the environment says about it. -/
def parseIn (w : World) (args : List String) : Except UsageFault Invocation :=
  parse (w.lookUp? configVariable) args

end ClientRegen.CommandLine

/-!
# Client packages

The kinds of client packages that can be regenerated, and what each kind decides: its label, the
ending of its package's location, and the generator that makes it unless another is configured.
-/

namespace ClientRegen

/-- A kind of client package. -/
inductive Client where
  /-- A package for PHP. -/
  | php
  /-- A package for JavaScript. -/
  | js
  /-- A package for NodeJS, with types. -/
  | nodejs
deriving DecidableEq, Repr, Inhabited

namespace Client

/-- All kinds. -/
def all : List Client := [php, js, nodejs]

/-- The name of a kind. -/
def label : Client → String
  | php => "php"
  | js => "js"
  | nodejs => "nodejs"

/-- The ending of the location of a package; the packages for JavaScript and NodeJS share one. -/
def suffix : Client → String
  | php => "php"
  | js => "js"
  | nodejs => "js"

/-- The generator of a kind, unless another is configured. -/
def defaultGenerator : Client → String
  | php => "php"
  | js => "javascript"
  | nodejs => "typescript-axios"

/-- The kind with a label. -/
def ofLabel? (label : String) : Option Client :=
  all.find? (·.label == label)

end Client
end ClientRegen

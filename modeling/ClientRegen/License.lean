import ClientRegen.FileTree.Action
/-!
# The licence of a package

A package without a licence file is given one: a configured template, or else a bundled text.

* A licence that is there is left as it is.
-/

namespace ClientRegen

/-- The name of a package's licence file. -/
def licenseName : String := "LICENSE.md"

/-- The lines of the licence that is used if no template is configured. -/
def bundledLicenseLines : List String := [
  "# License",
  "",
  "The MIT License (MIT)",
  "",
  "Permission is hereby granted, free of charge, to any person obtaining a copy",
  "of this software and associated documentation files (the \"Software\"), to deal",
  "in the Software without restriction, including without limitation the rights",
  "to use, copy, modify, merge, publish, distribute, sublicense, and/or sell",
  "copies of the Software, and to permit persons to whom the Software is",
  "furnished to do so, subject to the following conditions:",
  "",
  "The above copyright notice and this permission notice shall be included in",
  "all copies or substantial portions of the Software.",
  "",
  "THE SOFTWARE IS PROVIDED \"AS IS\", WITHOUT WARRANTY OF ANY KIND, EXPRESS OR",
  "IMPLIED, INCLUDING BUT NOT LIMITED TO THE WARRANTIES OF MERCHANTABILITY,",
  "FITNESS FOR A PARTICULAR PURPOSE AND NONINFRINGEMENT. IN NO EVENT SHALL THE",
  "AUTHORS OR COPYRIGHT HOLDERS BE LIABLE FOR ANY CLAIM, DAMAGES OR OTHER",
  "LIABILITY, WHETHER IN AN ACTION OF CONTRACT, TORT OR OTHERWISE, ARISING FROM,",
  "OUT OF OR IN CONNECTION WITH THE SOFTWARE OR THE USE OR OTHER DEALINGS IN",
  "THE SOFTWARE."]

/-- The licence that is used if no template is configured. -/
def bundledLicense : String :=
  String.join (bundledLicenseLines.map (· ++ "\n"))

/-- Puts a licence file into a directory that has none, and answers whether it did. -/
def seedLicense (output : Path) (template : Option Path) : Action Bool := do
  let target := output.join ⟨licenseName⟩
  if (← get).exists? target then return false
  match template with
  | some source => Action.onPath source (·.copyFile source target)
  | none => Action.writeText target bundledLicense
  return true

end ClientRegen

import ClientRegen.Yaml.Token
/-!
# YAML nodes

Nodes are put together from tokens by a stack of the collections that are still open. Each token
takes one step, and before it is taken `settle` fills in the nodes that it shows to be absent: an
item, a key or a value that was announced and never written is the empty scalar.

References are expanded on the way. An anchor can be referred to once its node is complete, so no
node contains itself. Every key has to be a scalar.

* `Composed.depth` and `Composed.aliases` measure the expanded node without walking it.
-/

namespace ClientRegen.Yaml

/-- The key of an entry. -/
structure Key where
  /-- The text of its scalar. -/
  text : String
  /-- Whether the scalar is written out where the key stands, and not referred to. -/
  written : Bool

/-- A node of a document, with references expanded. -/
inductive Node where
  /-- A scalar: its tag, whether it was written plainly, and its text. -/
  | scalar (tag : Option String) (plain : Bool) (text : String)
  /-- A list of nodes. -/
  | sequence (tag : Option String) (items : List Node)
  /-- Keys with their values, in order. -/
  | mapping (tag : Option String) (entries : List (Key × Node))
deriving Inhabited

/-- A complete node and its measures. -/
structure Composed where
  /-- The node. -/
  node : Node
  /-- How many collections lie in one another. -/
  depth : Nat
  /-- How many references were expanded, counting each time an expansion repeats one. -/
  aliases : Nat

/-- The key that a node stands for, if it is a scalar. -/
def Composed.key? (c : Composed) : Option Key :=
  match c.node with
  | .scalar _ _ text => some ⟨text, c.aliases == 0⟩
  | _ => none

/-- The anchor and the tag before a node. -/
structure Properties where
  /-- The name that the node can be referred to by. -/
  anchor : Option String
  /-- The tag. -/
  tag : Option String

/-- No properties. -/
def Properties.empty : Properties :=
  ⟨none, none⟩

/-- What comes next in a mapping by indentation. -/
inductive BlockPhase where
  /-- A key, or the end. -/
  | key
  /-- The node of a key. -/
  | keyNode
  /-- The mark before the value of a key. -/
  | value (key : Composed)
  /-- The node of a value. -/
  | valueNode (key : Composed)

/-- What comes next in a list in brackets. -/
inductive ListPhase where
  /-- An item or the end. -/
  | item
  /-- A comma or the end. -/
  | separator
  /-- The key of an item that is a pair. -/
  | pairKey
  /-- The mark before the value of a pair. -/
  | pairValue (key : Composed)
  /-- The value of a pair. -/
  | pairValueNode (key : Composed)

/-- What comes next in a mapping in braces. -/
inductive BracePhase where
  /-- A key or the end. -/
  | entry
  /-- A comma or the end. -/
  | separator
  /-- The node of a key. -/
  | keyNode
  /-- A key that has no value. -/
  | bareKey
  /-- The mark before the value of a key. -/
  | value (key : Composed)
  /-- The node of a value. -/
  | valueNode (key : Composed)

/-- A collection that is still open. Its parts are kept latest first. -/
inductive Frame where
  /-- A list by indentation; `awaiting` after a dash. `closed` tells whether a token will end it:
  a list that is the value of a key at the same column ends without one. -/
  | blockList (properties : Properties) (items : List Composed) (awaiting closed : Bool)
  /-- A mapping by indentation. -/
  | blockMapping (properties : Properties) (entries : List (Composed × Composed))
      (phase : BlockPhase)
  /-- A list in brackets. -/
  | flowList (properties : Properties) (items : List Composed) (phase : ListPhase)
  /-- A mapping in braces. -/
  | flowMapping (properties : Properties) (entries : List (Composed × Composed))
      (phase : BracePhase)

/-- How far the document has come. -/
inductive Stage where
  /-- Before it; `directed` when a line with a percent sign asks for a start mark. -/
  | before (directed : Bool)
  /-- After its start mark, before its root. -/
  | started
  /-- Inside its root. -/
  | inside
  /-- After its root. -/
  | complete
  /-- After its end. -/
  | ended

/-- The state of putting nodes together. -/
structure Assembly where
  /-- How far the document has come. -/
  stage : Stage
  /-- The open collections, innermost first. -/
  frames : List Frame
  /-- Properties read for a node that has not begun. -/
  pending : Option Properties
  /-- The meanings of tag handles. -/
  handles : List (String × String)
  /-- Whether a version line was read. -/
  versioned : Bool
  /-- Anchored nodes, latest first; nothing for one that is not complete. -/
  anchors : List (String × Option Composed)
  /-- How many scalars, references and ends of collections were met. -/
  events : Nat
  /-- The root node, once complete. -/
  root : Option Composed

namespace Assembly

/-- Before the first token. -/
def start : Assembly :=
  ⟨.before false, [], none, [], false, [], 0, none⟩

/-- The tag that a handle and a suffix stand for: a handle that a line before the document defined,
or one of the two that need no definition. -/
def resolveTag? (a : Assembly) (handle suffix : String) : Option String :=
  if handle = "" then some suffix
  else
    match a.handles.lookup handle with
    | some m => some (m ++ suffix)
    | none =>
      if handle = "!" then some ("!" ++ suffix)
      else if handle = "!!" then some ("tag:yaml.org,2002:" ++ suffix)
      else none

/-- What kinds of node may begin: collections by indentation, and lists whose dashes stand in the
column of their key. -/
structure Opening where
  /-- Collections by indentation may begin. -/
  block : Bool
  /-- A list may begin with its first dash. -/
  dashes : Bool

/-- Whether a node is due, and of what kinds. -/
def opening? (a : Assembly) : Option Opening :=
  match a.frames with
  | [] =>
    match a.stage with
    | .before false => some ⟨true, false⟩
    | .started => some ⟨true, false⟩
    | _ => none
  | .blockList _ _ awaiting _ :: _ => if awaiting then some ⟨true, false⟩ else none
  | .blockMapping _ _ phase :: _ =>
    match phase with
    | .keyNode => some ⟨true, true⟩
    | .valueNode _ => some ⟨true, true⟩
    | _ => none
  | .flowList _ _ phase :: _ =>
    match phase with
    | .separator => none
    | .pairValue _ => none
    | _ => some ⟨false, false⟩
  | .flowMapping _ _ phase :: _ =>
    match phase with
    | .separator => none
    | .value _ => none
    | _ => some ⟨false, false⟩

/-- Whether a token begins a node, or goes on with its properties. -/
def beginsNode (o : Opening) (pending : Option Properties) : Token → Bool
  | .scalar _ _ => true
  | .flowSequenceStart => true
  | .flowMappingStart => true
  | .blockSequenceStart => o.block
  | .blockMappingStart => o.block
  | .blockEntry => o.dashes
  | .alias _ => pending.isNone
  | .anchor _ => pending.all (·.anchor.isNone)
  | .tag _ _ => pending.all (·.tag.isNone)
  | _ => false

/-- Whether a token shows that a node without properties is absent. -/
def omitsNode (a : Assembly) (t : Token) : Bool :=
  match a.frames with
  | [] =>
    match a.stage with
    | .started => t.isOneOf [.version, .documentStart, .documentEnd, .streamEnd] || t.isHandle
    | _ => false
  | .blockList _ _ _ closed :: _ =>
    t.isOneOf [.blockEntry, .blockEnd] || (!closed && t.isOneOf [.key, .value])
  | .blockMapping _ _ _ :: _ => t.isOneOf [.key, .value, .blockEnd]
  | .flowList _ _ phase :: _ =>
    match phase with
    | .pairValueNode _ => t.isOneOf [.flowEntry, .flowSequenceEnd]
    | _ => false
  | .flowMapping _ _ phase :: _ =>
    match phase with
    | .keyNode => t.isOneOf [.value, .flowEntry, .flowMappingEnd]
    | .valueNode _ => t.isOneOf [.flowEntry, .flowMappingEnd]
    | _ => false

/-- Remembers a complete node under its anchor. -/
def register (a : Assembly) (p : Properties) (c : Composed) : Assembly :=
  match p.anchor with
  | some name => { a with anchors := (name, some c) :: a.anchors }
  | none => a

/-- The scalar that stands for an absent node. -/
def absent (p : Properties) : Composed :=
  ⟨.scalar p.tag true "", 0, 0⟩

/-- A pair of a list in brackets: a mapping with one entry. -/
def pair? (key value : Composed) : Option Composed :=
  key.key?.map fun k =>
    ⟨.mapping none [(k, value.node)], max key.depth value.depth + 1, key.aliases + value.aliases⟩

/-- Puts a complete node in its place. -/
def place (a : Assembly) (c : Composed) : Option Assembly :=
  match a.frames with
  | [] => some { a with stage := .complete, root := some c }
  | .blockList p items _ closed :: fs =>
    some { a with frames := .blockList p (c :: items) false closed :: fs }
  | .blockMapping p entries phase :: fs =>
    match phase with
    | .keyNode => some { a with frames := .blockMapping p entries (.value c) :: fs }
    | .valueNode k => some { a with frames := .blockMapping p ((k, c) :: entries) .key :: fs }
    | .value k => some { a with frames := .blockMapping p ((k, c) :: entries) .key :: fs }
    | .key => none
  | .flowList p items phase :: fs =>
    match phase with
    | .item => some { a with frames := .flowList p (c :: items) .separator :: fs }
    | .pairKey => some { a with frames := .flowList p items (.pairValue c) :: fs }
    | .pairValue k =>
      (pair? k c).map fun d => { a with frames := .flowList p (d :: items) .separator :: fs }
    | .pairValueNode k =>
      (pair? k c).map fun d => { a with frames := .flowList p (d :: items) .separator :: fs }
    | .separator => none
  | .flowMapping p entries phase :: fs =>
    match phase with
    | .keyNode => some { a with frames := .flowMapping p entries (.value c) :: fs }
    | .bareKey =>
      some { a with frames := .flowMapping p ((c, absent .empty) :: entries) .separator :: fs }
    | .value k => some { a with frames := .flowMapping p ((k, c) :: entries) .separator :: fs }
    | .valueNode k => some { a with frames := .flowMapping p ((k, c) :: entries) .separator :: fs }
    | .entry => none
    | .separator => none

/-- The greatest of some measures. -/
def greatest (ns : List Nat) : Nat :=
  ns.foldl max 0

/-- Some measures together. -/
def total (ns : List Nat) : Nat :=
  ns.foldl Nat.add 0

/-- The list of items that were collected. -/
def listOf (p : Properties) (items : List Composed) : Composed :=
  ⟨.sequence p.tag (items.reverse.map (·.node)), greatest (items.map (·.depth)) + 1,
    total (items.map (·.aliases))⟩

/-- The mapping of entries that were collected. -/
def mappingOf? (p : Properties) (entries : List (Composed × Composed)) : Option Composed := do
  let keyed ← entries.reverse.mapM fun e => e.1.key?.map (·, e.2.node)
  pure ⟨.mapping p.tag keyed, greatest (entries.map fun e => max e.1.depth e.2.depth) + 1,
    total (entries.map fun e => e.1.aliases + e.2.aliases)⟩

/-- The properties of a collection, and its node once nothing is missing. -/
def complete? : Frame → Properties × Option Composed
  | .blockList p items _ _ => (p, some (listOf p items))
  | .blockMapping p entries _ => (p, mappingOf? p entries)
  | .flowList p items _ => (p, some (listOf p items))
  | .flowMapping p entries _ => (p, mappingOf? p entries)

/-- Closes the innermost collection. -/
def close (a : Assembly) : Option Assembly :=
  match a.frames with
  | [] => none
  | f :: fs =>
    let (p, c) := complete? f
    c.bind fun c => (({ a with frames := fs, events := a.events + 1 }).register p c).place c

/-- Puts an absent node in its place, with the properties that were read for it. -/
def placeAbsent (a : Assembly) : Option Assembly :=
  let p := a.pending.getD .empty
  let a := { a with pending := none, events := a.events + 1 }
  (a.register p (absent p)).place (absent p)

/-- Fills in the node that is due if the token shows that it is absent. -/
def settleNode (a : Assembly) (t : Token) : Option Assembly :=
  match a.opening?, a.pending with
  | some o, some p => if beginsNode o (some p) t then some a else a.placeAbsent
  | some _, none => if a.omitsNode t then a.placeAbsent else some a
  | none, _ => some a

/-- Ends a list without an end mark when no dash follows. -/
def settleList (a : Assembly) (t : Token) : Option Assembly :=
  match a.frames with
  | .blockList _ _ false false :: _ => if t = .blockEntry then some a else a.close
  | _ => some a

/-- Fills in the value of a key when no mark for it follows. -/
def settleValue (a : Assembly) (t : Token) : Option Assembly :=
  let fill := if t = .value then some a else a.placeAbsent
  match a.frames with
  | .blockMapping _ _ (.value _) :: _ => fill
  | .flowList _ _ (.pairValue _) :: _ => fill
  | .flowMapping _ _ (.value _) :: _ => fill
  | _ => some a

/-- Fills in everything that the next token shows to be absent. -/
def settle (a : Assembly) (t : Token) : Option Assembly := do
  let a ← a.settleNode t
  let a ← a.settleList t
  a.settleValue t

/-- Opens a collection: it cannot be referred to before it is complete. -/
def openWith (a : Assembly) (f : Properties → Frame) : Assembly :=
  let p := a.pending.getD .empty
  let anchors :=
    match p.anchor with
    | some name => (name, none) :: a.anchors
    | none => a.anchors
  let stage :=
    match a.frames with
    | [] => .inside
    | _ => a.stage
  { a with stage, anchors, pending := none, events := a.events + 1, frames := f p :: a.frames }

/-- In braces a key without a question mark may turn out to have no value. -/
def expectBareKey (a : Assembly) : Assembly :=
  match a.frames with
  | .flowMapping p entries .entry :: fs =>
    { a with frames := .flowMapping p entries .bareKey :: fs }
  | _ => a

/-- Takes a token that begins a node or belongs to its properties. -/
def takeNode (a : Assembly) (o : Opening) (t : Token) : Option Assembly :=
  if !beginsNode o a.pending t then none
  else
    let a := a.expectBareKey
    let p := a.pending.getD .empty
    match t with
    | .anchor name => some { a with pending := some { p with anchor := some name } }
    | .tag handle suffix =>
      (a.resolveTag? handle suffix).map fun tag =>
        { a with pending := some { p with tag := some tag } }
    | .alias name =>
      match a.anchors.lookup name with
      | some (some c) =>
        ({ a with events := a.events + 1 }).place { c with aliases := c.aliases + 1 }
      | _ => none
    | .scalar text plain =>
      let c : Composed := ⟨.scalar p.tag plain text, 0, 0⟩
      (({ a with pending := none, events := a.events + 1 }).register p c).place c
    | .flowSequenceStart => some (a.openWith fun p => .flowList p [] .item)
    | .flowMappingStart => some (a.openWith fun p => .flowMapping p [] .entry)
    | .blockSequenceStart => some (a.openWith fun p => .blockList p [] false true)
    | .blockMappingStart => some (a.openWith fun p => .blockMapping p [] .key)
    | .blockEntry => some (a.openWith fun p => .blockList p [] true false)
    | _ => none

/-- Takes a token outside of any collection. -/
def takeOutside (a : Assembly) (t : Token) : Option Assembly :=
  match a.stage, t with
  | .before _, .version =>
    if a.versioned then none else some { a with stage := .before true, versioned := true }
  | .before _, .handle name meaning =>
    if (a.handles.lookup name).isSome then none
    else some { a with stage := .before true, handles := (name, meaning) :: a.handles }
  | .before _, .documentStart => some { a with stage := .started }
  | .before false, .streamEnd => some { a with stage := .ended }
  | .complete, .documentEnd => some { a with stage := .ended }
  | .complete, .streamEnd => some { a with stage := .ended }
  | _, _ => a.opening?.bind (a.takeNode · t)

/-- Takes a token after everything absent was filled in. -/
def take (a : Assembly) (t : Token) : Option Assembly :=
  match a.frames with
  | [] => a.takeOutside t
  | .blockList p items false closed :: fs =>
    match t with
    | .blockEntry => some { a with frames := .blockList p items true closed :: fs }
    | .blockEnd => a.close
    | _ => none
  | .blockMapping p entries .key :: fs =>
    match t with
    | .key => some { a with frames := .blockMapping p entries .keyNode :: fs }
    | .blockEnd => a.close
    | _ => none
  | .blockMapping p entries (.value k) :: fs =>
    some { a with frames := .blockMapping p entries (.valueNode k) :: fs }
  | .flowList p items .item :: fs =>
    match t with
    | .flowSequenceEnd => a.close
    | .key => some { a with frames := .flowList p items .pairKey :: fs }
    | _ => a.opening?.bind (a.takeNode · t)
  | .flowList p items .separator :: fs =>
    match t with
    | .flowEntry => some { a with frames := .flowList p items .item :: fs }
    | .flowSequenceEnd => a.close
    | _ => none
  | .flowList p items (.pairValue k) :: fs =>
    some { a with frames := .flowList p items (.pairValueNode k) :: fs }
  | .flowMapping p entries .entry :: fs =>
    match t with
    | .flowMappingEnd => a.close
    | .key => some { a with frames := .flowMapping p entries .keyNode :: fs }
    | _ => a.opening?.bind (a.takeNode · t)
  | .flowMapping p entries .separator :: fs =>
    match t with
    | .flowEntry => some { a with frames := .flowMapping p entries .entry :: fs }
    | .flowMappingEnd => a.close
    | _ => none
  | .flowMapping p entries (.value k) :: fs =>
    some { a with frames := .flowMapping p entries (.valueNode k) :: fs }
  | _ => a.opening?.bind (a.takeNode · t)

/-- One step: what is absent is filled in, then the token is taken. -/
def step (a : Assembly) (t : Token) : Option Assembly := do
  let a ← a.settle t
  a.take t

end Assembly

/-- How deep collections may lie in one another. -/
def depthLimit : Nat := 128

/-- How many references may be expanded for each scalar, reference and collection. -/
def aliasesPerEvent : Nat := 100

/-- The root node of a document; of nothing but comments it is the absent node. -/
def Node.ofTokens? (ts : List Token) : Option Node := do
  let a ← ts.foldlM Assembly.step .start
  match a.stage with
  | .ended =>
    let c := a.root.getD (Assembly.absent .empty)
    if c.depth ≤ depthLimit ∧ c.aliases ≤ aliasesPerEvent * max a.events 1 then some c.node
    else none
  | _ => none

end ClientRegen.Yaml

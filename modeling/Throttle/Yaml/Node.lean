import Throttle.Yaml.Tokens

/-!
The nodes of a YAML document.

`Document.ofTokens?` accepts the tokens of at most one document. An alias stays a node of its own
that carries the number of its anchor, and the document keeps the anchored nodes, so a node may
refer to a collection it lies in. An anchor's number is the count of distinct names before it.
Collections keep no tag, because nothing asks for it; a tag's handle must be known all the same.
-/

namespace Throttle.Yaml

inductive Node where
  | scalar (text : String) (style : Style) (tag : Option Tag)
  | sequence (items : List Node)
  | mapping (entries : List (Node × Node))
  | alias (number : Nat)
  deriving Repr, Inhabited

namespace Node

/-- What stands where a node is left out. -/
def blank : Node := .scalar "" .plain none

end Node

/-- An anchored node under its number; `order` counts anchors in the order of their appearance. -/
structure Anchored where
  number : Nat
  order : Nat
  node : Node
  deriving Repr

structure Document where
  root : Node
  anchored : List Anchored
  deriving Repr

/-- The state of building nodes: the tokens ahead, tag handles, and the anchors met so far. -/
structure Builder where
  tokens : List Token
  handles : List (String × Tag)
  names : List (String × Nat)
  met : Nat
  anchored : List Anchored
  deriving Repr

namespace Builder

def next? (b : Builder) : Option Token := b.tokens.head?

def drop (b : Builder) : Builder := { b with tokens := b.tokens.tail }

def nextIsOneOf (b : Builder) (ts : List Token) : Bool := b.next?.any ts.contains

/-- The name takes the next free number, and loses the one it had. -/
def nameAnchor (b : Builder) (name : String) : Builder :=
  let number := b.names.length
  { b with
    names := (name, number) :: b.names.filter (·.1 ≠ name)
    met := b.met + 1 }

def resolveTag? (b : Builder) : Option (String × Tag) → Option (Option Tag)
  | none => some none
  | some (handle, suffix) =>
      if handle.isEmpty then some (some suffix)
      else (b.handles.lookup handle).map fun start => some (start.append suffix)

structure Properties where
  anchor : Option String
  tag : Option (String × Tag)
  deriving DecidableEq, Repr

def Properties.isEmpty (p : Properties) : Bool := p.anchor.isNone && p.tag.isNone

/-- At most one anchor and one tag, in either order. -/
def properties (b : Builder) : Properties × Builder :=
  match b.tokens with
  | .anchor name :: .tag handle suffix :: ts =>
      (⟨some name, some (handle, suffix)⟩, { b with tokens := ts })
  | .tag handle suffix :: .anchor name :: ts =>
      (⟨some name, some (handle, suffix)⟩, { b with tokens := ts })
  | .anchor name :: ts => (⟨some name, none⟩, { b with tokens := ts })
  | .tag handle suffix :: ts => (⟨none, some (handle, suffix)⟩, { b with tokens := ts })
  | _ => (⟨none, none⟩, b)

/-- Where a node may be left out: before these tokens it is. -/
def blankBefore (ts : List Token) (b : Builder) : Option (Node × Builder) :=
  if b.nextIsOneOf ts then some (.blank, b) else none

mutual

/--
The node ahead. `block` allows block collections, and `indentless` also a sequence whose entries
stand in the column of the mapping around it.
-/
def node? (block indentless : Bool) : Nat → Builder → Option (Node × Builder)
  | 0, _ => none
  | limit + 1, b =>
      match b.tokens with
      | .alias name :: ts => do
          let number ← b.names.lookup name
          some (.alias number, { b with tokens := ts })
      | _ => do
          let (properties, b) := b.properties
          let tag ← b.resolveTag? properties.tag
          match properties.anchor with
          | none => content? block indentless properties tag limit b
          | some name =>
              let number := b.names.length
              let order := b.met
              let (node, b) ← content? block indentless properties tag limit (b.nameAnchor name)
              some (node, { b with anchored := ⟨number, order, node⟩ :: b.anchored })

def content? (block indentless : Bool) (properties : Properties) (tag : Option Tag) :
    Nat → Builder → Option (Node × Builder)
  | 0, _ => none
  | limit + 1, b =>
      match b.tokens with
      | .blockEntry :: _ =>
          if indentless then do
            let (items, b) ← indentlessItems? limit b
            some (.sequence items, b)
          else missing b
      | .scalar text style :: _ => some (.scalar text style tag, b.drop)
      | .flowSequenceStart :: _ => do
          let (items, b) ← flowItems? true limit b.drop
          some (.sequence items, b)
      | .flowMappingStart :: _ => do
          let (entries, b) ← flowEntries? true limit b.drop
          some (.mapping entries, b)
      | .blockSequenceStart :: _ =>
          if block then do
            let (items, b) ← blockItems? limit b.drop
            some (.sequence items, b)
          else missing b
      | .blockMappingStart :: _ =>
          if block then do
            let (entries, b) ← blockEntries? limit b.drop
            some (.mapping entries, b)
          else missing b
      | _ => missing b
where
  missing (b : Builder) : Option (Node × Builder) :=
    if properties.isEmpty then none else some (.scalar "" .plain tag, b)

def blockItems? : Nat → Builder → Option (List Node × Builder)
  | 0, _ => none
  | limit + 1, b =>
      match b.next? with
      | some .blockEntry => do
          let b := b.drop
          let (item, b) ←
            match blankBefore [.blockEntry, .blockEnd] b with
            | some blank => some blank
            | none => node? true false limit b
          let (items, b) ← blockItems? limit b
          some (item :: items, b)
      | some .blockEnd => some ([], b.drop)
      | _ => none

def indentlessItems? : Nat → Builder → Option (List Node × Builder)
  | 0, _ => none
  | limit + 1, b =>
      match b.next? with
      | some .blockEntry => do
          let b := b.drop
          let (item, b) ←
            match blankBefore [.blockEntry, .key, .value, .blockEnd] b with
            | some blank => some blank
            | none => node? true false limit b
          let (items, b) ← indentlessItems? limit b
          some (item :: items, b)
      | _ => some ([], b)

def blockEntries? : Nat → Builder → Option (List (Node × Node) × Builder)
  | 0, _ => none
  | limit + 1, b =>
      match b.next? with
      | some .key => do
          let b := b.drop
          let (key, b) ←
            match blankBefore [.key, .value, .blockEnd] b with
            | some blank => some blank
            | none => node? true true limit b
          let (value, b) ←
            match b.next? with
            | some .value =>
                let b := b.drop
                match blankBefore [.key, .value, .blockEnd] b with
                | some blank => some blank
                | none => node? true true limit b
            | _ => some (.blank, b)
          let (entries, b) ← blockEntries? limit b
          some ((key, value) :: entries, b)
      | some .blockEnd => some ([], b.drop)
      | _ => none

/-- Items up to the closing bracket; one that is a single pair is a mapping of its own. -/
def flowItems? (first : Bool) : Nat → Builder → Option (List Node × Builder)
  | 0, _ => none
  | limit + 1, b =>
      if b.next? = some .flowSequenceEnd then some ([], b.drop)
      else do
        let b ← if first then some b else if b.next? = some .flowEntry then some b.drop else none
        if b.next? = some .flowSequenceEnd then some ([], b.drop)
        else
          let (item, b) ←
            if b.next? = some .key then flowPair? limit b.drop else node? false false limit b
          let (items, b) ← flowItems? false limit b
          some (item :: items, b)

/-- A single pair. A key that is left out takes the token before which it is missing with it. -/
def flowPair? : Nat → Builder → Option (Node × Builder)
  | 0, _ => none
  | limit + 1, b => do
      let (key, b) ←
        match blankBefore [.value, .flowEntry, .flowSequenceEnd] b with
        | some (blank, b) => some (blank, b.drop)
        | none => node? false false limit b
      let (value, b) ←
        match b.next? with
        | some .value =>
            let b := b.drop
            match blankBefore [.flowEntry, .flowSequenceEnd] b with
            | some blank => some blank
            | none => node? false false limit b
        | _ => some (.blank, b)
      some (.mapping [(key, value)], b)

/-- Entries up to the closing brace; a value may be left out, with or without its colon. -/
def flowEntries? (first : Bool) : Nat → Builder → Option (List (Node × Node) × Builder)
  | 0, _ => none
  | limit + 1, b =>
      if b.next? = some .flowMappingEnd then some ([], b.drop)
      else do
        let b ← if first then some b else if b.next? = some .flowEntry then some b.drop else none
        if b.next? = some .flowMappingEnd then some ([], b.drop)
        else
          let (entry, b) ←
            if b.next? = some .key then do
              let b := b.drop
              let (key, b) ←
                match blankBefore [.value, .flowEntry, .flowMappingEnd] b with
                | some blank => some blank
                | none => node? false false limit b
              let (value, b) ←
                match b.next? with
                | some .value =>
                    let b := b.drop
                    match blankBefore [.flowEntry, .flowMappingEnd] b with
                    | some blank => some blank
                    | none => node? false false limit b
                | _ => some (.blank, b)
              some ((key, value), b)
            else do
              let (key, b) ← node? false false limit b
              some ((key, .blank), b)
          let (entries, b) ← flowEntries? false limit b
          some (entry :: entries, b)

end

/-- Tag handles that need no directive. -/
def standardHandles : List (String × Tag) := [("!", .nonspecific), ("!!", .coreStart)]

/-- The directives in front of a document: one version, and handles that are all different. -/
def directives? (versioned : Bool) (handles : List (String × Tag)) :
    List Token → Option (List (String × Tag) × List Token)
  | .versionDirective major minor :: ts =>
      if !versioned && major == 1 && (minor == 1 || minor == 2) then directives? true handles ts
      else none
  | .tagDirective handle start :: ts =>
      if (handles.lookup handle).isSome then none
      else directives? versioned (handles ++ [(handle, start)]) ts
  | ts => some (handles, ts)

def isDirective : Token → Bool
  | .versionDirective .. => true
  | .tagDirective .. => true
  | _ => false

end Builder

namespace Document

/-- A text without a node reads as a document whose root is left out. -/
def empty : Document := ⟨.blank, []⟩

/-- No more than ends of documents may follow. -/
def close? (root : Node) (b : Builder) : Option Document :=
  if b.tokens.all (· == .documentEnd) then some ⟨root, b.anchored⟩ else none

/-- The document whose root starts here. -/
def body? (handles : List (String × Tag)) (ts : List Token) : Option Document := do
  let b : Builder := ⟨ts, handles ++ Builder.standardHandles, [], 0, []⟩
  let (root, b) ← b.node? true false (4 * ts.length + 4)
  close? root b

def ofTokens? (ts : List Token) : Option Document := do
  let (handles, ts') ← Builder.directives? false [] ts
  match ts' with
  | .documentStart :: ts' =>
      match ts' with
      | [] | .documentEnd :: _ => close? .blank ⟨ts', handles, [], 0, []⟩
      | t :: _ =>
          if t == .documentStart || Builder.isDirective t then none else body? handles ts'
  | _ =>
      if ts.isEmpty then some empty
      else if ts'.length < ts.length then none
      else body? handles ts'

def ofText? (s : String) : Option Document := do ofTokens? (← tokens? s)

/-- The node that an alias stands for; of several under one number, the last to appear. -/
def target (d : Document) : Node → Option Node
  | .alias number =>
      let candidates := d.anchored.filter (·.number = number)
      let latest := candidates.foldl (fun best a =>
        match best with
        | some b => if b.order < a.order then some a else best
        | none => some a) none
      latest.map (·.node)
  | node => some node

end Document

end Throttle.Yaml

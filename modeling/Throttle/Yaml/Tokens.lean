import Throttle.Yaml.Property
import Throttle.Yaml.Scalar.Block
import Throttle.Yaml.Scalar.Plain
import Throttle.Yaml.Scalar.Quoted

/-!
The tokens of a text.

A scalar or collection may turn out to be a key only when the colon after it is met. The place
before it is therefore remembered as a possible key, one for each level of flow collections, and the
`key` token is put there afterwards. A possible key must end on its line and within 1024 bytes.
Block collections open and close with the column of the first token of a line.
-/

namespace Throttle.Yaml

/-- Where a key may begin. In a block mapping's own column a key is required to follow. -/
structure PossibleKey where
  required : Bool
  position : Nat
  place : Place
  deriving DecidableEq, Repr

/--
A reading of tokens: the position, the columns of the open block collections with the innermost
first, the possible key of this level and of the flow levels around it, whether a key may begin
here, and the tokens so far with the latest first.
-/
structure Scan where
  cursor : Cursor
  indents : List Nat
  key : Option PossibleKey
  outer : List (Option PossibleKey)
  keyAllowed : Bool
  tokens : List Token
  deriving DecidableEq, Repr

namespace Scan

def start (cs : List Char) : Scan := ⟨.start cs, [], none, [], true, []⟩

def inFlow (s : Scan) : Bool := !s.outer.isEmpty

def put (s : Scan) (t : Token) : Scan := { s with tokens := t :: s.tokens }

/-- Insert a token so that `position` tokens come before it. -/
def insert (s : Scan) (position : Nat) (t : Token) : Scan :=
  let later := s.tokens.length - position
  { s with tokens := s.tokens.take later ++ t :: s.tokens.drop later }

def moveTo (s : Scan) (c : Cursor) : Scan := { s with cursor := c }

/-- Put a token that is `n` characters long. -/
def take (s : Scan) (n : Nat) (t : Token) : Scan := (s.put t).moveTo (s.cursor.skip n)

/-- Past white space, comments and breaks. A tab counts as white space where no key may begin. -/
def skipGap (inFlow comment keyAllowed : Bool) (p : Place) : List Char → Cursor × Bool
  | [] => (⟨p, []⟩, keyAllowed)
  | c :: cs =>
      if isBreak c then skipGap inFlow false (keyAllowed || !inFlow) p.nextLine cs
      else if comment then skipGap inFlow true keyAllowed (p.after c) cs
      else if c == '\ufeff' && p.column == 0 then skipGap inFlow false keyAllowed (p.after c) cs
      else if c == ' ' || (c == '\t' && (inFlow || !keyAllowed)) then
        skipGap inFlow false keyAllowed (p.after c) cs
      else if c == '#' then skipGap inFlow true keyAllowed (p.after c) cs
      else (⟨p, c :: cs⟩, keyAllowed)

/-- A possible key that the position has left behind is none; a required one must not be. -/
def renew? (c : Cursor) : Option PossibleKey → Option (Option PossibleKey)
  | none => some none
  | some k =>
      if k.place.line < c.line || k.place.bytes + 1024 < c.bytes then
        if k.required then none else some none
      else some (some k)

/-- Close the block collections whose column `keep` does not cover. -/
def closeBlocks (keep : Nat → Bool) : List Nat → List Token → List Nat × List Token
  | [], ts => ([], ts)
  | i :: is, ts => if keep i then (i :: is, ts) else closeBlocks keep is (.blockEnd :: ts)

def unindent (s : Scan) (keep : Nat → Bool) : Scan :=
  if s.inFlow then s
  else
    let (indents, tokens) := closeBlocks keep s.indents s.tokens
    { s with indents, tokens }

/-- Open a block collection at a column deeper than those open. -/
def indent (s : Scan) (column position : Nat) (t : Token) : Scan :=
  if s.inFlow || !s.indents.head?.all (· < column) then s
  else { s.insert position t with indents := column :: s.indents }

/-- To the next token, settling what its line and column decide. -/
def approach? (s : Scan) : Option Scan := do
  let (cursor, keyAllowed) :=
    skipGap s.inFlow false s.keyAllowed s.cursor.toPlace s.cursor.rest
  let key ← renew? cursor s.key
  let outer ← s.outer.mapM (renew? cursor)
  some ({ s with cursor, keyAllowed, key, outer }.unindent (· ≤ cursor.column))

def dropKey? (s : Scan) : Option Scan :=
  if s.key.any (·.required) then none else some { s with key := none }

/-- Remember the present place as a possible key, if one may begin here. -/
def saveKey? (s : Scan) : Option Scan :=
  if s.keyAllowed then do
    let required := !s.inFlow && s.indents.head? == some s.cursor.column
    let s ← s.dropKey?
    some { s with key := some ⟨required, s.tokens.length, s.cursor.toPlace⟩ }
  else some s

def allowKey (s : Scan) (b : Bool) : Scan := { s with keyAllowed := b }

/-! ## One token of each kind -/

/-- Close everything; tokens of documents and directives stand outside all collections. -/
def leaveBlocks? (s : Scan) : Option Scan := do
  let s ← (s.unindent fun _ => false).dropKey?
  some (s.allowKey false)

def directive? (s : Scan) : Option Scan := do
  let s ← s.leaveBlocks?
  let (t, c) ← s.cursor.directive?
  some ((s.put t).moveTo c)

def documentMarker? (s : Scan) (t : Token) : Option Scan := do
  let s ← s.leaveBlocks?
  some (s.take 3 t)

def flowStart? (s : Scan) (t : Token) : Option Scan := do
  let s ← s.saveKey?
  some ({ s with key := none, outer := s.key :: s.outer }.allowKey true |>.take 1 t)

def flowEnd? (s : Scan) (t : Token) : Option Scan := do
  let s ← s.dropKey?
  let s := match s.outer with
    | [] => s
    | key :: outer => { s with key, outer }
  some (s.allowKey false |>.take 1 t)

def flowEntry? (s : Scan) : Option Scan := do
  let s ← s.dropKey?
  some (s.allowKey true |>.take 1 .flowEntry)

/-- In block context an entry, an explicit key or a bare value may only stand where a key may. -/
def openBlock? (s : Scan) (t : Token) : Option Scan :=
  if s.inFlow then some s
  else if s.keyAllowed then some (s.indent s.cursor.column s.tokens.length t)
  else none

def blockEntry? (s : Scan) : Option Scan := do
  let s ← (← s.openBlock? .blockSequenceStart).dropKey?
  some (s.allowKey true |>.take 1 .blockEntry)

def explicitKey? (s : Scan) : Option Scan := do
  let s ← (← s.openBlock? .blockMappingStart).dropKey?
  some (s.allowKey (!s.inFlow) |>.take 1 .key)

def value? (s : Scan) : Option Scan :=
  match s.key with
  | some k =>
      let s := (s.insert k.position .key).indent k.place.column k.position .blockMappingStart
      some ({ s with key := none }.allowKey false |>.take 1 .value)
  | none => do
      let s ← s.openBlock? .blockMappingStart
      some (s.allowKey (!s.inFlow) |>.take 1 .value)

def named? (s : Scan) (t : String → Token) : Option Scan := do
  let s ← s.saveKey?
  let (name, c) ← s.cursor.name?
  some ((s.allowKey false).put (t name) |>.moveTo c)

def tag? (s : Scan) : Option Scan := do
  let s ← s.saveKey?
  let (t, c) ← s.cursor.tag? s.inFlow
  some ((s.allowKey false).put t |>.moveTo c)

def blockScalar? (s : Scan) (style : Style) : Option Scan := do
  let s ← s.dropKey?
  let (text, c) ← Block.read? (style = .literal) s.indents.head? s.cursor
  some ((s.allowKey true).put (.scalar (.ofList text) style) |>.moveTo c)

def quotedScalar? (s : Scan) (quote : Char) (style : Style) : Option Scan := do
  let s ← s.saveKey?
  let (text, c) ← Quoted.read? quote s.cursor
  some ((s.allowKey false).put (.scalar (.ofList text) style) |>.moveTo c)

def plainScalar? (s : Scan) : Option Scan := do
  let s ← s.saveKey?
  let least := match s.indents with
    | [] => 0
    | i :: _ => i + 1
  let r ← Plain.read? s.inFlow least s.cursor
  some ((s.allowKey r.endsLine).put (.scalar (.ofList r.text) .plain) |>.moveTo r.cursor)

/-- A character that has a meaning of its own at the start of a token. -/
def isIndicator (c : Char) : Bool := "-?:,[]\x7b\x7d#&*!|>'\"%@`".toList.contains c

def startsPlain (inFlow : Bool) (c : Char) (cs : List Char) : Bool :=
  !(isWhite c || isBreak c || isIndicator c) || (c == '-' && !nextIs isWhite cs)
    || (!inFlow && (c == '?' || c == ':') && !atGap cs)

/-- The next token, which starts with `c` and goes on with `cs`. -/
def fetch? (s : Scan) (c : Char) (cs : List Char) : Option Scan :=
  if c == '%' && s.cursor.column == 0 then s.directive?
  else if s.cursor.atMarker '-' then s.documentMarker? .documentStart
  else if s.cursor.atMarker '.' then s.documentMarker? .documentEnd
  else if c == '[' then s.flowStart? .flowSequenceStart
  else if c == '{' then s.flowStart? .flowMappingStart
  else if c == ']' then s.flowEnd? .flowSequenceEnd
  else if c == '}' then s.flowEnd? .flowMappingEnd
  else if c == ',' then s.flowEntry?
  else if c == '-' && atGap cs then s.blockEntry?
  else if c == '?' && (s.inFlow || atGap cs) then s.explicitKey?
  else if c == ':' && (s.inFlow || atGap cs) then s.value?
  else if c == '*' then s.named? .alias
  else if c == '&' then s.named? .anchor
  else if c == '!' then s.tag?
  else if c == '|' && !s.inFlow then s.blockScalar? .literal
  else if c == '>' && !s.inFlow then s.blockScalar? .folded
  else if c == '\'' then s.quotedScalar? c .singleQuoted
  else if c == '"' then s.quotedScalar? c .doubleQuoted
  else if startsPlain s.inFlow c cs then s.plainScalar?
  else none

/-- The end of the text closes everything, as does the start of a line. -/
def finish? (s : Scan) : Option (List Token) := do
  let s ← (s.unindent fun _ => false).dropKey?
  some s.tokens.reverse

/-- All tokens, at most `limit` of them. -/
def run : Nat → Scan → Option (List Token)
  | 0, _ => none
  | limit + 1, s => do
      let s ← s.approach?
      match s.cursor.rest with
      | [] => s.finish?
      | c :: cs => run limit (← s.fetch? c cs)

end Scan

def tokens? (s : String) : Option (List Token) :=
  if s.toList.all isAllowed then
    let cs := unifyBreaks s.toList
    Scan.run (cs.length + 1) (.start cs)
  else none

end Throttle.Yaml

/-!
YAML source text and a reading position in it.

Line breaks are unified before reading: carriage return, carriage return with line feed, and next
line all become a line feed, while the line and paragraph separators stay themselves. A cursor keeps
the unread text together with its place: the line, and what of the line lies behind, counted in
characters and in bytes of UTF-8.
-/

namespace Throttle.Yaml

/-- A character that may stand in a document at all. -/
def isAllowed (c : Char) : Bool :=
  let n := c.toNat
  n == 0x09 || n == 0x0A || n == 0x0D || n == 0x85 || (0x20 ≤ n && n ≤ 0x7E)
    || (0xA0 ≤ n && n ≤ 0xD7FF) || (0xE000 ≤ n && n ≤ 0xFFFD) || 0x10000 ≤ n

def unifyBreaks : List Char → List Char
  | [] => []
  | '\r' :: '\n' :: cs => '\n' :: unifyBreaks cs
  | c :: cs => (if c = '\r' ∨ c = '\x85' then '\n' else c) :: unifyBreaks cs

def isBreak (c : Char) : Bool := c == '\n' || c == '\u2028' || c == '\u2029'

def isWhite (c : Char) : Bool := c == ' ' || c == '\t'

/-- A character of the names of anchors, directives and tag handles. -/
def isWordChar (c : Char) : Bool := c.isAlphanum || c == '_' || c == '-'

/-- The next character, if there is one, is white or a break. -/
def atGap : List Char → Bool
  | [] => true
  | c :: _ => isWhite c || isBreak c

/-- The line ends here. -/
def atLineEnd : List Char → Bool
  | [] => true
  | c :: _ => isBreak c

def nextIs (p : Char → Bool) : List Char → Bool
  | [] => false
  | c :: _ => p c

structure Place where
  line : Nat
  column : Nat
  bytes : Nat
  deriving DecidableEq, Repr

namespace Place

def start : Place := ⟨0, 0, 0⟩

/-- Behind a character of the same line. -/
def after (p : Place) (c : Char) : Place := ⟨p.line, p.column + 1, p.bytes + c.utf8Size⟩

def nextLine (p : Place) : Place := ⟨p.line + 1, 0, 0⟩

end Place

structure Cursor extends Place where
  rest : List Char
  deriving DecidableEq, Repr

namespace Cursor

def start (cs : List Char) : Cursor := ⟨.start, cs⟩

/-- The position within the same line where `rest` is what is left. -/
def within (c : Cursor) (rest : List Char) : Cursor :=
  ⟨(c.rest.take (c.rest.length - rest.length)).foldl .after c.toPlace, rest⟩

/-- Past `n` characters of the same line. -/
def skip (c : Cursor) (n : Nat) : Cursor := c.within (c.rest.drop n)

/-- Past a line break, if one stands here. -/
def skipBreak (c : Cursor) : Cursor :=
  match c.rest with
  | b :: rest => if isBreak b then ⟨c.nextLine, rest⟩ else c
  | [] => c

/-- The longest run of characters of the same line that satisfy `p`, and the position after it. -/
def span (c : Cursor) (p : Char → Bool) : List Char × Cursor :=
  (c.rest.takeWhile p, c.within (c.rest.dropWhile p))

def skipWhites (c : Cursor) : Cursor := (c.span isWhite).2

/-- Past the white space and the comment that may end a line; nothing else may stand there. -/
def endLine? (c : Cursor) : Option Cursor :=
  let c := c.skipWhites
  let c := if nextIs (· == '#') c.rest then (c.span fun d => !isBreak d).2 else c
  if atLineEnd c.rest then some c.skipBreak else none

/-- A line that starts with three of the character `d` and a gap. -/
def atMarker (c : Cursor) (d : Char) : Bool :=
  c.column == 0 && c.rest.take 3 == [d, d, d] && atGap (c.rest.drop 3)

def atDocumentMarker (c : Cursor) : Bool := c.atMarker '-' || c.atMarker '.'

end Cursor

end Throttle.Yaml

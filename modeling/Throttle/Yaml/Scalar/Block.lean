import Throttle.Yaml.Cursor

/-!
Block scalars: indented lines after `|` (literal) or `>` (folded).

The header may give the indentation and say whether the final breaks are stripped (`-`), kept (`+`)
or clipped to one. Without a given indentation the first line with text decides. Folding joins two
adjacent lines with a space unless one of them starts with white space.
-/

namespace Throttle.Yaml.Block

inductive Chomping where
  | clip
  | strip
  | keep
  deriving DecidableEq, Repr

structure Header where
  chomping : Chomping
  increment : Option Nat
  deriving DecidableEq, Repr

def chomping? : Char → Option Chomping
  | '+' => some .keep
  | '-' => some .strip
  | _ => none

/-- An indentation is a digit other than zero. -/
def increment? (c : Char) : Option Nat :=
  if c.isDigit ∧ c ≠ '0' then some (c.toNat - '0'.toNat) else none

/-- The two parts of a header come in either order, and both may be missing. -/
def header (cs : List Char) : Header × List Char :=
  match cs with
  | [] => (⟨.clip, none⟩, [])
  | a :: rest =>
      match chomping? a, increment? a with
      | some chomping, _ =>
          match rest with
          | b :: rest' =>
              match increment? b with
              | some n => (⟨chomping, some n⟩, rest')
              | none => (⟨chomping, none⟩, rest)
          | [] => (⟨chomping, none⟩, [])
      | none, some n =>
          match rest with
          | b :: rest' =>
              match chomping? b with
              | some chomping => (⟨chomping, some n⟩, rest')
              | none => (⟨.clip, some n⟩, rest)
          | [] => (⟨.clip, some n⟩, [])
      | none, none => (⟨.clip, none⟩, cs)

/-- Blank lines, the deepest column they and the indentation after them reach, and the position. -/
structure Blank where
  breaks : List Char
  deepest : Nat
  cursor : Cursor
  deriving DecidableEq, Repr

/-- Skip blank lines and indentation up to the column `indent`, or any where it is not yet known. -/
def blank? (indent : Option Nat) (p : Place) : List Char → Option Blank
  | [] => some ⟨[], p.column, ⟨p, []⟩⟩
  | c :: cs =>
      let shallow := indent.all (p.column < ·)
      if c == ' ' && shallow then blank? indent (p.after c) cs
      else if c == '\t' && shallow then none
      else if isBreak c then do
        let more ← blank? indent p.nextLine cs
        some { more with breaks := c :: more.breaks, deepest := max p.column more.deepest }
      else some ⟨[], p.column, ⟨p, c :: cs⟩⟩

def skipBlank? (indent : Option Nat) (c : Cursor) : Option Blank :=
  blank? indent c.toPlace c.rest

/-- The lines of a scalar, the break that ends the last one, the blank lines after it. -/
structure Body where
  text : List Char
  lastBreak : List Char
  breaks : List Char
  cursor : Cursor
  deriving DecidableEq, Repr

/-- What stands for the break between two lines; a folded one may be a space, or nothing. -/
def glue (literal besideBlank : Bool) (lastBreak breaks : List Char) : List Char :=
  if !literal && lastBreak == ['\n'] && !besideBlank then if breaks.isEmpty then [' '] else []
  else lastBreak

/--
The lines from a position on, at most `limit` of them. `blank` says whether the line before started
with white space, `lastBreak` is the break that ended it, and `breaks` are the blank lines since.
-/
def lines (literal : Bool) (indent : Nat) :
    Nat → (blank : Bool) → (lastBreak breaks : List Char) → Cursor → Option Body
  | 0, _, _, _, _ => none
  | limit + 1, blank, lastBreak, breaks, c => do
      if c.column ≠ indent ∨ c.rest = [] then some ⟨[], lastBreak, breaks, c⟩
      else
        let startsBlank := nextIs isWhite c.rest
        let (text, c) := c.span fun d => !isBreak d
        let after ← skipBlank? (some indent) c.skipBreak
        let more ← lines literal indent limit startsBlank (c.rest.take 1) after.breaks after.cursor
        let start := glue literal (blank || startsBlank) lastBreak breaks ++ breaks
        some { more with text := start ++ text ++ more.text }

/-- The text of a block scalar inside a collection at the column `parent`, from its indicator on. -/
def read? (literal : Bool) (parent : Option Nat) (c : Cursor) : Option (List Char × Cursor) := do
  let c := c.skip 1
  let (header, rest) := header c.rest
  let c ← (c.within rest).endLine?
  let before ← skipBlank? (header.increment.map (parent.getD 0 + ·)) c
  let least := match parent with
    | some column => column + 1
    | none => 1
  let indent := match header.increment with
    | some n => parent.getD 0 + n
    | none => max before.deepest least
  let body ← lines literal indent (c.rest.length + 1) false [] before.breaks before.cursor
  let ending := match header.chomping with
    | .strip => []
    | .clip => body.lastBreak
    | .keep => body.lastBreak ++ body.breaks
  some (body.text ++ ending, body.cursor)

end Throttle.Yaml.Block

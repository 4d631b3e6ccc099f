import Throttle.Text.Digit
import Throttle.Yaml.Scalar.Gap

/-!
Scalars in single or double quotes.

Between single quotes a quote is written twice. Between double quotes a backslash starts an escape:
a letter, two, four or eight hexadecimal digits of a code point, or a line break that joins two
lines. Other breaks fold. A document marker inside quotes is refused.
-/

namespace Throttle.Yaml.Quoted

def simpleEscape? : Char → Option Char
  | '0' => some '\x00'
  | 'a' => some '\x07'
  | 'b' => some '\x08'
  | 't' | '\t' => some '\t'
  | 'n' => some '\n'
  | 'v' => some '\x0b'
  | 'f' => some '\x0c'
  | 'r' => some '\r'
  | 'e' => some '\x1b'
  | ' ' => some ' '
  | '"' => some '"'
  | '/' => some '/'
  | '\\' => some '\\'
  | 'N' => some '\x85'
  | '_' => some '\xa0'
  | 'L' => some '\u2028'
  | 'P' => some '\u2029'
  | _ => none

/-- How many hexadecimal digits follow the letter of an escape. -/
def escapeWidth? : Char → Option Nat
  | 'x' => some 2
  | 'u' => some 4
  | 'U' => some 8
  | _ => none

/-- The character of a code point; surrogates have none. -/
def charOfCode? (n : Nat) : Option Char := if n.isValidChar then some (.ofNat n) else none

/-- The character an escape stands for, given what follows the backslash. -/
def escape? : List Char → Option (Char × List Char)
  | [] => none
  | c :: cs =>
      match escapeWidth? c with
      | none => (simpleEscape? c).map (·, cs)
      | some width => do
          if cs.length < width then none
          else
            let char ← charOfCode? (← Text.number? 16 (cs.take width))
            some (char, cs.drop width)

/-- A stretch without gaps, whether an escaped line break ended it, and what is left. -/
structure Chunk where
  text : List Char
  joined : Bool
  rest : List Char
  deriving DecidableEq, Repr

def singleChunk : List Char → Chunk
  | [] => ⟨[], false, []⟩
  | '\'' :: '\'' :: cs => let more := singleChunk cs; { more with text := '\'' :: more.text }
  | c :: cs =>
      if c == '\'' || isWhite c || isBreak c then ⟨[], false, c :: cs⟩
      else let more := singleChunk cs; { more with text := c :: more.text }

def doubleChunk? : Nat → List Char → Option Chunk
  | 0, _ => none
  | _ + 1, [] => some ⟨[], false, []⟩
  | limit + 1, c :: cs =>
      if c == '"' || isWhite c || isBreak c then some ⟨[], false, c :: cs⟩
      else if c == '\\' then
        if nextIs isBreak cs then some ⟨[], true, cs⟩
        else do
          let (char, rest) ← escape? cs
          let more ← doubleChunk? limit rest
          some { more with text := char :: more.text }
      else do
        let more ← doubleChunk? limit cs
        some { more with text := c :: more.text }

def chunk? (quote : Char) (cs : List Char) : Option Chunk :=
  if quote = '"' then doubleChunk? (cs.length + 1) cs else some (singleChunk cs)

/-- Chunks and gaps in turn up to the closing quote, at most `limit` of each. -/
def readChunks (quote : Char) : Nat → Cursor → Option (List Char × Cursor)
  | 0, _ => none
  | limit + 1, c => do
      if c.atDocumentMarker || c.rest.isEmpty then none
      else
        let chunk ← chunk? quote c.rest
        let c := c.within chunk.rest
        let c := if chunk.joined then c.skipBreak else c
        if nextIs (· == quote) c.rest then some (chunk.text, c.skip 1)
        else
          let (gap, c) ← c.gap? 0 chunk.joined
          let (more, c) ← readChunks quote limit c
          some (chunk.text ++ (if chunk.joined then gap.breaks else gap.text) ++ more, c)

/-- The text between quotes, from the position of the opening one. -/
def read? (quote : Char) (c : Cursor) : Option (List Char × Cursor) :=
  readChunks quote (c.rest.length + 1) (c.skip 1)

end Throttle.Yaml.Quoted

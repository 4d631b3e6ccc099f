import Throttle.Yaml.Scalar.Gap

/-!
Plain scalars: text without quotes.

A plain scalar ends before a colon that a gap follows, before a comment, before a document marker,
in block context before a line that is not indented far enough, and in flow context before a comma
or bracket. Lines fold.
-/

namespace Throttle.Yaml.Plain

def isFlowIndicator (c : Char) : Bool :=
  c == ',' || c == '[' || c == ']' || c == '{' || c == '}'

/-- A stretch without gaps. In flow context a colon right before an indicator is refused. -/
def chunk? (inFlow : Bool) : List Char → Option (List Char × List Char)
  | [] => some ([], [])
  | c :: cs =>
      if isWhite c || isBreak c then some ([], c :: cs)
      else if inFlow && c == ':' && nextIs (fun d => isFlowIndicator d || d == '?') cs then none
      else if c == ':' && atGap cs then some ([], c :: cs)
      else if inFlow && isFlowIndicator c then some ([], c :: cs)
      else do
        let (text, rest) ← chunk? inFlow cs
        some (c :: text, rest)

/-- The text of a plain scalar, whether it was followed by a line break, and the position after. -/
structure Reading where
  text : List Char
  endsLine : Bool
  cursor : Cursor
  deriving DecidableEq, Repr

/-- Chunks and gaps in turn, at most `limit` of each; `indent` is the column a line must reach. -/
def readChunks (inFlow : Bool) (indent : Nat) : Nat → Gap → Cursor → Option Reading
  | 0, _, _ => none
  | limit + 1, before, c => do
      let stop := fun c => Reading.mk [] (!before.breaks.isEmpty) c
      if c.atDocumentMarker || nextIs (· == '#') c.rest then some (stop c)
      else
        let (text, rest) ← chunk? inFlow c.rest
        if text.isEmpty then some (stop c)
        else
          let (after, next) ← (c.within rest).gap? indent false
          if !inFlow && next.column < indent || after.whites.isEmpty && after.breaks.isEmpty then
            some ⟨before.text ++ text, !after.breaks.isEmpty, next⟩
          else
            let more ← readChunks inFlow indent limit after next
            some { more with text := before.text ++ text ++ more.text }

def read? (inFlow : Bool) (indent : Nat) (c : Cursor) : Option Reading :=
  readChunks inFlow indent (c.rest.length + 1) ⟨[], []⟩ c

end Throttle.Yaml.Plain

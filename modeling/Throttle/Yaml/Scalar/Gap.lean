import Throttle.Yaml.Cursor

/-!
White space inside a scalar that may run over several lines.

White space within a line is kept. Line breaks fold: one line feed becomes a space, and of several
the first is dropped; other separators are kept as they are. White space around breaks is lost.
-/

namespace Throttle.Yaml

structure Gap where
  whites : List Char
  breaks : List Char
  deriving DecidableEq, Repr

namespace Gap

/-- What a gap stands for in the text of the scalar. -/
def text (g : Gap) : List Char :=
  match g.breaks with
  | [] => g.whites
  | ['\n'] => [' ']
  | '\n' :: more => more
  | breaks => breaks

/--
The gap at a position. `leading` says that a line has just begun; there, a tab before the column
`indent` is refused.
-/
def read (indent : Nat) (leading : Bool) (p : Place) : List Char → Option (Gap × Cursor)
  | [] => some (⟨[], []⟩, ⟨p, []⟩)
  | c :: cs =>
      if isBreak c then do
        let (g, cursor) ← read indent true p.nextLine cs
        some (⟨[], c :: g.breaks⟩, cursor)
      else if isWhite c then
        if leading && p.column < indent && c == '\t' then none
        else do
          let (g, cursor) ← read indent leading (p.after c) cs
          some (⟨if leading || !g.breaks.isEmpty then [] else c :: g.whites, g.breaks⟩, cursor)
      else some (⟨[], []⟩, ⟨p, c :: cs⟩)

end Gap

def Cursor.gap? (c : Cursor) (indent : Nat) (leading : Bool) : Option (Gap × Cursor) :=
  Gap.read indent leading c.toPlace c.rest

end Throttle.Yaml

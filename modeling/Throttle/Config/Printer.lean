import Throttle.Config

/-!
Configurations as YAML text in block style.

Optional parts that are absent are left out, modes are always written, and the entries of a list
stand in the column of its key. An empty configuration is an empty flow mapping.
-/

namespace Throttle.Config

def number (n : UInt64) : List Char := Nat.toDigits 10 n.toNat

def line (indent : Nat) (key : String) (value : List Char) : List Char :=
  List.replicate indent ' ' ++ key.toList ++ [':', ' '] ++ value ++ ['\n']

/-- The lines of a window without the indentation of the first. -/
def Window.lines (indent : Nat) (w : Window) : List Char :=
  line 0 "window" w.span.toPhrase.toList ++ line indent "allowance" (number w.allowance)
    ++ match w.estimated with
      | some n => line indent "estimated" (number n)
      | none => []

def Window.render (w : Window) : String := .ofList (w.lines 0)

def Rule.lines (r : Rule) : List Char :=
  line 2 "mode" (modeName r.mode).toList
    ++ match r.windows with
      | [] => line 2 "rules" ['[', ']']
      | windows =>
          "  rules:\n".toList ++ windows.flatMap fun w => "  - ".toList ++ w.lines 4

def Limiter.lines (l : Limiter) : List Char :=
  line 2 "max" (number l.max) ++ line 2 "mode" (limitModeName l.mode).toList

def lines (c : Config) : List Char :=
  (match c.rule with
    | some r => "rule:\n".toList ++ r.lines
    | none => [])
    ++ match c.limiter with
      | some l => "global:\n".toList ++ l.lines
      | none => []

def render (c : Config) : String :=
  if c.rule.isNone && c.limiter.isNone then "\x7b\x7d\n" else .ofList c.lines

end Throttle.Config

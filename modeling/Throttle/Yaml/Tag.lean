/-!
Tags of nodes.

A tag is kept as bytes, because an escape in it may write any byte at all; from a zero byte on,
nothing counts. A tag that starts with an exclamation mark is local and gives a name; the tags of
the core schema share a start of their own.
-/

namespace Throttle.Yaml

structure Tag where
  bytes : List UInt8
  deriving DecidableEq, Repr

namespace Tag

def ofBytes (bs : List UInt8) : Tag := ⟨bs.takeWhile (· ≠ 0)⟩

def ofString (s : String) : Tag := .ofBytes (s.toList.flatMap String.utf8EncodeChar)

def append (start rest : Tag) : Tag := ⟨start.bytes ++ rest.bytes⟩

/-- A lone exclamation mark. -/
def nonspecific : Tag := .ofString "!"

/-- The start of the core schema's tags. -/
def coreStart : Tag := .ofString "tag:yaml.org,2002:"

/-- The tag of a type of the core schema. -/
def core (name : String) : Tag := coreStart.append (.ofString name)

/-- The name that a local tag gives. Bytes that are no text name nothing. -/
def localName? (t : Tag) : Option String :=
  match t.bytes with
  | [] => none
  | mark :: name =>
      if mark = '!'.toUInt8 then
        String.fromUTF8? ⟨(if name.isEmpty then [mark] else name).toArray⟩
      else none

end Tag

end Throttle.Yaml

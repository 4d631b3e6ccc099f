import Throttle.Text.Digit
import Throttle.Yaml.Cursor
import Throttle.Yaml.Token

/-!
Anchors, aliases, tags and directives: the tokens that name something about a node or a document.
-/

namespace Throttle.Yaml

namespace Uri

/-- One byte written as a percent sign and two hexadecimal digits. -/
def byte? : List Char → Option (UInt8 × List Char)
  | '%' :: a :: b :: cs => do
      some (.ofNat ((← Text.hexValue? a) * 16 + (← Text.hexValue? b)), cs)
  | _ => none

/-- `n` bytes of the form that continues a character in UTF-8. -/
def continuation? : Nat → List Char → Option (List UInt8 × List Char)
  | 0, cs => some ([], cs)
  | n + 1, cs => do
      let (b, cs) ← byte? cs
      if b / 64 = 2 then
        let (more, cs) ← continuation? n cs
        some (b :: more, cs)
      else none

/-- How many bytes follow a first byte in UTF-8. -/
def continuationCount? (b : UInt8) : Option Nat :=
  if b < 0x80 then some 0
  else if b / 32 = 6 then some 1
  else if b / 16 = 14 then some 2
  else if b / 8 = 30 then some 3
  else none

/-- Escaped bytes in the shape of one character; whether there is such a character is not asked. -/
def escape? (cs : List Char) : Option (List UInt8 × List Char) := do
  let (b, cs) ← byte? cs
  let (more, cs) ← continuation? (← continuationCount? b) cs
  some (b :: more, cs)

def isUriChar (brackets : Bool) (c : Char) : Bool :=
  isWordChar c || ";/?:@&=+$.!~*'()".toList.contains c || (brackets && ",[]".toList.contains c)

/-- The longest text of URI characters and escapes; commas and brackets count where allowed. -/
def read? (brackets : Bool) : Nat → List Char → Option (List UInt8 × List Char)
  | 0, _ => none
  | _ + 1, [] => some ([], [])
  | limit + 1, c :: cs =>
      if c == '%' then do
        let (bytes, rest) ← escape? (c :: cs)
        let (more, rest) ← read? brackets limit rest
        some (bytes ++ more, rest)
      else if isUriChar brackets c then do
        let (more, rest) ← read? brackets limit cs
        some (c.toUInt8 :: more, rest)
      else some ([], c :: cs)

end Uri

namespace Cursor

def uri? (c : Cursor) (brackets : Bool) : Option (List UInt8 × Cursor) := do
  let (bytes, rest) ← Uri.read? brackets (c.rest.length + 1) c.rest
  some (bytes, c.within rest)

/-- The name of an anchor or alias, from its indicator on. -/
def name? (c : Cursor) : Option (String × Cursor) :=
  let (name, c) := (c.skip 1).span isWordChar
  if name.isEmpty then none
  else if atGap c.rest || nextIs (fun d => "?:,]\x7d%@`".toList.contains d) c.rest then
    some (.ofList name, c)
  else none

/-- A tag handle: an exclamation mark, and word characters that another one may close. -/
def tagHandle? (c : Cursor) : Option (List Char × Cursor) :=
  if nextIs (· == '!') c.rest then
    let (word, c) := (c.skip 1).span isWordChar
    if nextIs (· == '!') c.rest then some ('!' :: word ++ ['!'], c.skip 1)
    else some ('!' :: word, c)
  else none

/-- The two parts of a tag, from its exclamation mark on. A complete tag has no handle. -/
def tagParts? (c : Cursor) : Option (String × Tag × Cursor) :=
  if nextIs (· == '<') (c.rest.drop 1) then do
    let (uri, c) ← (c.skip 2).uri? true
    if uri.isEmpty || !nextIs (· == '>') c.rest then none
    else some ("", .ofBytes uri, c.skip 1)
  else do
    let (handle, c) ← c.tagHandle?
    let (uri, c) ← c.uri? false
    if 1 < handle.length && handle.getLast? == some '!' then
      if uri.isEmpty then none else some (.ofList handle, .ofBytes uri, c)
    else
      let suffix := Tag.ofBytes ((handle.drop 1).map Char.toUInt8 ++ uri)
      some (if suffix.bytes.isEmpty then ("", .nonspecific, c) else ("!", suffix, c))

def tag? (c : Cursor) (inFlow : Bool) : Option (Token × Cursor) := do
  let (handle, suffix, c) ← c.tagParts?
  if atGap c.rest || (inFlow && nextIs (· == ',') c.rest) then some (.tag handle suffix, c)
  else none

def versionNumber? (c : Cursor) : Option (Nat × Cursor) :=
  let (digits, c) := c.span Char.isDigit
  if digits.isEmpty || 9 < digits.length then none else some (Nat.ofDigitChars 10 digits 0, c)

def versionDirective? (c : Cursor) : Option (Token × Cursor) := do
  let (major, c) ← c.skipWhites.versionNumber?
  if nextIs (· == '.') c.rest then
    let (minor, c) ← (c.skip 1).versionNumber?
    some (.versionDirective major minor, c)
  else none

def tagDirective? (c : Cursor) : Option (Token × Cursor) := do
  let (handle, c) ← c.skipWhites.tagHandle?
  if 1 < handle.length && handle.getLast? != some '!' then none
  else if !nextIs isWhite c.rest then none
  else
    let (uri, c) ← c.skipWhites.uri? true
    if uri.isEmpty || !atGap c.rest then none
    else some (.tagDirective (.ofList handle) (.ofBytes uri), c)

/-- A directive and the line it stands on, from its percent sign on. -/
def directive? (c : Cursor) : Option (Token × Cursor) := do
  let (name, c) := (c.skip 1).span isWordChar
  let (token, c) ←
    if !atGap c.rest then none
    else if name = ['Y', 'A', 'M', 'L'] then c.versionDirective?
    else if name = ['T', 'A', 'G'] then c.tagDirective?
    else none
  some (token, ← c.endLine?)

end Cursor

end Throttle.Yaml

/-
# Reading a text by offsets

The same rules can be followed with the whole text at hand and an offset that says how much of it
has been read.  Places are not moved along then: the number of the line is kept, and the offset of
the last line feed, and a column is the distance from there.

Nothing in this says that an offset is one of the text, or that the line feed does not stand behind
the character whose column is asked for.  A step that takes a character or a slice which the text
does not have, or a distance which is negative, gives no result here.
-/
import Reckon.Token.Lexer

namespace Reckon

/-- How far a text has been read. -/
structure Cursor where
  /-- The number of characters that have been read. -/
  index : Nat
  /-- The line of the next character. -/
  line : Nat
  /-- The offset of the last line feed that has been read. -/
  lastFeed : Option Nat
deriving DecidableEq, Repr

namespace Cursor

/-- The beginning of a text. -/
def start : Cursor := ⟨0, 1, none⟩

/-- The cursor at another offset in the same line. -/
def jump (k : Cursor) (i : Nat) : Cursor := { k with index := i }

/-- The cursor after a line feed at an offset has been counted. -/
def feed (k : Cursor) (offset : Nat) : Cursor :=
  { k with line := k.line + 1, lastFeed := some offset }

/-- The place of an offset in the line of the cursor. -/
def place? (k : Cursor) (offset : Nat) : Option Position :=
  match k.lastFeed with
  | some feed => if feed ≤ offset then some ⟨k.line, offset - feed⟩ else none
  | none => some ⟨k.line, offset + 1⟩

/-! ## Parts of a text -/

/-- The characters between two offsets. -/
def slice? (cs : List Char) (first last : Nat) : Option (List Char) :=
  if first ≤ last ∧ last ≤ cs.length then some ((cs.drop first).take (last - first)) else none

/-- The first offset from `i` on that is not that of a character of a class. -/
def runEnd (cs : List Char) (p : Char → Bool) (i : Nat) : Nat :=
  match h : cs[i]? with
  | some c => if p c then runEnd cs p (i + 1) else i
  | none => i
termination_by cs.length - i
decreasing_by
  have := (List.getElem?_eq_some_iff.mp h).1
  omega

/-- The offset behind the first `*/` from `i` on, or the end of the text. -/
def commentEnd? (cs : List Char) (i : Nat) : Option Nat :=
  if i + 1 < cs.length then
    match cs[i]?, cs[i + 1]? with
    | some c, some d => if c = '*' ∧ d = '/' then some (i + 2) else commentEnd? cs (i + 1)
    | _, _ => none
  else some cs.length
termination_by cs.length - i

/-- Counts the line feeds between two offsets. -/
def feeds? (cs : List Char) (k : Cursor) (first last : Nat) : Option Cursor :=
  if first < last then
    match cs[first]? with
    | some c => feeds? cs (if c = '\n' then k.feed first else k) (first + 1) last
    | none => none
  else some k
termination_by last - first

/-- The text has two characters one after the other at an offset. -/
def hasPair (cs : List Char) (i : Nat) (c d : Char) : Bool := cs[i]? = some c && cs[i + 1]? = some d

/-! ## Tokens -/

/-- A block comment. -/
def block? (cs : List Char) (k : Cursor) : Option (Token × Cursor) := do
  let position ← k.place? k.index
  let last ← commentEnd? cs (k.index + 2)
  let k' ← feeds? cs k k.index last
  let text ← slice? cs k.index last
  return (⟨.comment, String.ofList text, position⟩, k'.jump last)

/-- A token that is as long as its characters are of a class.  Its place is asked for when it has
been read. -/
def run? (cs : List Char) (k : Cursor) (p : Char → Bool) (kind : List Char → TokenKind) :
    Option (Token × Cursor) := do
  let k' := k.jump (runEnd cs p k.index)
  let text ← slice? cs k.index k'.index
  let position ← k'.place? k.index
  return (⟨kind text, String.ofList text, position⟩, k')

/-- The kind of a word, by its letters. -/
def word (letters : List Char) : TokenKind :=
  if letters = ['p', 'r', 'i', 'n', 't'] then .print else .name

/-- Whether a point stands before the next blank or semicolon. -/
def pointAhead? (cs : List Char) (k : Cursor) : Option Bool := do
  let ahead ← slice? cs k.index cs.length
  return (ahead.takeWhile fun c => !Text.isBlank c && c ≠ ';').any (· = '.')

/-- What is found at a character when one of the rules applies to it. -/
def token? (cs : List Char) (k : Cursor) (c : Char) : Option (Option (Token × Cursor)) :=
  if hasPair cs k.index '/' '*' then some (block? cs k)
  else if hasPair cs k.index '/' '/' then some (run? cs k (· ≠ '\n') fun _ => .comment)
  else if Text.isAlphabetic c then some (run? cs k Text.isAlphabetic word)
  else if isPointOrDigit c then
    some ((pointAhead? cs k).bind fun point =>
      if point then run? cs k isPointOrDigit fun _ => .float
      else run? cs k Char.isDigit fun _ => .integer)
  else
    (symbol? c).map fun kind =>
      (k.place? k.index).map fun position =>
        (⟨kind, String.singleton c, position⟩, k.jump (k.index + 1))

/-- The next token, or the end marker, and how far the text has been read then. -/
def next? (cs : List Char) (k : Cursor) : Option (Token × Cursor) :=
  match _h : cs[k.index]? with
  | none => (k.place? cs.length).map fun position => (.endAt position, k)
  | some c =>
    match token? cs k c with
    | some found => found
    | none => next? cs ((if c = '\n' then k.feed k.index else k).jump (k.index + 1))
termination_by cs.length - k.index
decreasing_by
  have := (List.getElem?_eq_some_iff.mp _h).1
  simp only [jump]
  omega

/-- What comes of asking for a token `n` times in a row. -/
def take? (cs : List Char) : Nat → Cursor → Option (List Token × Cursor)
  | 0, k => some ([], k)
  | n + 1, k => do
    let (t, k') ← next? cs k
    let (ts, k'') ← take? cs n k'
    return (t :: ts, k'')

/-- All tokens up to the end marker, when this can be found by asking `n` times or less often. -/
def collect? (cs : List Char) : Nat → Cursor → Option (List Token)
  | 0, _ => none
  | n + 1, k => do
    let (t, k') ← next? cs k
    if t.kind = .eof then return [t]
    let ts ← collect? cs n k'
    return t :: ts

end Cursor

end Reckon

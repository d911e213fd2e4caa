/-
# Bounded output

Output goes to a sink, which keeps what was written to it.  A sink may have room for a certain
number of characters only; of a text that does not fit it keeps the part that does, and the write
fails.  All that programs print is ASCII, so that characters and bytes are the same here.
-/

namespace Reckon

/-- What a sink without room makes of a write. -/
inductive Refusal where
  /-- It reports that it is full. -/
  | full
  /-- It takes nothing and reports nothing, and the writer gives up. -/
  | stalled
deriving DecidableEq, Repr, Inhabited

/-- The text of a refusal. -/
def Refusal.message : Refusal → String
  | full => "sink full"
  | stalled => "failed to write whole buffer"

/-- A place that output is written to. -/
structure Sink where
  /-- All that has been written. -/
  written : String
  /-- How many more characters there is room for, if there is a limit. -/
  room : Option Nat
  /-- What happens when there is no more room. -/
  refusal : Refusal
deriving DecidableEq, Repr

namespace Sink

/-- An empty sink without a limit. -/
def unlimited : Sink := ⟨"", none, .full⟩

/-- An empty sink with room for `n` characters. -/
def limited (n : Nat) (refusal : Refusal) : Sink := ⟨"", some n, refusal⟩

/-- Writes a text, or the part of it that there is room for. -/
def write (s : Sink) (text : String) : Except Refusal Unit × Sink :=
  match s.room with
  | none => (.ok (), { s with written := s.written ++ text })
  | some n =>
    if text.length ≤ n then
      (.ok (), { s with written := s.written ++ text, room := some (n - text.length) })
    else
      let fitting := String.ofList (text.toList.take n)
      (.error s.refusal, { s with written := s.written ++ fitting, room := some 0 })

@[simp] theorem write_unlimited (written text : String) (refusal : Refusal) :
    write ⟨written, none, refusal⟩ text = (.ok (), ⟨written ++ text, none, refusal⟩) := rfl

end Sink

end Reckon

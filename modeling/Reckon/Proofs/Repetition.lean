/-
# Readings in a row

A walk over the statements of a token list can be repeated from the index at which it stops,
`Walk.take`.  The list may go on behind its first end marker, and nothing in a walk looks for the
first one.  Here it is shown that a repeated walk never gets behind it and that the tokens there
change nothing.

One walk from an index on gives what the parser gives for the tokens up to the next end marker, and
what the parser leaves is ahead of the index that the walk leaves, `Walk.EndsAt.next_agrees`.  So
the next walk goes on where the parser goes on, `Walk.EndsAt.take_agrees`, and what is known of
readings in a row, `Parser.next_after`, is known of walks.

The main result is `Walk.take_settles`.
-/
import Reckon.Proofs.Progress

namespace Reckon

namespace Walk

variable {tokens : List Token} {m i depth : ℕ} {e : Token} {p : Parser}

/-- At the beginning of a token list the tokens before the first end marker are ahead. -/
lemma exists_beginning (ts : List Token) :
    ∃ e : Token, EndsAt (terminated ts) (Parser.ofTokens ts).ahead.length e ∧
      (Parser.ofTokens ts).stop = e.position ∧
      Ahead (terminated ts) (Parser.ofTokens ts).ahead.length 0 (Parser.ofTokens ts).ahead := by
  have hlast := getLast?_terminated ts
  have hpos : 0 < (terminated ts).length := by
    obtain ⟨u, hu, -⟩ := Option.map_eq_some_iff.mp hlast
    exact List.length_pos_of_mem (List.mem_of_getLast? hu)
  have hthrough : throughEnd (terminated ts) = throughEnd ts := by
    have hterminated : terminated (terminated ts) = terminated ts := if_pos hlast
    rw [throughEnd, hterminated, throughEnd]
  have hindex : Parser.ofIndex (terminated ts) 0 = Parser.ofTokens ts :=
    Parser.ofTokens_congr hthrough
  obtain ⟨m, e, hend, hstop, hahead⟩ := exists_ahead hlast hpos
  rw [hindex] at hstop hahead
  obtain rfl : (Parser.ofTokens ts).ahead.length = m := (Nat.zero_add _).symm.trans hahead.index
  exact ⟨e, hend, hstop, hahead⟩

section agreement

variable (hend : EndsAt tokens m e) (hstop : p.stop = e.position)

include hend hstop

/-- A walk over statements gives what one reading gives, and leaves the index of what it leaves. -/
lemma EndsAt.next_agrees (h : Ahead tokens m i p.ahead) (hdepth : 6 * p.ahead.length < depth) :
    ∃ j, (statements tokens [] depth).result i = some (p.next.1, j) ∧
      Ahead tokens m j p.next.2.ahead := by
  have hagree := hend.statements_agree [] h hdepth
  rw [← hstop] at hagree
  exact hagree

/-- Walks in a row give what readings in a row give, and leave the index of what these leave. -/
lemma EndsAt.take_agrees (n : ℕ) (h : Ahead tokens m i p.ahead)
    (hdepth : 6 * p.ahead.length < depth) :
    ∃ j, take tokens depth n i = some (p.take n, j) ∧ Ahead tokens m j (p.after n).ahead := by
  induction n generalizing i p with
  | zero => exact ⟨i, rfl, h⟩
  | succ n ih =>
    obtain ⟨j, hj, hahead⟩ := hend.next_agrees hstop h hdepth
    -- no reading goes back, and so the depth is enough for the next one
    have hlength := (Parser.ahead_next p).length_le
    obtain ⟨k, hk, hrest⟩ := ih (p := p.next.2) hstop hahead (by omega)
    refine ⟨k, ?_, hrest⟩
    rw [take, hj]
    simp only [Option.bind_eq_bind, Option.bind_some, hk]
    rfl

end agreement

/-- **Walks in a row are readings in a row.**  They leave the index of the tokens that the readings
have left before the first end marker. -/
theorem take_eq (ts : List Token) (n : ℕ) (hdepth : 6 * (terminated ts).length ≤ depth) :
    take (terminated ts) depth n 0 = some ((Parser.ofTokens ts).take n,
      (Parser.ofTokens ts).ahead.length - ((Parser.ofTokens ts).after n).ahead.length) := by
  obtain ⟨e, hend, hstop, hahead⟩ := exists_beginning ts
  have henough := hend.depth_of_length hahead hdepth
  obtain ⟨j, hj, hrest⟩ := hend.take_agrees hstop n hahead (show _ < depth by omega)
  rw [hj, ← hrest.eq_sub]

/-- A walk from the first token on reads the program, and stops before the first end marker where
the parser stops. -/
theorem program_of_walk (ts : List Token) (hdepth : 6 * (terminated ts).length ≤ depth) :
    (statements (terminated ts) [] depth).result 0 = some (Program.ofTokens ts,
      (Parser.ofTokens ts).ahead.length - (Parser.ofTokens ts).next.2.ahead.length) := by
  obtain ⟨e, hend, hstop, hahead⟩ := exists_beginning ts
  have henough := hend.depth_of_length hahead hdepth
  obtain ⟨j, hj, hrest⟩ := hend.next_agrees hstop hahead (show _ < depth by omega)
  rw [hj, ← hrest.eq_sub]
  rfl

/-- **Reading again and again.**  Let a token list have an end marker behind its last token, unless
the last token is one, and let the depth be at least six times the number of tokens.  Then walks in
a row from the first token on have a result, however many they are, which is that of readings in a
row, and they leave an index that is not behind the first end marker.

* The answers and the index depend only on the tokens up to the first end marker.
* Behind a program all answers are empty programs.
* If there are `f` tokens before the first end marker, then the answer number `f` and all that come
  behind it are the same, where the first one is number zero. -/
theorem take_settles (ts : List Token) (n : ℕ) (hdepth : 6 * (terminated ts).length ≤ depth) :
    ∃ found i, take (terminated ts) depth n 0 = some (found, i) ∧
      found = (Parser.ofTokens ts).take n ∧ found.length = n ∧ i ≤ ts.findIdx (·.kind = .eof) ∧
      (∀ us depth', throughEnd us = throughEnd ts → 6 * (terminated us).length ≤ depth' →
        take (terminated us) depth' n 0 = some (found, i)) ∧
      (∀ j k program, found[j]? = some (.ok program) → j < k → k < n →
        found[k]? = some (.ok ⟨[]⟩)) ∧
      ∀ k, ts.findIdx (·.kind = .eof) ≤ k → k < n →
        found[k]? = found[ts.findIdx (·.kind = .eof)]? := by
  refine ⟨_, _, take_eq ts n hdepth, rfl, Parser.length_take n _, ?_, ?_, ?_, ?_⟩
  · rw [← Parser.length_ahead]
    exact Nat.sub_le _ _
  · intro us depth' hus hdepth'
    rw [take_eq us n hdepth', Parser.ofTokens_congr hus]
  · exact fun j k program hj hjk hk => Parser.getElem?_take_of_ok hj hjk hk
  · exact fun k hle hk => Parser.getElem?_take_of_le (Parser.length_ahead ts).le hle hk

/-- In `print 2147483648 ;` the number is too large.  Reading goes on behind it and then stays at
the semicolon, whatever there is behind the end marker. -/
theorem take_settles_numeral :
    let us : List Token := [⟨.print, "print", ⟨1, 1⟩⟩, ⟨.integer, "2147483648", ⟨1, 7⟩⟩,
      ⟨.semi, ";", ⟨1, 18⟩⟩, ⟨.eof, "EOF", ⟨1, 19⟩⟩]
    let ts := us ++ [⟨.print, "print", ⟨2, 1⟩⟩]
    let semi : Except ParseError Program := .error ⟨.unexpectedToken .print .semi, ⟨1, 18⟩⟩
    let found := [.error ⟨.invalidInteger "2147483648", ⟨1, 7⟩⟩, semi, semi, semi, semi]
    6 * (terminated ts).length ≤ 36 ∧ take (terminated ts) 36 5 0 = some (found, 2) ∧
      throughEnd us = throughEnd ts ∧ take (terminated us) 24 5 0 = some (found, 2) ∧
      ts.findIdx (·.kind = .eof) = 3 ∧ found[4]? = found[3]? := by
  intro us ts semi found
  have hdepth : 6 * (terminated ts).length ≤ 36 := by decide
  have hthrough : throughEnd us = throughEnd ts := by decide
  have htake : take (terminated ts) 36 5 0 = some (found, 2) := rfl
  obtain ⟨found', i, htake', -, -, -, hsame, -, hsettled⟩ := take_settles ts 5 hdepth
  obtain ⟨rfl, rfl⟩ := Prod.mk.inj (Option.some.inj (htake.symm.trans htake'))
  exact ⟨hdepth, htake, hthrough, hsame us 24 hthrough (by decide), rfl,
    hsettled 4 (by decide) (by decide)⟩

end Walk

end Reckon

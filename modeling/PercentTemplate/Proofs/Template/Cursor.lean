import PercentTemplate.Proofs.Text.Run
import PercentTemplate.Template.Cursor.Plain
import PercentTemplate.Template.Cursor.Rest

/-!
# Reading with a cursor

`Cursor.Reads c cs d` says that the cursor `c` becomes the cursor `d` by consuming exactly the
characters `cs`. Readings compose, the slice between their ends is what was read, and every step
that a grammar is read with has a lemma that says which reading it is and what it gives back.
-/

namespace PercentTemplate

namespace Cursor

open Text

/-- The cursor `d` is the cursor `c` behind the characters `cs`. -/
structure Reads (c : Cursor) (cs : List Char) (d : Cursor) : Prop where
  /-- The text stays. -/
  text_eq : d.text = c.text
  /-- The mark stays. -/
  marked_eq : d.marked = c.marked
  /-- A look-ahead has been made at the position. -/
  offset_eq : d.offset = d.position
  /-- The position has moved by what was read. -/
  position_eq : d.position = c.position + cs.length
  /-- What was read came next. -/
  rest_eq : c.rest = cs ++ d.rest

namespace Reads

variable {c d e : Cursor} {cs ds rest : List Char}

theorem trans (h : c.Reads cs d) (h' : d.Reads ds e) : c.Reads (cs ++ ds) e where
  text_eq := h'.text_eq.trans h.text_eq
  marked_eq := h'.marked_eq.trans h.marked_eq
  offset_eq := h'.offset_eq
  position_eq := by rw [h'.position_eq, h.position_eq, List.length_append, Nat.add_assoc]
  rest_eq := by rw [h.rest_eq, h'.rest_eq, List.append_assoc]

/-- A reading leaves what stood behind the characters read. -/
theorem rest_of (h : c.Reads cs d) (hrest : c.rest = cs ++ rest) : d.rest = rest :=
  List.append_cancel_left (h.rest_eq.symm.trans hrest)

theorem rest_cons {x : Char} (h : c.Reads [x] d) (hrest : c.rest = x :: rest) : d.rest = rest :=
  h.rest_of hrest

theorem isSound (h : c.Reads cs d) (hc : c.IsSound) : d.IsSound where
  offset_eq := h.offset_eq
  position_le := by
    have hlen := congrArg List.length h.rest_eq
    rw [length_rest, remaining, hc.offset_eq, List.length_append] at hlen
    have hle := hc.position_le
    rw [h.position_eq, h.text_eq]
    omega
  marked_le := by
    intro m hm
    have hle := hc.marked_le m (h.marked_eq ▸ hm)
    have hposition := h.position_eq
    omega

end Reads

/-- The cursor `d` is the cursor `c` behind the characters `cs`, whatever they have marked. -/
structure Passes (c : Cursor) (cs : List Char) (d : Cursor) : Prop where
  /-- The text stays. -/
  text_eq : d.text = c.text
  /-- The cursor behind the characters is sound. -/
  isSound : d.IsSound
  /-- The position has moved by what was passed. -/
  position_eq : d.position = c.position + cs.length
  /-- What was passed came next. -/
  rest_eq : c.rest = cs ++ d.rest

variable {c d : Cursor}

theorem Reads.passes {cs : List Char} (h : c.Reads cs d) (hc : c.IsSound) : c.Passes cs d :=
  ⟨h.text_eq, h.isSound hc, h.position_eq, h.rest_eq⟩

/-- The slice between two places is what stands between them. -/
theorem Passes.slice_eq {cs : List Char} (h : c.Passes cs d) (hc : c.IsSound) :
    d.slice c.position d.position = String.ofList cs := by
  have hrest : c.text.toList.drop c.position = cs ++ d.rest := by
    rw [← h.rest_eq, rest, hc.offset_eq]
  have hcount : d.position - c.position = cs.length := by
    rw [h.position_eq]
    omega
  rw [slice, h.text_eq, Array.toList_extract, List.extract_eq_take_drop, hcount, hrest,
    List.take_left]

theorem reads_peek (h : c.offset = c.position) : c.Reads [] c.peek.2 := by
  refine ⟨rfl, rfl, ?_, rfl, rfl⟩
  change c.offset = c.position
  exact h

/-- What is read behind a mark at the position passes the same characters. -/
theorem Reads.passes_of_mark {cs : List Char} (h : c.peek.2.mark.Reads cs d) (hc : c.IsSound) :
    c.Passes cs d := by
  have hmark : c.peek.2.mark.IsSound := by
    refine ⟨(reads_peek hc.offset_eq).offset_eq, hc.position_le, ?_⟩
    intro m hm
    cases hm
    exact Nat.le_refl _
  exact ⟨h.text_eq, h.isSound hmark, h.position_eq, h.rest_eq⟩

theorem reads_advance (h : c.offset = c.position) {x : Char} {rest : List Char}
    (hrest : c.rest = x :: rest) : c.Reads [x] c.advance := by
  have hx : c.text[c.offset]? = some x := by
    have hpeek := c.peek_fst
    rwa [hrest] at hpeek
  have hadvance : c.advance = { c with position := c.offset + 1, lookahead := none } := by
    simp only [advance, next, hx]
  refine ⟨?_, ?_, ?_, ?_, ?_⟩
  · rw [hadvance]
  · rw [hadvance]
  · rw [hadvance]; rfl
  · rw [hadvance, ← h]; rfl
  · rw [rest_advance, hrest]; rfl

/-- Reading the next character after a look at it. -/
theorem reads_peek_advance (h : c.offset = c.position) {x : Char} {rest : List Char}
    (hrest : c.rest = x :: rest) : c.Reads [x] c.peek.2.advance :=
  (reads_peek h).trans (reads_advance (reads_peek h).offset_eq hrest)

theorem reads_runAux (p : Char → Bool) (done : List Char) (h : c.offset = c.position) :
    c.Reads (c.rest.takeWhile p) (c.runAux p done).2 := by
  fun_induction runAux p done c with
  | case1 done c hx =>
    have hrest : c.rest = [] := List.head?_eq_none_iff.1 (by rw [← peek_fst, hx])
    rw [hrest]
    exact reads_peek h
  | case2 done c x hx hp ih =>
    obtain ⟨rest, hrest⟩ : ∃ rest, c.rest = x :: rest :=
      List.head?_eq_some_iff.1 (by rw [← peek_fst, hx])
    have hstep := reads_peek_advance h hrest
    have hrun := hstep.trans (ih hstep.offset_eq)
    rw [hstep.rest_of hrest] at hrun
    rwa [hrest, List.takeWhile_cons_of_pos hp]
  | case3 done c x hx hp =>
    obtain ⟨rest, hrest⟩ : ∃ rest, c.rest = x :: rest :=
      List.head?_eq_some_iff.1 (by rw [← peek_fst, hx])
    rw [hrest, List.takeWhile_cons_of_neg hp]
    exact reads_peek h

/-- Gathering moves the cursor as a run does. -/
theorem gatherAux_snd (p : Char → Bool) (done : List Char) (c : Cursor) :
    (c.gatherAux p done).2 = (c.runAux p done).2 := by
  fun_induction gatherAux p done c with
  | case1 done c hx =>
    rw [runAux]
    split
    · rfl
    · rename_i hy
      rw [hx] at hy
      cases hy
  | case2 done c x hx hp ih =>
    rw [runAux]
    split
    · rename_i hy
      rw [hx] at hy
      cases hy
    · rename_i y hy
      obtain rfl : x = y := Option.some.inj (hx.symm.trans hy)
      rw [if_pos hp, ih]
  | case3 done c x hx hp =>
    rw [runAux]
    split
    · rfl
    · rename_i y hy
      obtain rfl : x = y := Option.some.inj (hx.symm.trans hy)
      rw [if_neg hp]

/-- At the end nothing is read, and the cursor is put there. -/
theorem next_of_rest_eq_nil (h : c.rest = []) :
    c.next = (none, { c with position := c.text.size, lookahead := none }) := by
  have hnone : c.text[c.offset]? = none := by
    have hpeek := c.peek_fst
    rwa [h] at hpeek
  simp only [next, hnone]

/-! What the steps of a grammar give back and read. -/

section steps

variable {run rest : List Char} {p : Char → Bool} {x : Char}

theorem exists_next (h : c.offset = c.position) (hrest : c.rest = x :: rest) :
    ∃ d, c.next = (some x, d) ∧ c.Reads [x] d := by
  refine ⟨c.advance, ?_, reads_advance h hrest⟩
  have hx : c.next.1 = some x := by rw [next_fst, hrest]; rfl
  exact Prod.ext hx rfl

theorem exists_next_end (h : c.IsSound) (hrest : c.rest = []) :
    ∃ d, c.next = (none, d) ∧ c.Reads [] d := by
  have hsize : c.text.size = c.position := by
    have hlen := c.length_rest
    have hle := h.position_le
    rw [hrest, remaining, h.offset_eq, List.length_nil] at hlen
    omega
  refine ⟨_, next_of_rest_eq_nil hrest, rfl, rfl, rfl, hsize, ?_⟩
  rw [hrest, List.nil_append]
  exact (List.drop_eq_nil_of_le (by simp [offset])).symm

theorem exists_run (h : c.offset = c.position) (hrest : c.rest = run ++ rest)
    (hrun : ∀ y ∈ run, p y = true) (hstop : Stops p rest) :
    ∃ d, c.run p = (run, d) ∧ c.Reads run d := by
  have htake : c.rest.takeWhile p = run := by rw [hrest, takeWhile_run hrun hstop]
  refine ⟨(c.run p).2, Prod.ext ?_ rfl, ?_⟩
  · rw [run_fst, htake]
  · have hreads := reads_runAux p [] h
    rwa [htake] at hreads

theorem reads_skip (h : c.offset = c.position) {n : Nat}
    (hrest : c.rest = List.replicate n x ++ rest) (hstop : Stops (· == x) rest) :
    c.Reads (List.replicate n x) (c.skip x) := by
  obtain ⟨d, hd, hreads⟩ := exists_run h hrest
    (fun y hy => by simp [List.eq_of_mem_replicate hy]) hstop
  rwa [skip, hd]

/-- A run with something behind it is gathered. -/
theorem exists_gather (h : c.offset = c.position) (hrest : c.rest = run ++ rest)
    (hrun : ∀ y ∈ run, p y = true) (hstop : Stops p rest) (hne : rest ≠ []) :
    ∃ d, c.gather p = (some (String.ofList run), d) ∧ c.Reads run d := by
  have hdrop : c.rest.dropWhile p = rest := by rw [hrest, dropWhile_run hrun hstop]
  have htake : c.rest.takeWhile p = run := by rw [hrest, takeWhile_run hrun hstop]
  refine ⟨(c.gather p).2, Prod.ext ?_ rfl, ?_⟩
  · rw [gather_fst, hdrop, if_neg hne, htake]
  · have hreads := reads_runAux p [] h
    rwa [htake, ← gatherAux_snd] at hreads

/-- A run up to the end of the text is consumed and lost. -/
theorem exists_gather_end (h : c.offset = c.position) (hrest : c.rest = run)
    (hrun : ∀ y ∈ run, p y = true) :
    ∃ d, c.gather p = (none, d) ∧ c.Reads run d := by
  have hsplit : c.rest = run ++ [] := by rw [hrest, List.append_nil]
  have hdrop : c.rest.dropWhile p = [] := by
    rw [hsplit, dropWhile_run hrun (stops_nil p)]
  have htake : c.rest.takeWhile p = run := by
    rw [hsplit, takeWhile_run hrun (stops_nil p)]
  refine ⟨(c.gather p).2, Prod.ext ?_ rfl, ?_⟩
  · rw [gather_fst, if_pos hdrop]
  · have hreads := reads_runAux p [] h
    rwa [htake, ← gatherAux_snd] at hreads

theorem exists_consumeIf (h : c.offset = c.position) (hrest : c.rest = x :: rest)
    (hx : p x = true) : ∃ d, c.consumeIf p = (some x, d) ∧ c.Reads [x] d := by
  refine ⟨c.peek.2.advance, ?_, reads_peek_advance h hrest⟩
  rw [consumeIf_eq, hrest]
  simp [hx]

theorem exists_consumeIf_none (h : c.offset = c.position) (hstop : Stops p c.rest) :
    ∃ d, c.consumeIf p = (none, d) ∧ c.Reads [] d := by
  refine ⟨c.peek.2, ?_, reads_peek h⟩
  rw [consumeIf_eq]
  cases hhead : c.rest.head? with
  | none => simp
  | some y => simp [hstop y hhead]

theorem exists_consume (h : c.offset = c.position) (hrest : c.rest = x :: rest) :
    ∃ d, c.consume x = (true, d) ∧ c.Reads [x] d := by
  obtain ⟨d, hd, hreads⟩ := exists_consumeIf (p := (· == x)) h hrest (beq_self_eq_true x)
  exact ⟨d, by simp [consume, hd], hreads⟩

theorem exists_consume_false (h : c.offset = c.position) (hstop : Stops (· == x) c.rest) :
    ∃ d, c.consume x = (false, d) ∧ c.Reads [] d := by
  obtain ⟨d, hd, hreads⟩ := exists_consumeIf_none h hstop
  exact ⟨d, by simp [consume, hd], hreads⟩

end steps

end Cursor

end PercentTemplate

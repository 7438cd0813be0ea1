import PercentTemplate.Proofs.Template.Attempt

/-!
# Reading a placeholder

Reading a placeholder with a cursor follows the rules for attempts, one lemma for every function of
the reader.

Main statements: a cursor in front of an attempt comes to its outcome and consumes what it consumes
(`exists_read`), a refused width is a fault (`read_of_isRefused`), and a text has only one attempt
(`Attempt.unique`).
-/

namespace PercentTemplate.Placeholder

open Text

variable {c : Cursor} {rest : List Char}

theorem exists_readKey (h : c.offset = c.position) {name : List Char} (hname : IsWord name)
    (hrest : c.rest = name ++ ')' :: rest) :
    ∃ d, readKey c = (key (String.ofList name), d) ∧ c.Reads (name ++ [')']) d := by
  have hstop : Stops isKeyChar (')' :: rest) := stops_cons.2 (by decide)
  obtain ⟨d, hd, hcd⟩ := Cursor.exists_gather h hrest hname hstop (List.cons_ne_nil _ _)
  obtain ⟨e, he, hde⟩ := Cursor.exists_consume hcd.offset_eq (hcd.rest_of hrest)
  refine ⟨e, ?_, hcd.trans hde⟩
  simp only [readKey, hd, he]

theorem exists_readKey_open (h : c.offset = c.position) {name : List Char} (hname : IsWord name)
    (hrest : c.rest = name ++ rest) (hstop : Stops (fun x => isKeyChar x || x == ')') rest) :
    ∃ d, readKey c = (malformed true, d) ∧ c.Reads name d := by
  obtain ⟨hchars, hclose⟩ := stops_or.1 hstop
  cases rest with
  | nil =>
    rw [List.append_nil] at hrest
    obtain ⟨d, hd, hcd⟩ := Cursor.exists_gather_end h hrest hname
    refine ⟨d, ?_, hcd⟩
    simp only [readKey, hd]
  | cons x rest =>
    obtain ⟨d, hd, hcd⟩ := Cursor.exists_gather h hrest hname hchars (List.cons_ne_nil _ _)
    rw [← hcd.rest_of hrest] at hclose
    obtain ⟨e, he, hde⟩ := Cursor.exists_consume_false hcd.offset_eq hclose
    refine ⟨e, ?_, by simpa using hcd.trans hde⟩
    simp only [readKey, hd, he]

/-- The spaces in front of a word, the word and the spaces behind it. -/
theorem exists_skip_gather (h : c.offset = c.position) {comma last : Nat} {word : List Char}
    (hword : IsWord word) (hlast : word = [] → last = 0)
    (hrest : c.rest = spaced comma word last ++ rest)
    (hchars : Stops isKeyChar (Directive.spaces last ++ rest)) (hspace : Stops (· == ' ') rest)
    (hne : Directive.spaces last ++ rest ≠ []) :
    ∃ d, (c.skip ' ').gather isKeyChar = (some (String.ofList word), d)
      ∧ c.Reads (spaced comma word last) (d.skip ' ') := by
  have hsplit : c.rest = Directive.spaces comma ++ (word ++ (Directive.spaces last ++ rest)) := by
    rw [hrest]
    simp [spaced]
  have hskip := Cursor.reads_skip h hsplit (stops_word hword hlast hspace)
  obtain ⟨d, hd, hcd⟩ :=
    Cursor.exists_gather hskip.offset_eq (hskip.rest_of hsplit) hword hchars hne
  have hlastskip := Cursor.reads_skip hcd.offset_eq (hcd.rest_of (hskip.rest_of hsplit)) hspace
  exact ⟨d, hd, (hskip.trans hcd).trans hlastskip⟩

theorem exists_readKeyword (side : Side) (width : Nat) (h : c.offset = c.position)
    {comma last : Nat} {word : List Char} (hword : IsWord word) (hlast : word = [] → last = 0)
    (hrest : c.rest = spaced comma word last ++ ')' :: rest) :
    ∃ d, readKeyword side width c = (side.outcome word width, d)
      ∧ c.Reads (spaced comma word last ++ [')']) d := by
  have hchars : Stops isKeyChar (Directive.spaces last ++ ')' :: rest) :=
    stops_spaces (by decide) last (stops_cons.2 (by decide))
  obtain ⟨d, hd, hcd⟩ := exists_skip_gather h hword hlast hrest hchars
    (stops_cons.2 (by decide)) (by simp)
  obtain ⟨e, he, hde⟩ := Cursor.exists_consume hcd.offset_eq (hcd.rest_of hrest)
  refine ⟨e, ?_, hcd.trans hde⟩
  simp only [readKeyword, hd, he, Side.outcome]
  cases side.keyword? (String.ofList word) <;> rfl

theorem exists_readKeyword_open (side : Side) (width : Nat) (h : c.offset = c.position)
    {comma last : Nat} {word : List Char} (hword : IsWord word) (hlast : word = [] → last = 0)
    (hrest : c.rest = spaced comma word last ++ rest)
    (hchars : Stops isKeyChar (Directive.spaces last ++ rest))
    (hstop : Stops (fun x => x == ' ' || x == ')') rest) :
    ∃ d, readKeyword side width c = (malformed false, d)
      ∧ c.Reads (spaced comma word last) d := by
  obtain ⟨hspace, hclose⟩ := stops_or.1 hstop
  by_cases hne : Directive.spaces last ++ rest = []
  · -- The text ends with the word, so nothing has been gathered.
    obtain ⟨hspaces, hend⟩ := List.append_eq_nil_iff.1 hne
    have hwhole : spaced comma word last = Directive.spaces comma ++ word := by
      rw [spaced, hspaces, List.append_nil]
    rw [hend, List.append_nil, hwhole] at hrest
    have hskip := Cursor.reads_skip h hrest
      (by simpa [Directive.spaces] using stops_word hword (fun _ => rfl) (stops_nil _))
    obtain ⟨d, hd, hcd⟩ :=
      Cursor.exists_gather_end hskip.offset_eq (hskip.rest_of hrest) hword
    refine ⟨d, ?_, ?_⟩
    · simp only [readKeyword, hd]
    · rw [hwhole]
      exact hskip.trans hcd
  · obtain ⟨d, hd, hcd⟩ := exists_skip_gather h hword hlast hrest hchars hspace hne
    rw [← hcd.rest_of hrest] at hclose
    obtain ⟨e, he, hde⟩ := Cursor.exists_consume_false hcd.offset_eq hclose
    refine ⟨e, ?_, by simpa using hcd.trans hde⟩
    simp only [readKeyword, hd, he]

theorem exists_readEnd_comma (side : Side) (width : Nat) (h : c.offset = c.position)
    {after : Nat} (hrest : c.rest = Directive.spaces after ++ ',' :: rest) :
    ∃ d, readEnd side width c = readKeyword side width d
      ∧ c.Reads (Directive.spaces after ++ [',']) d ∧ d.rest = rest := by
  have hskip := Cursor.reads_skip h hrest (stops_cons.2 (by decide))
  have hcomma := hskip.rest_of hrest
  obtain ⟨d, hd, hcd⟩ := Cursor.exists_consume hskip.offset_eq hcomma
  refine ⟨d, ?_, hskip.trans hcd, hcd.rest_cons hcomma⟩
  simp only [readEnd, hd]

/-- Reading what follows a width follows the rules for endings. -/
theorem exists_readEnd {side : Side} {width : Nat} (h : c.offset = c.position)
    {used : List Char} {p : Placeholder} (hend : Ending side width used p rest)
    (hrest : c.rest = used ++ rest) :
    ∃ d, readEnd side width c = (p, d) ∧ c.Reads used d := by
  cases hend with
  | openWidth after hstop =>
    obtain ⟨hspacecomma, hclose⟩ := stops_or.1 hstop
    obtain ⟨hspace, hcomma⟩ := stops_or.1 hspacecomma
    have hskip := Cursor.reads_skip h hrest hspace
    rw [← hskip.rest_of hrest] at hcomma hclose
    obtain ⟨d, hd, hcd⟩ := Cursor.exists_consume_false hskip.offset_eq hcomma
    rw [hcd.rest_eq, List.nil_append] at hclose
    obtain ⟨e, he, hde⟩ := Cursor.exists_consume_false hcd.offset_eq hclose
    refine ⟨e, ?_, by simpa [Directive.spaces] using (hskip.trans hcd).trans hde⟩
    simp only [readEnd, hd, he]
  | plain after =>
    have hsplit : c.rest = Directive.spaces after ++ ')' :: rest := by simpa using hrest
    have hskip := Cursor.reads_skip h hsplit (stops_cons.2 (by decide))
    have hclose := hskip.rest_of hsplit
    obtain ⟨d, hd, hcd⟩ := Cursor.exists_consume_false (x := ',') hskip.offset_eq
      (by rw [hclose]; exact stops_cons.2 (by decide))
    obtain ⟨e, he, hde⟩ := Cursor.exists_consume hcd.offset_eq (hcd.rest_eq.symm.trans hclose)
    refine ⟨e, ?_, by simpa [Directive.spaces] using (hskip.trans hcd).trans hde⟩
    simp only [readEnd, hd, he]
  | openWord after comma last hword hlast hchars hstop =>
    obtain ⟨d, hd, hcd, hd_rest⟩ := exists_readEnd_comma side width h (by simpa using hrest)
    obtain ⟨e, he, hde⟩ :=
      exists_readKeyword_open side width hcd.offset_eq hword hlast hd_rest hchars hstop
    exact ⟨e, by rw [hd, he], by simpa using hcd.trans hde⟩
  | word after comma last hword hlast =>
    obtain ⟨d, hd, hcd, hd_rest⟩ := exists_readEnd_comma side width h (by simpa using hrest)
    obtain ⟨e, he, hde⟩ := exists_readKeyword side width hcd.offset_eq hword hlast hd_rest
    exact ⟨e, by rw [hd, he], by simpa using hcd.trans hde⟩

theorem exists_readWidth (h : c.offset = c.position) {width : List Char} (hwidth : IsWidth width)
    (hrest : c.rest = width ++ rest) (hstop : Stops Char.isDigit rest) :
    ∃ d, c.Reads width d
      ∧ readWidth c = (Integer.ofDigitRun width).map fun n =>
          (if maxWidth < n then none else some n, d) := by
  obtain ⟨first, digits, rfl, hfirst, hdigits⟩ := hwidth
  obtain ⟨d, hd, hcd⟩ := Cursor.exists_consumeIf h hrest (isLeadingDigit_iff.2 hfirst)
  have hfirst_read : c.consumeIf (fun x => '1' ≤ x && x ≤ '9') = (some first, d) := hd
  obtain ⟨e, he, hde⟩ :=
    Cursor.exists_run hcd.offset_eq (hcd.rest_cons hrest) hdigits hstop
  refine ⟨e, hcd.trans hde, ?_⟩
  simp only [readWidth, hfirst_read, he]
  cases Integer.ofDigitRun (first :: digits) <;> rfl

theorem exists_readWidth_none (h : c.offset = c.position) (hstop : Stops isLeadingDigit c.rest) :
    ∃ d, readWidth c = .ok (none, d) ∧ c.Reads [] d := by
  obtain ⟨d, hd, hcd⟩ := Cursor.exists_consumeIf_none h hstop
  have hnone_read : c.consumeIf (fun x => '1' ≤ x && x ≤ '9') = (none, d) := hd
  refine ⟨d, ?_, hcd⟩
  simp only [readWidth, hnone_read]

/-- The parenthesis and the spaces in front of a width. -/
theorem exists_open (h : c.offset = c.position) {before : Nat}
    (hrest : c.rest = '(' :: (Directive.spaces before ++ rest)) (hspace : Stops (· == ' ') rest) :
    ∃ d, c.consume '(' = (true, d)
      ∧ c.Reads ('(' :: Directive.spaces before) (d.skip ' ') := by
  obtain ⟨d, hd, hcd⟩ := Cursor.exists_consume h hrest
  exact ⟨d, hd, hcd.trans (Cursor.reads_skip hcd.offset_eq (hcd.rest_cons hrest) hspace)⟩

/-- A directive up to its width: what comes of it is decided by the width and by what follows. -/
theorem exists_readDirective (side : Side) (h : c.offset = c.position) {before : Nat}
    {width : List Char} (hwidth : IsWidth width) (hstop : Stops Char.isDigit rest)
    (hrest : c.rest = '(' :: (Directive.spaces before ++ (width ++ rest))) :
    ∃ d, c.Reads ('(' :: Directive.spaces before ++ width) d
      ∧ readDirective side c = (Integer.ofDigitRun width).map fun n =>
          if maxWidth < n then (malformed false, d) else readEnd side n d := by
  have hspace : Stops (· == ' ') (width ++ rest) := by
    obtain ⟨first, digits, rfl, hfirst, _⟩ := hwidth
    rw [List.cons_append, stops_cons, beq_eq_false_iff_ne]
    rintro rfl
    exact absurd hfirst (by decide)
  obtain ⟨d, hd, hcd⟩ := exists_open h hrest hspace
  obtain ⟨e, hde, he⟩ := exists_readWidth hcd.offset_eq hwidth (hcd.rest_of hrest) hstop
  refine ⟨e, hcd.trans hde, ?_⟩
  simp only [readDirective, hd, he]
  cases Integer.ofDigitRun width with
  | error f => rfl
  | ok n => by_cases hn : maxWidth < n <;> simp [Except.map, hn]

theorem exists_readDirective_bare (side : Side) (h : c.offset = c.position)
    (hstop : Stops (· == '(') c.rest) :
    ∃ d, readDirective side c = .ok (malformed false, d) ∧ c.Reads [] d := by
  obtain ⟨d, hd, hcd⟩ := Cursor.exists_consume_false h hstop
  refine ⟨d, ?_, hcd⟩
  simp only [readDirective, hd]

theorem exists_readDirective_noWidth (side : Side) (h : c.offset = c.position) {before : Nat}
    (hrest : c.rest = '(' :: (Directive.spaces before ++ rest))
    (hstop : Stops (fun x => x == ' ' || isLeadingDigit x) rest) :
    ∃ d, readDirective side c = .ok (malformed false, d)
      ∧ c.Reads ('(' :: Directive.spaces before) d := by
  obtain ⟨hspace, hlead⟩ := stops_or.1 hstop
  obtain ⟨d, hd, hcd⟩ := exists_open h hrest hspace
  rw [← hcd.rest_of hrest] at hlead
  obtain ⟨e, he, hde⟩ := exists_readWidth_none hcd.offset_eq hlead
  refine ⟨e, ?_, by simpa using hcd.trans hde⟩
  simp only [readDirective, hd, he]

theorem exists_read_key (h : c.offset = c.position) (hrest : c.rest = '(' :: rest) :
    ∃ d, c.Reads ['('] d ∧ read c = .ok (readKey d) := by
  obtain ⟨d, hd, hcd⟩ := Cursor.exists_next h hrest
  refine ⟨d, hcd, ?_⟩
  simp only [read, hd]

theorem exists_read_directive (side : Side) (h : c.offset = c.position)
    (hrest : c.rest = side.sign :: rest) :
    ∃ d, c.Reads [side.sign] d ∧ read c = readDirective side d := by
  obtain ⟨d, hd, hcd⟩ := Cursor.exists_next h hrest
  refine ⟨d, hcd, ?_⟩
  cases side <;> simp only [read, hd, Side.sign]

/-- A directive from its sign up to its width. -/
theorem exists_read_width (side : Side) (before : Nat) (h : c.offset = c.position)
    {width : List Char} (hwidth : IsWidth width) (hstop : Stops Char.isDigit rest)
    (hrest : c.rest = (opening side before width 0).tail ++ rest) :
    ∃ d, c.Reads (opening side before width 0).tail d
      ∧ read c = (Integer.ofDigitRun width).map fun n =>
          if maxWidth < n then (malformed false, d) else readEnd side n d := by
  have hsplit : c.rest = side.sign :: '(' :: (Directive.spaces before ++ (width ++ rest)) := by
    simpa [opening, Directive.spaces] using hrest
  obtain ⟨d, hcd, hd⟩ := exists_read_directive side h hsplit
  obtain ⟨e, hde, he⟩ := exists_readDirective side hcd.offset_eq hwidth hstop
    (hcd.rest_cons hsplit)
  exact ⟨e, by simpa [opening, Directive.spaces] using hcd.trans hde, by rw [hd, he]⟩

theorem Attempt.eq_cons {used rest : List Char} {p : Placeholder} (h : Attempt used p rest) :
    used = '%' :: used.tail := by
  cases h <;> rfl

/-- Reading after a percent sign follows the rules for attempts. -/
theorem exists_read (h : c.IsSound) {used : List Char} {p : Placeholder}
    (ha : Attempt used p rest) (hrest : c.rest = used.tail ++ rest) :
    ∃ d, read c = .ok (p, d) ∧ c.Reads used.tail d := by
  have hc := h.offset_eq
  cases ha with
  | alone =>
    obtain ⟨d, hd, hcd⟩ := Cursor.exists_next_end h hrest
    refine ⟨d, ?_, hcd⟩
    simp only [read, hd]
  | @stranger x _ hx =>
    obtain ⟨d, hd, hcd⟩ := Cursor.exists_next hc hrest
    have hne : x ≠ '(' ∧ x ≠ '<' ∧ x ≠ '>' ∧ x ≠ 'n' ∧ x ≠ '%' := by simpa using hx
    refine ⟨d, ?_, hcd⟩
    rw [read, hd]
    split <;> rename_i heq <;> cases heq
    · exact absurd rfl hne.1
    · exact absurd rfl hne.2.1
    · exact absurd rfl hne.2.2.1
    · exact absurd rfl hne.2.2.2.1
    · exact absurd rfl hne.2.2.2.2
    · rfl
  | lineFeed =>
    obtain ⟨d, hd, hcd⟩ := Cursor.exists_next hc hrest
    refine ⟨d, ?_, hcd⟩
    simp only [read, hd]
  | percent =>
    obtain ⟨d, hd, hcd⟩ := Cursor.exists_next hc hrest
    refine ⟨d, ?_, hcd⟩
    simp only [read, hd]
  | @key name _ hname =>
    have hsplit : c.rest = '(' :: (name ++ ')' :: rest) := by simpa using hrest
    obtain ⟨d, hcd, hd⟩ := exists_read_key hc hsplit
    obtain ⟨e, he, hde⟩ := exists_readKey hcd.offset_eq hname (hcd.rest_cons hsplit)
    exact ⟨e, by rw [hd, he], hcd.trans hde⟩
  | @openKey name _ hname hstop =>
    obtain ⟨d, hcd, hd⟩ := exists_read_key hc hrest
    obtain ⟨e, he, hde⟩ :=
      exists_readKey_open hcd.offset_eq hname (hcd.rest_cons hrest) hstop
    exact ⟨e, by rw [hd, he], hcd.trans hde⟩
  | bare side hstop =>
    have hsplit : c.rest = side.sign :: rest := hrest
    obtain ⟨d, hcd, hd⟩ := exists_read_directive side hc hsplit
    rw [← hcd.rest_cons hsplit] at hstop
    obtain ⟨e, he, hde⟩ := exists_readDirective_bare side hcd.offset_eq hstop
    exact ⟨e, by rw [hd, he], hcd.trans hde⟩
  | noWidth side before hstop =>
    have hsplit : c.rest = side.sign :: '(' :: (Directive.spaces before ++ rest) := by
      simpa [opening, Directive.spaces] using hrest
    obtain ⟨d, hcd, hd⟩ := exists_read_directive side hc hsplit
    obtain ⟨e, he, hde⟩ := exists_readDirective_noWidth side hcd.offset_eq
      (hcd.rest_cons hsplit) hstop
    refine ⟨e, by rw [hd, he], ?_⟩
    simpa [opening, Directive.spaces] using hcd.trans hde
  | tooWide side before hwidth hlength hmax hstop =>
    obtain ⟨d, hcd, hd⟩ := exists_read_width side before hc hwidth hstop hrest
    refine ⟨d, ?_, hcd⟩
    rw [hd, Integer.ofDigitRun, if_neg (Nat.not_lt.2 hlength), Except.map, if_pos hmax]
  | directive side before hwidth hmax hdigits hend =>
    have hsplit := hrest.trans (List.append_assoc _ _ _)
    obtain ⟨d, hcd, hd⟩ := exists_read_width side before hc hwidth hdigits hsplit
    obtain ⟨e, he, hde⟩ := exists_readEnd hcd.offset_eq hend (hcd.rest_of hsplit)
    refine ⟨e, ?_, hcd.trans hde⟩
    rw [hd, Integer.ofDigitRun, if_neg (Nat.not_lt.2 (hwidth.length_le hmax)), Except.map,
      if_neg (Nat.not_lt.2 hmax), he]

/-- A width of too many digits is a fault. -/
theorem read_of_isRefused (h : c.offset = c.position) {digits : Nat}
    (hrefused : IsRefused digits ('%' :: c.rest)) :
    read c = .error (.literalTooLong digits) := by
  obtain ⟨side, before, width, rest, heq, hwidth, rfl, hlong, hstop⟩ := hrefused
  have hrest : c.rest = (opening side before width 0).tail ++ rest := (List.cons.inj heq).2
  obtain ⟨d, -, hd⟩ := exists_read_width side before h hwidth hstop hrest
  rw [hd, Integer.ofDigitRun, if_pos hlong, Except.map]

theorem exists_cursor (cs : List Char) : ∃ c : Cursor, c.IsSound ∧ c.rest = cs :=
  ⟨Cursor.ofString (String.ofList cs), Cursor.isSound_ofString _, by
    rw [Cursor.rest_ofString, String.toList_ofList]⟩

/-- A text has only one attempt. -/
theorem Attempt.unique {used used' rest rest' : List Char} {p p' : Placeholder}
    (h : Attempt used p rest) (h' : Attempt used' p' rest') (heq : used ++ rest = used' ++ rest') :
    used = used' ∧ p = p' ∧ rest = rest' := by
  have htail : used.tail ++ rest = used'.tail ++ rest' := by
    rw [h.eq_cons, h'.eq_cons] at heq
    exact (List.cons.inj heq).2
  -- Both are what reading the text behind the percent sign comes to.
  obtain ⟨c, hsound, hrest⟩ := exists_cursor (used.tail ++ rest)
  obtain ⟨d, hd, hreads⟩ := exists_read hsound h hrest
  obtain ⟨d', hd', hreads'⟩ := exists_read hsound h' (hrest.trans htail)
  obtain ⟨rfl, rfl⟩ : p = p' ∧ d = d' := by
    rw [hd] at hd'
    simpa using hd'
  have hrests : rest = rest' :=
    (hreads.rest_of hrest).symm.trans (hreads'.rest_of (hrest.trans htail))
  subst hrests
  refine ⟨?_, rfl, rfl⟩
  rw [h.eq_cons, h'.eq_cons, List.append_cancel_right htail]

/-- A text that is refused has no attempt. -/
theorem Attempt.not_isRefused {used rest : List Char} {p : Placeholder} (h : Attempt used p rest)
    (digits : Nat) : ¬IsRefused digits (used ++ rest) := by
  intro hrefused
  obtain ⟨c, hsound, hrest⟩ := exists_cursor (used.tail ++ rest)
  obtain ⟨d, hd, -⟩ := exists_read hsound h hrest
  have hfault : read c = .error (.literalTooLong digits) := by
    refine read_of_isRefused hsound.offset_eq ?_
    rwa [hrest, ← List.cons_append, ← h.eq_cons]
  rw [hd] at hfault
  cases hfault

end PercentTemplate.Placeholder

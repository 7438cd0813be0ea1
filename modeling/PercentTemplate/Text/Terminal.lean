/-!
# Terminal control sequences

Text shown on a stream that is not a terminal loses its colour and cursor sequences: the escape
character, an opening bracket, any number of digits, semicolons and question marks, and one ASCII
letter. Anything short of that form is kept.

## Main definitions

- `Text.controlTail?` — the rest of a text after the remainder of a control sequence
- `Text.stripControls` — a text without its control sequences
-/

namespace PercentTemplate.Text

/-- The escape character that introduces a control sequence. -/
def escapeChar : Char := '\x1b'

/-- Whether `c` may be a parameter of a control sequence. -/
def isControlParameter (c : Char) : Bool :=
  c.isDigit || c = ';' || c = '?'

/-- What follows the parameters and the final letter at the front of `cs`, if they stand there. -/
def controlTail? : List Char → Option (List Char)
  | [] => none
  | c :: rest =>
    if isControlParameter c then controlTail? rest
    else if c.isAlpha then some rest
    else none

theorem length_controlTail? {cs rest : List Char} (h : controlTail? cs = some rest) :
    rest.length < cs.length := by
  induction cs with
  | nil => simp [controlTail?] at h
  | cons c cs ih =>
    simp only [controlTail?] at h
    split at h
    · exact Nat.lt_succ_of_lt (ih h)
    · split at h
      · cases h
        simp
      · simp at h

/-- What follows a control sequence at the front of `cs`, its escape character already gone. -/
def afterControl? : List Char → Option (List Char)
  | '[' :: tail => controlTail? tail
  | _ => none

theorem length_afterControl? {cs rest : List Char} (h : afterControl? cs = some rest) :
    rest.length < cs.length := by
  unfold afterControl? at h
  split at h
  · exact Nat.lt_succ_of_lt (length_controlTail? h)
  · simp at h

/-- Strip the remaining characters behind the reversed result so far. -/
def stripControlsAux (done : List Char) : List Char → List Char
  | [] => done.reverse
  | c :: rest =>
    if c = escapeChar then
      match _h : afterControl? rest with
      | some after => stripControlsAux done after
      | none => stripControlsAux (c :: done) rest
    else stripControlsAux (c :: done) rest
termination_by cs => cs.length
decreasing_by
  · exact Nat.lt_succ_of_lt (length_afterControl? _h)
  all_goals simp

/-- The text `s` without its terminal control sequences. -/
def stripControls (s : String) : String :=
  String.ofList (stripControlsAux [] s.toList)

theorem stripControlsAux_eq_self {cs : List Char} (h : escapeChar ∉ cs) (done : List Char) :
    stripControlsAux done cs = done.reverse ++ cs := by
  induction cs generalizing done with
  | nil => simp [stripControlsAux]
  | cons c rest ih =>
    obtain ⟨hc, hr⟩ := not_or.1 (mt List.mem_cons.2 h)
    rw [stripControlsAux, if_neg (Ne.symm hc), ih hr]
    simp

/-- A text without the escape character is left alone. -/
theorem stripControls_eq_self {s : String} (h : escapeChar ∉ s.toList) : stripControls s = s := by
  simp [stripControls, stripControlsAux_eq_self h]

end PercentTemplate.Text

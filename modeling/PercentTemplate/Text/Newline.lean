/-!
# Universal newlines

Text read from a file or a stream has its line ends unified: a carriage return, with or without a
line feed after it, becomes one line feed.

## Main definitions

- `Text.unifyNewlines` — a text with every line end written as a line feed
-/

namespace PercentTemplate.Text

/-- Unify the line ends of the remaining characters behind the reversed result so far. -/
def unifyNewlinesAux (done : List Char) : List Char → List Char
  | [] => done.reverse
  | '\r' :: '\n' :: rest => unifyNewlinesAux ('\n' :: done) rest
  | c :: rest => unifyNewlinesAux ((if c = '\r' then '\n' else c) :: done) rest

/-- The list `cs` with each `\r\n` and each lone `\r` replaced by `\n`. -/
def unifyNewlines (cs : List Char) : List Char :=
  unifyNewlinesAux [] cs

theorem unifyNewlinesAux_eq_self {cs : List Char} (h : '\r' ∉ cs) (done : List Char) :
    unifyNewlinesAux done cs = done.reverse ++ cs := by
  fun_induction unifyNewlinesAux done cs with
  | case1 => simp
  | case2 => simp at h
  | case3 done c rest _ ih =>
    obtain ⟨hc, hr⟩ := not_or.1 (mt List.mem_cons.2 h)
    rw [ih hr, if_neg (Ne.symm hc)]
    simp

/-- A text without carriage returns is left alone. -/
theorem unifyNewlines_eq_self {cs : List Char} (h : '\r' ∉ cs) : unifyNewlines cs = cs :=
  unifyNewlinesAux_eq_self h []

end PercentTemplate.Text

/-!
# Quoting

Text written as a template that stands for the text itself: every percent sign is doubled.

## Main definitions

- `Template.quote` — a text as a template for itself
-/

namespace PercentTemplate.Template

/-- The written form of a character that stands for itself. -/
def quoteChar (c : Char) : List Char := if c = '%' then ['%', '%'] else [c]

/-- The characters of a text as a template for itself. -/
def quoteChars (cs : List Char) : List Char := cs.flatMap quoteChar

def quote (s : String) : String := String.ofList (quoteChars s.toList)

@[simp] theorem quoteChars_append (cs ds : List Char) :
    quoteChars (cs ++ ds) = quoteChars cs ++ quoteChars ds :=
  List.flatMap_append ..

/-- A percent sign is written twice and everything else once. -/
theorem count_quoteChars (x : Char) (cs : List Char) :
    (quoteChars cs).count x = (if x = '%' then 2 else 1) * cs.count x := by
  induction cs with
  | nil => simp [quoteChars]
  | cons c rest ih =>
    rw [← List.singleton_append, quoteChars_append, List.count_append, ih]
    by_cases hc : c = '%' <;> by_cases hx : x = c <;>
      simp_all [quoteChars, quoteChar, List.count_cons] <;> grind

/-- Text without a percent sign is a template for itself. -/
theorem quoteChars_eq_self {cs : List Char} (h : '%' ∉ cs) : quoteChars cs = cs := by
  induction cs with
  | nil => rfl
  | cons c rest ih =>
    have hc : c ≠ '%' := fun e => h (by simp [e])
    have hrest : '%' ∉ rest := fun e => h (by simp [e])
    rw [← List.singleton_append, quoteChars_append, ih hrest]
    simp [quoteChars, quoteChar, hc]

end PercentTemplate.Template

/-!
# Runs of a class of characters

A longest run of a class ends where the text stops: what follows does not begin with a character of
the class (`Text.Stops`).
-/

namespace PercentTemplate.Text

/-- The text `cs` does not begin with a character of the class `p`. -/
def Stops (p : Char → Bool) (cs : List Char) : Prop := ∀ x ∈ cs.head?, p x = false

@[simp] theorem stops_nil (p : Char → Bool) : Stops p [] := by
  intro x hx
  cases hx

@[simp] theorem stops_cons {p : Char → Bool} {x : Char} {cs : List Char} :
    Stops p (x :: cs) ↔ p x = false := by
  simp [Stops]

/-- Whether a run stops depends on the next character only. -/
theorem Stops.of_head?_eq {p : Char → Bool} {cs ds : List Char} (h : Stops p cs)
    (hhead : ds.head? = cs.head?) : Stops p ds := by
  intro x hx
  exact h x (hhead ▸ hx)

/-- A run stops in front of a text or, if the text is empty, in front of the character behind it. -/
theorem Stops.append_cons {p : Char → Bool} {cs : List Char} {x : Char} (h : Stops p cs)
    (hx : p x = false) (rest : List Char) : Stops p (cs ++ x :: rest) := by
  cases cs with
  | nil => exact stops_cons.2 hx
  | cons y cs => exact stops_cons.2 (stops_cons.1 h)

theorem stops_or {p q : Char → Bool} {cs : List Char} :
    Stops (fun x => p x || q x) cs ↔ Stops p cs ∧ Stops q cs := by
  constructor
  · intro h
    exact ⟨fun x hx => (Bool.or_eq_false_iff.1 (h x hx)).1,
      fun x hx => (Bool.or_eq_false_iff.1 (h x hx)).2⟩
  · rintro ⟨hp, hq⟩ x hx
    exact Bool.or_eq_false_iff.2 ⟨hp x hx, hq x hx⟩

theorem stops_dropWhile (p : Char → Bool) (cs : List Char) : Stops p (cs.dropWhile p) := by
  induction cs with
  | nil => exact stops_nil p
  | cons x cs ih =>
    by_cases hx : p x = true
    · rwa [List.dropWhile_cons_of_pos hx]
    · rw [List.dropWhile_cons_of_neg hx, stops_cons]
      exact Bool.eq_false_iff.2 hx

theorem dropWhile_eq_self {p : Char → Bool} {cs : List Char} (h : Stops p cs) :
    cs.dropWhile p = cs := by
  cases cs with
  | nil => rfl
  | cons x cs => simp [stops_cons.1 h]

/-- A run of a class ends where the next character is none of it. -/
theorem dropWhile_run {p : Char → Bool} {run rest : List Char} (hrun : ∀ x ∈ run, p x = true)
    (hrest : Stops p rest) : (run ++ rest).dropWhile p = rest := by
  rw [List.dropWhile_append_of_pos hrun, dropWhile_eq_self hrest]

theorem takeWhile_run {p : Char → Bool} {run rest : List Char} (hrun : ∀ x ∈ run, p x = true)
    (hrest : Stops p rest) : (run ++ rest).takeWhile p = run := by
  have hsplit := List.takeWhile_append_dropWhile (p := p) (l := run ++ rest)
  rw [dropWhile_run hrun hrest] at hsplit
  exact List.append_cancel_right hsplit

/-- Every text is a run of a class and a rest at which it stops. -/
theorem exists_run (p : Char → Bool) (cs : List Char) :
    ∃ run rest, cs = run ++ rest ∧ (∀ x ∈ run, p x = true) ∧ Stops p rest :=
  ⟨cs.takeWhile p, cs.dropWhile p, List.takeWhile_append_dropWhile.symm,
    List.all_eq_true.1 List.all_takeWhile, stops_dropWhile p cs⟩

end PercentTemplate.Text

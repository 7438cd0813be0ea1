import PercentTemplate.Template.Token

/-!
# Outlines

The forms of key placeholders and directives with any width and any keyword. An attempt at a
placeholder is given up as soon as what it has read cannot be continued to an outline any more, or
when it has read a whole one whose width or keyword does not exist.

## Main definitions

- `Placeholder.Outline` — the texts of such a form
- `Placeholder.IsBeginning` — whether a text can be continued to one
-/

namespace PercentTemplate.Placeholder

/-- Digits that name a positive number in the shortest way. -/
def IsWidth (digits : List Char) : Prop :=
  ∃ first rest, digits = first :: rest ∧ first ∈ "123456789".toList ∧ ∀ c ∈ rest, c.isDigit = true

/-- A word of key characters. -/
def IsWord (cs : List Char) : Prop := ∀ c ∈ cs, isKeyChar c = true

/-- The part of a directive up to the spaces after its width. -/
def opening (side : Side) (before : Nat) (width : List Char) (after : Nat) : List Char :=
  '%' :: side.sign :: '(' :: Directive.spaces before ++ width ++ Directive.spaces after

/-- Texts of the form of a key placeholder or a directive. -/
inductive Outline : List Char → Prop
  /-- A key placeholder. -/
  | key {name : List Char} (hname : IsWord name) : Outline ('%' :: '(' :: name ++ [')'])
  /-- A directive without a keyword. -/
  | plain (side : Side) (before after : Nat) {width : List Char} (hwidth : IsWidth width) :
    Outline (opening side before width after ++ [')'])
  /-- A directive with a keyword, which may be empty. -/
  | keyword (side : Side) (before after comma last : Nat) {width word : List Char}
    (hwidth : IsWidth width) (hword : IsWord word) :
    Outline (opening side before width after ++ ',' :: Directive.spaces comma ++ word
      ++ Directive.spaces last ++ [')'])

/-- Whether a text can be continued to an outline. -/
def IsBeginning (cs : List Char) : Prop := ∃ tail, Outline (cs ++ tail)

theorem IsBeginning.of_append {cs ds : List Char} (h : IsBeginning (cs ++ ds)) :
    IsBeginning cs := by
  obtain ⟨tail, htail⟩ := h
  exact ⟨ds ++ tail, by rwa [← List.append_assoc]⟩

theorem Outline.isBeginning {cs : List Char} (h : Outline cs) : IsBeginning cs :=
  ⟨[], by rwa [List.append_nil]⟩

theorem isBeginning_nil : IsBeginning [] :=
  ⟨_, Outline.key (show IsWord [] from fun _ h => nomatch h)⟩

end PercentTemplate.Placeholder

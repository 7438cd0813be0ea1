import PercentTemplate.Proofs.Json.Nesting
import PercentTemplate.Proofs.Json.Writing

/-!
# Reading back what is written

The text of a JSON value is read as the value with the members of its objects in order
(`Json.read_render`). The words of the text are those of the value as it is written
(`Json.IsExact.isWrittenAs`), whatever follows, and what is read of the words of a value is known.

Only values without fractions are covered, whose integers are short enough to be converted
(`Json.IsExact`).
-/

namespace PercentTemplate.Json

open Text (Points)
open Token (lex isNumeral)

mutual

/-- A value with the members of its objects in the order in which they are written. -/
def sorted : Json → Json
  | arr items => arr (sortedItems items)
  | obj members => obj (Keyed.ofList (sortMembers (sortedMembers members)))
  | v => v

def sortedItems : List Json → List Json
  | [] => []
  | v :: rest => sorted v :: sortedItems rest

def sortedMembers : List (String × Json) → List (String × Json)
  | [] => []
  | (name, v) :: rest => (name, sorted v) :: sortedMembers rest

end

theorem sortedItems_eq_map (items : List Json) : sortedItems items = items.map sorted := by
  induction items with
  | nil => rfl
  | cons v rest ih => rw [sortedItems, ih, List.map_cons]

theorem sortedMembers_eq_map (members : List (String × Json)) :
    sortedMembers members = members.map fun m => (m.1, sorted m.2) := by
  induction members with
  | nil => rfl
  | cons m rest ih => rw [sortedMembers, ih, List.map_cons]

theorem wide_sorted_arr (items : List Json) :
    (sorted (.arr items)).wide = .arr (items.map fun v => v.sorted.wide) := by
  rw [sorted, sortedItems_eq_map, wide_arr, List.map_map]
  rfl

theorem wide_sorted_obj (members : List (String × Json)) :
    (sorted (.obj members)).wide = .obj (Keyed.ofList
      ((sortMembers members).map fun m => (Points.ofString m.1, m.2.sorted.wide))) := by
  have hlist := Keyed.ofList_map_of_injective Points.ofString_injective wide
    (sortMembers (sortedMembers members))
  rw [sorted, wide_obj]
  refine congrArg Json.obj (hlist.symm.trans ?_)
  rw [sortedMembers_eq_map, sortMembers_map, List.map_map]
  rfl

mutual

/-- A value as it is written: the members of its objects in order, also those of one name. -/
def written : Json → Json Points
  | null => null
  | bool b => bool b
  | int n => int n
  | float x => float x
  | str s => str (.ofString s)
  | arr items => arr (writtenItems items)
  | obj members => obj ((sortMembers (writtenMembers members)).map fun m => (.ofString m.1, m.2))

def writtenItems : List Json → List (Json Points)
  | [] => []
  | v :: rest => written v :: writtenItems rest

def writtenMembers : List (String × Json) → List (String × Json Points)
  | [] => []
  | (name, v) :: rest => (name, written v) :: writtenMembers rest

end

def writtenMember (m : String × Json) : Points × Json Points := (.ofString m.1, m.2.written)

theorem written_arr (items : List Json) : written (.arr items) = .arr (items.map written) := by
  have hitems : writtenItems items = items.map written := by
    induction items with
    | nil => rfl
    | cons v rest ih => rw [writtenItems, ih, List.map_cons]
  rw [written, hitems]

theorem written_obj (members : List (String × Json)) :
    written (.obj members) = .obj ((sortMembers members).map writtenMember) := by
  have hmembers : writtenMembers members = members.map fun m => (m.1, m.2.written) := by
    induction members with
    | nil => rfl
    | cons m rest ih => rw [writtenMembers, ih, List.map_cons]
  rw [written, hmembers, sortMembers_map, List.map_map]
  rfl

/-- Read back, the last of several members of one name counts. -/
theorem resolved_written (v : Json) : v.written.resolved = v.sorted.wide := by
  induction v with
  | null | bool | int | float | str => rfl
  | arr items ih =>
    rw [written_arr, resolved_arr, wide_sorted_arr, List.map_map]
    exact congrArg arr (List.map_congr_left ih)
  | obj members ih =>
    have hmembers : ∀ m ∈ sortMembers members,
        resolvedMember (writtenMember m) = (.ofString m.1, m.2.sorted.wide) :=
      fun m hm => Prod.ext rfl (ih m ((sortMembers_perm members).mem_iff.1 hm))
    rw [written_obj, resolved_obj, wide_sorted_obj, List.map_map]
    exact congrArg (fun ms => obj (Keyed.ofList ms)) (List.map_congr_left hmembers)

section Words

/-- These characters are read as these words, whatever follows that does not go on with a number. -/
def IsWrittenAs (words : List Token) (cs : List Char) : Prop :=
  ∀ rest, Text.Stops isNumeral rest → lex (cs ++ rest) = words ++ lex rest

theorem stops_mark {c : Char} (h : Token.isMark c = true) (rest : List Char) :
    Text.Stops isNumeral (c :: rest) := by
  rw [Text.stops_cons]
  simp only [Token.isMark, Bool.or_eq_true, decide_eq_true_eq] at h
  rcases h with ((((rfl | rfl) | rfl) | rfl) | rfl) | rfl <;> decide

/-- Parts with commas between them are read one after the other. -/
theorem lex_joinComma {α : Type} {words : α → List Token} {text : α → List Char} {parts : List α}
    (h : ∀ x ∈ parts, IsWrittenAs (words x) (text x)) {c : Char} (hc : Token.isMark c = true)
    (rest : List Char) :
    lex (joinComma (parts.map text) ++ c :: rest)
      = separated (parts.map words) ++ .mark c :: lex rest := by
  induction parts with
  | nil => exact Token.lex_mark hc rest
  | cons x parts ih =>
    have hx := h x List.mem_cons_self
    have hrest := ih fun y hy => h y (List.mem_cons_of_mem x hy)
    cases parts with
    | nil =>
      rw [List.map_singleton, joinComma, hx _ (stops_mark hc rest), Token.lex_mark hc,
        separated_map_cons, further, List.flatMap_nil, List.append_nil]
    | cons y parts =>
      rw [List.map_cons, List.map_cons, joinComma_cons_cons, List.append_assoc, List.cons_append,
        hx _ (stops_mark rfl _), Token.lex_mark rfl, ← List.map_cons, hrest, separated_map_cons,
        separated_map_cons, further_cons]
      simp

theorem isWrittenAs_memberText {m : String × Json}
    (h : IsWrittenAs m.2.written.tokens (chars m.2)) :
    IsWrittenAs (memberWords (writtenMember m)) (memberText m) := by
  intro rest hrest
  rw [memberText, List.append_assoc, List.cons_append, Token.lex_text, Token.lex_mark rfl,
    h rest hrest]
  rfl

/-- The words of what is written for a value. -/
theorem IsExact.isWrittenAs {v : Json} (h : v.IsExact) :
    IsWrittenAs v.written.tokens (chars v) := by
  induction h with
  | null => exact fun rest _ => Token.lex_null rest
  | bool b =>
    cases b with
    | false => exact fun rest _ => Token.lex_false rest
    | true => exact fun rest _ => Token.lex_true rest
  | int hn => exact fun rest hrest => Token.lex_toString hn hrest
  | str s => exact fun rest _ => Token.lex_text s rest
  | @arr items _ ih =>
    intro rest _
    have hitems : lex (joinComma (items.map chars) ++ ']' :: rest)
        = separated (items.map fun v => v.written.tokens) ++ .mark ']' :: lex rest :=
      lex_joinComma ih rfl rest
    rw [chars_arr, written_arr, tokens_arr, List.map_map]
    simp only [List.cons_append, List.append_assoc, List.nil_append]
    rw [Token.lex_mark rfl, hitems]
    rfl
  | @obj members _ ih =>
    intro rest _
    have hmembers : ∀ m ∈ sortMembers members,
        IsWrittenAs (memberWords (writtenMember m)) (memberText m) :=
      fun m hm => isWrittenAs_memberText (ih m ((sortMembers_perm members).mem_iff.1 hm))
    have hall : lex (joinComma ((sortMembers members).map memberText) ++ '\x7d' :: rest)
        = separated ((sortMembers members).map fun m => memberWords (writtenMember m))
          ++ .mark '\x7d' :: lex rest :=
      lex_joinComma hmembers rfl rest
    rw [chars_obj, written_obj, tokens_obj, List.map_map]
    simp only [List.cons_append, List.append_assoc, List.nil_append]
    rw [Token.lex_mark rfl, hall]
    rfl

end Words

variable {v : Json}

theorem lex_chars (h : v.IsExact) : lex (chars v) = v.written.tokens := by
  have hlex := h.isWrittenAs [] (Text.stops_nil _)
  rwa [List.append_nil, Token.lex_nil, List.append_nil] at hlex

theorem read_chars_append (h : v.IsExact) {tail : List Char} (hstop : Text.Stops isNumeral tail)
    (htail : lex tail = []) : read (String.ofList (chars v ++ tail)) = .ok v.sorted.wide := by
  refine read_eq_ok_iff.2 ⟨v.written, ?_, (resolved_written v).symm⟩
  rw [String.toList_ofList, h.isWrittenAs tail hstop, htail, List.append_nil]

/-- Reading gives back what is written, with the members of objects in order. -/
theorem read_render (h : v.IsExact) : read v.render = .ok v.sorted.wide := by
  have hread := read_chars_append h (Text.stops_nil _) Token.lex_nil
  rwa [List.append_nil] at hread

theorem read_render_line (h : v.IsExact) : read (v.render ++ "\n") = .ok v.sorted.wide := by
  have hline : v.render ++ "\n" = String.ofList (chars v ++ ['\n']) := by
    rw [String.ofList_append]
    rfl
  rw [hline]
  exact read_chars_append h (Text.stops_cons.2 rfl) rfl

/-- An array without objects is left alone. -/
theorem sorted_arr_map {α : Type} {f : α → Json} (h : ∀ x, sorted (f x) = f x) (xs : List α) :
    sorted (.arr (xs.map f)) = .arr (xs.map f) := by
  rw [sorted, sortedItems_eq_map, List.map_map]
  exact congrArg Json.arr (List.map_congr_left fun x _ => h x)

/-- The members of an object with distinct names are merely put in order. -/
theorem sorted_obj {members : List (String × Json)} (h : (Keyed.keys members).Nodup) :
    sorted (.obj members) = .obj ((sortMembers members).map fun m => (m.1, sorted m.2)) := by
  have hkeys : (Keyed.keys ((sortMembers members).map fun m => (m.1, sorted m.2))).Nodup := by
    rw [Keyed.keys, List.map_map]
    exact sortMembers_nodup h
  rw [sorted, sortedMembers_eq_map, sortMembers_map, Keyed.ofList_eq_self hkeys]

theorem member?_sorted {members : List (String × Json)} (h : (Keyed.keys members).Nodup)
    (name : String) :
    member? name (sorted (.obj members)) = (Keyed.get? name members).map sorted := by
  rw [sorted_obj h, member?, Keyed.get?_map,
    Keyed.get?_perm (sortMembers_perm members) (sortMembers_nodup h)]

end PercentTemplate.Json

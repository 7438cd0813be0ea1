import PercentTemplate.Document.Text

/-!
# Values without a text

Writing a value fails exactly if an integer with too many digits is in it
(`Document.failsJust_literal`, `Document.failsJust_joinTexts`), wherever it stands.
-/

namespace PercentTemplate.Document

/-- An integer with more digits than are converted, on its own or somewhere in the value. -/
inductive HoldsLong : Document → Prop
  | int {n : Int} (h : Integer.maxDigits < (Nat.toDigits 10 n.natAbs).length) : HoldsLong (.int n)
  | item {items : List Document} {d : Document} (hd : d ∈ items) (h : HoldsLong d) :
    HoldsLong (.list items)
  | key {entries : List (Document × Document)} {e : Document × Document} (he : e ∈ entries)
    (h : HoldsLong e.1) : HoldsLong (.map entries)
  | value {entries : List (Document × Document)} {e : Document × Document} (he : e ∈ entries)
    (h : HoldsLong e.2) : HoldsLong (.map entries)
  | member {members : List Document} {d : Document} (hd : d ∈ members) (h : HoldsLong d) :
    HoldsLong (.set members)
  | first {a b : Document} (h : HoldsLong a) : HoldsLong (.pair a b)
  | second {a b : Document} (h : HoldsLong b) : HoldsLong (.pair a b)

theorem holdsLong_int {n : Int} :
    HoldsLong (.int n) ↔ Integer.maxDigits < (Nat.toDigits 10 n.natAbs).length :=
  ⟨fun h => by cases h; assumption, .int⟩

theorem holdsLong_list {items : List Document} :
    HoldsLong (.list items) ↔ ∃ d ∈ items, d.HoldsLong :=
  ⟨fun h => by cases h with | item hd h => exact ⟨_, hd, h⟩, fun ⟨_, hd, h⟩ => .item hd h⟩

theorem holdsLong_map {entries : List (Document × Document)} :
    HoldsLong (.map entries) ↔ ∃ e ∈ entries, e.1.HoldsLong ∨ e.2.HoldsLong := by
  constructor
  · intro h
    cases h with
    | key he h => exact ⟨_, he, .inl h⟩
    | value he h => exact ⟨_, he, .inr h⟩
  · rintro ⟨e, he, h | h⟩
    · exact .key he h
    · exact .value he h

theorem holdsLong_set {members : List Document} :
    HoldsLong (.set members) ↔ ∃ d ∈ members, d.HoldsLong :=
  ⟨fun h => by cases h with | member hd h => exact ⟨_, hd, h⟩, fun ⟨_, hd, h⟩ => .member hd h⟩

theorem holdsLong_pair {a b : Document} : HoldsLong (.pair a b) ↔ a.HoldsLong ∨ b.HoldsLong :=
  ⟨fun h => by cases h with | first h => exact .inl h | second h => exact .inr h,
    fun h => h.elim .first .second⟩

/-- A conversion fails exactly if `long` holds, and then because a text would be too long. -/
def FailsJust {α : Type} (r : Except Integer.Fault α) (long : Prop) : Prop :=
  ∀ f, r = .error f ↔ f = .textTooLong ∧ long

section FailsJust

variable {α β : Type} {r : Except Integer.Fault α} {long long' : Prop}

theorem FailsJust.congr (h : FailsJust r long) (hlong : long ↔ long') : FailsJust r long' :=
  fun f => (h f).trans (and_congr_right fun _ => hlong)

theorem failsJust_ok (a : α) : FailsJust (.ok a) False :=
  fun _ => ⟨nofun, fun h => h.2.elim⟩

theorem failsJust_integerText (n : Int) : FailsJust (Integer.text n) (HoldsLong (.int n)) := by
  intro f
  rw [holdsLong_int, Integer.text]
  split
  · rename_i h
    exact ⟨fun heq => by cases heq; exact ⟨rfl, h⟩, fun heq => by rw [heq.1]⟩
  · rename_i h
    exact ⟨nofun, fun heq => absurd heq.2 h⟩

theorem FailsJust.bind {next : α → Except Integer.Fault β} (h : FailsJust r long)
    (hnext : ∀ a, FailsJust (next a) long') : FailsJust (r >>= next) (long ∨ long') := by
  intro f
  cases r with
  | error g =>
    have hlong := ((h g).1 rfl).2
    have hg := ((h g).1 rfl).1
    constructor
    · intro heq
      cases heq
      exact ⟨hg, .inl hlong⟩
    · rintro ⟨rfl, -⟩
      rw [hg]
      rfl
  | ok a =>
    have hlong : ¬long := fun hlong => nomatch (h .textTooLong).2 ⟨rfl, hlong⟩
    rw [or_iff_right hlong]
    exact hnext a f

theorem FailsJust.map (h : FailsJust r long) (g : α → β) : FailsJust (r.map g) long := by
  have hbind : r.map g = r >>= fun a => .ok (g a) := by cases r <;> rfl
  rw [hbind]
  exact (h.bind fun a => failsJust_ok (g a)).congr (or_iff_left id)

theorem failsJust_mapM {g : α → Except Integer.Fault β} {P : α → Prop} {xs : List α}
    (h : ∀ x ∈ xs, FailsJust (g x) (P x)) : FailsJust (xs.mapM g) (∃ x ∈ xs, P x) := by
  induction xs with
  | nil => exact (failsJust_ok []).congr (by simp)
  | cons x xs ih =>
    have hrest := ih fun y hy => h y (List.mem_cons_of_mem x hy)
    rw [List.mapM_cons]
    exact ((h x List.mem_cons_self).bind fun a => hrest.bind fun _ => failsJust_ok _).congr
      (by simp)

end FailsJust

/-- The literal form of an entry of a map. -/
def entryLiteral (e : Document × Document) : Except Integer.Fault String := do
  let k ← e.1.literal
  let v ← e.2.literal
  return k ++ ": " ++ v

theorem literals_eq_mapM (items : List Document) : literals items = items.mapM literal := by
  induction items with
  | nil => rfl
  | cons d rest ih =>
    rw [literals, ih, List.mapM_cons]
    cases d.literal with
    | error f => rfl
    | ok s => cases rest.mapM literal <;> rfl

theorem entryLiterals_eq_mapM (entries : List (Document × Document)) :
    entryLiterals entries = entries.mapM entryLiteral := by
  induction entries with
  | nil => rfl
  | cons e rest ih =>
    rw [entryLiterals, ih, List.mapM_cons, entryLiteral]
    cases e.1.literal with
    | error f => rfl
    | ok k =>
      cases e.2.literal with
      | error f => rfl
      | ok v => cases rest.mapM entryLiteral <;> rfl

/-- A value has a literal form unless it holds an integer with too many digits. -/
theorem failsJust_literal (d : Document) : FailsJust d.literal d.HoldsLong := by
  induction d with
  | null | bool | float | str | bytes | date | moment | again =>
    exact (failsJust_ok _).congr (iff_of_false id nofun)
  | int n => exact failsJust_integerText n
  | list items ih =>
    rw [literal, literals_eq_mapM, holdsLong_list]
    exact (failsJust_mapM ih).map _
  | map entries ih =>
    rw [literal, entryLiterals_eq_mapM, holdsLong_map]
    refine (failsJust_mapM fun e he => ?_).map _
    obtain ⟨hkey, hvalue⟩ := ih e he
    exact (hkey.bind fun k => hvalue.bind fun v => failsJust_ok _).congr (by simp)
  | set members ih =>
    rw [literal, holdsLong_set]
    split
    · rename_i hempty
      rw [List.isEmpty_iff] at hempty
      exact (failsJust_ok _).congr (by simp [hempty])
    · rw [literals_eq_mapM]
      exact (failsJust_mapM ih).map _
  | pair a b iha ihb =>
    have hbind : literal (.pair a b) = a.literal >>= fun s =>
        b.literal.map fun t => "(" ++ s ++ ", " ++ t ++ ")" := by
      rw [literal]
      cases a.literal <;> rfl
    rw [hbind, holdsLong_pair]
    exact iha.bind fun s => ihb.map _

theorem failsJust_text (d : Document) : FailsJust d.text d.HoldsLong := by
  have hliteral : FailsJust (d.literal.map Text.Points.ofString) d.HoldsLong :=
    (failsJust_literal d).map _
  cases d with
  | str | date | moment => exact (failsJust_ok _).congr (iff_of_false id nofun)
  | null | bool | int | float | bytes | list | map | set | pair | again =>
    exact hliteral

theorem failsJust_joinTexts (items : List Document) :
    FailsJust (joinTexts items) (HoldsLong (.list items)) := by
  rw [holdsLong_list]
  exact (failsJust_mapM fun d _ => failsJust_text d).map _

end PercentTemplate.Document

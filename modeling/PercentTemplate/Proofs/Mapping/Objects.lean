import PercentTemplate.Mapping.Load
import PercentTemplate.Proofs.Document.Json
import PercentTemplate.Proofs.Json.Grammar
import PercentTemplate.Proofs.Keyed
import PercentTemplate.Proofs.Mapping.Reporting

/-!
# Mappings from JSON objects

A JSON object is a mapping unless one of its values is null or an object: texts stay, numbers, truth
values and arrays become texts (`Json.entryText`), and what is inside an array does not matter
(`Mapping.ofDocument_ofJson`, `Mapping.ofDocument_ofJson_of_isTextless`).

Main statement: what loading makes of a JSON text (`Mapping.load_json`).
-/

namespace PercentTemplate

open Text (Points)

namespace Json

/-- The text of a value as the value of an entry: an array is the texts of its items. -/
def entryText : Json Points → Points
  | arr items => (Points.ofString ", ").intercalate (items.map shown)
  | v => v.shown

/-- The values that have no text as the value of an entry. -/
inductive IsTextless : Json Points → Prop
  | null : IsTextless .null
  | obj (members : List (Points × Json Points)) : IsTextless (.obj members)

end Json

namespace Mapping

section Named

/-- An entry under a text in a document. -/
def named (e : Points × Document) : Document × Document := (.str e.1, e.2)

theorem setEntry_named (key : Points) (value : Document) (entries : List (Points × Document)) :
    Document.setEntry (.str key) value (entries.map named)
      = (Keyed.put key value entries).map named := by
  induction entries with
  | nil => rfl
  | cons e rest ih =>
    obtain ⟨k, v⟩ := e
    have hsame : Document.sameKey (.str k) (.str key) = (k == key) := rfl
    rw [List.map_cons, named, Document.setEntry, hsame, Keyed.put]
    split
    · rfl
    · rw [ih]
      rfl

/-- Of several entries under one text the last counts. -/
theorem normalize_named {α : Type} {f : α → Points × Document} {g : α → Document} {xs : List α}
    (h : ∀ x ∈ xs, normalizeValue (f x).2 = .ok (g x)) (done : List (Points × Document)) :
    normalize (done.map named) (xs.map fun x => named (f x))
      = .ok ((Keyed.putAll done (xs.map fun x => ((f x).1, g x))).map named) := by
  induction xs generalizing done with
  | nil => rfl
  | cons x rest ih =>
    have hkey : normalizeKey (.str (f x).1) = .ok (.str (f x).1) := rfl
    rw [List.map_cons, named, normalize, hkey, h x List.mem_cons_self]
    simp only
    rw [setEntry_named, ih fun y hy => h y (List.mem_cons_of_mem x hy)]
    rfl

end Named

section Object

/-- The value of an entry with numbers, truth values and arrays replaced by their texts. -/
def entryValue : Json Points → Document
  | .null => .null
  | .obj members => Document.ofJson (.obj members)
  | v => .str v.entryText

theorem entryValue_of_not_isTextless {v : Json Points} (h : ¬v.IsTextless) :
    entryValue v = .str v.entryText := by
  cases v with
  | null => exact absurd .null h
  | obj members => exact absurd (.obj members) h
  | bool | int | float | str | arr => rfl

theorem normalizeValue_ofJson {v : Json Points} (h : v.IsConvertible) :
    normalizeValue (Document.ofJson v) = .ok (entryValue v) := by
  cases v with
  | null | bool | float | str => rfl
  | int n =>
    rw [Document.ofJson, normalizeValue, valueText?, Document.integerText_eq_ok h]
    rfl
  | arr items =>
    rw [Document.ofJson_arr, normalizeValue, valueText?,
      Document.joinTexts_ofJson (Json.isConvertible_arr.1 h)]
    rfl
  | obj members =>
    rw [Document.ofJson_obj, entryValue, Document.ofJson_obj]
    rfl

variable {members : List (Points × Json Points)}

theorem normalize_ofMember (hnames : (Keyed.keys members).Nodup)
    (h : ∀ m ∈ members, m.2.IsConvertible) :
    normalize [] (members.map Document.ofMember)
      = .ok (members.map fun m => named (m.1, entryValue m.2)) := by
  have hnormal := normalize_named (f := fun m : Points × Json Points => (m.1, Document.ofJson m.2))
    (fun m hm => normalizeValue_ofJson (h m hm)) []
  have hkeys : (Keyed.keys (members.map fun m => (m.1, entryValue m.2))).Nodup := by
    rw [Keyed.keys, List.map_map]
    exact hnames
  have hlist : Keyed.putAll [] (members.map fun m => (m.1, entryValue m.2)) = _ :=
    Keyed.ofList_eq_self hkeys
  rw [hlist, List.map_map] at hnormal
  exact hnormal

theorem entryOf?_of_not_isTextless {m : Points × Json Points} (h : ¬m.2.IsTextless) :
    entryOf? (named (m.1, entryValue m.2)) = some (m.1, m.2.entryText) := by
  rw [entryValue_of_not_isTextless h]
  rfl

theorem entryOf?_of_isTextless {m : Points × Json Points} (h : m.2.IsTextless) :
    entryOf? (named (m.1, entryValue m.2)) = none := by
  obtain ⟨name, v⟩ := m
  cases h with
  | null => rfl
  | obj members =>
    rw [entryValue, Document.ofJson_obj]
    rfl

theorem mapM_entryOf?_eq_some (h : ∀ m ∈ members, ¬m.2.IsTextless) :
    (members.map fun m => named (m.1, entryValue m.2)).mapM entryOf?
      = some (members.map fun m => (m.1, m.2.entryText)) := by
  induction members with
  | nil => rfl
  | cons m rest ih =>
    rw [List.map_cons, List.mapM_cons, entryOf?_of_not_isTextless (h m List.mem_cons_self),
      ih fun n hn => h n (List.mem_cons_of_mem m hn)]
    rfl

theorem mapM_entryOf?_eq_none {m : Points × Json Points} (hm : m ∈ members) (h : m.2.IsTextless) :
    (members.map fun m => named (m.1, entryValue m.2)).mapM entryOf? = none := by
  induction members with
  | nil => cases hm
  | cons n rest ih =>
    rw [List.map_cons, List.mapM_cons]
    rcases List.mem_cons.1 hm with rfl | hm
    · rw [entryOf?_of_isTextless h]
      rfl
    · rw [ih hm]
      cases entryOf? (named (n.1, entryValue n.2)) <;> rfl

/-- An object without nulls and objects among its values is the mapping of their texts. -/
theorem ofDocument_ofJson (hnames : (Keyed.keys members).Nodup)
    (hconvertible : ∀ m ∈ members, m.2.IsConvertible) (h : ∀ m ∈ members, ¬m.2.IsTextless) :
    ofDocument (Document.ofJson (.obj members))
      = .ok (members.map fun m => (m.1, m.2.entryText)) := by
  have hkeys : (Keyed.keys (members.map fun m => (m.1, m.2.entryText))).Nodup := by
    rw [Keyed.keys, List.map_map]
    exact hnames
  rw [Document.ofJson_obj, ofDocument, normalize_ofMember hnames hconvertible]
  simp only [mapM_entryOf?_eq_some h, Keyed.ofList_eq_self hkeys]

theorem ofDocument_ofJson_of_isTextless (hnames : (Keyed.keys members).Nodup)
    (hconvertible : ∀ m ∈ members, m.2.IsConvertible) {m : Points × Json Points} (hm : m ∈ members)
    (h : m.2.IsTextless) :
    ofDocument (Document.ofJson (.obj members)) = .error (.problem .invalidSchema) := by
  rw [Document.ofJson_obj, ofDocument, normalize_ofMember hnames hconvertible]
  simp only [mapM_entryOf?_eq_none hm h]

theorem ofDocument_ofJson_of_forall_ne {v : Json Points} (h : ∀ members, v ≠ .obj members) :
    ofDocument (Document.ofJson v) = .error (.problem .notMapping) := by
  cases v with
  | obj members => exact absurd rfl (h members)
  | arr items =>
    rw [Document.ofJson_arr]
    rfl
  | null | bool | int | float | str => rfl

end Object

variable {h : Host} {files : FileTree} {path : Path} {cs : List Char} {v : Json Points}

/-- The members of an object that is read have distinct names, and their values are the last ones
written under them. -/
theorem get?_of_resolved {written : Json Points} {members : List (Points × Json Points)}
    (hmembers : Json.obj members = written.resolved) :
    (Keyed.keys members).Nodup ∧ ∃ all, written = .obj all
      ∧ ∀ name, Keyed.get? name members = (Keyed.get? name all.reverse).map Json.resolved := by
  cases written with
  | obj all =>
    rw [Json.resolved_obj, Json.obj.injEq] at hmembers
    subst hmembers
    refine ⟨Keyed.nodup_keys_ofList _, all, rfl, fun name => ?_⟩
    rw [Keyed.ofList, Keyed.get?_putAll, ← List.map_reverse]
    exact (Option.or_none).trans (Keyed.get?_map Json.resolved name all.reverse)
  | null | bool | int | float | str => cases hmembers
  | arr items =>
    rw [Json.resolved_arr] at hmembers
    cases hmembers

/-- The three ways in which loading a JSON text ends. -/
theorem load_json_cases (hjson : path.isJson = true) (hcontains : Contains h files path cs)
    (hread : Json.read (String.ofList cs) = .ok v) (hroom : h.jsonOverflows cs = false) :
    (∃ members, v = .obj members ∧ (∀ e ∈ members, ¬e.2.IsTextless)
      ∧ load h files path = .ok (members.map fun e => (e.1, e.2.entryText)))
    ∨ (∃ members, v = .obj members ∧ (∃ e ∈ members, e.2.IsTextless)
      ∧ load h files path = .error (.file .invalidSchema path))
    ∨ (∀ members, v ≠ .obj members) ∧ load h files path = .error (.file .notMapping path) := by
  have hdocument : documentOf h path cs = .ok (Document.ofJson v) :=
    (documentOf_json hjson cs).trans (readJson_of_eq_ok hroom hread)
  have hconvertible := Json.isConvertible_of_read hread
  obtain ⟨written, -, hwritten⟩ := Json.read_eq_ok_iff.1 hread
  by_cases hobj : ∃ members, v = .obj members
  · obtain ⟨members, rfl⟩ := hobj
    have hnames := (get?_of_resolved hwritten).1
    rw [Json.isConvertible_obj] at hconvertible
    by_cases htextless : ∃ e ∈ members, e.2.IsTextless
    · obtain ⟨e, he, hnone⟩ := htextless
      refine .inr (.inl ⟨members, rfl, ⟨e, he, hnone⟩, ?_⟩)
      rw [load_of_contains hcontains, ofText, hdocument]
      simp only [ofDocument_ofJson_of_isTextless hnames hconvertible he hnone]
    · have hall : ∀ e ∈ members, ¬e.2.IsTextless := fun e he hnone => htextless ⟨e, he, hnone⟩
      refine .inl ⟨members, rfl, hall, ?_⟩
      rw [load_of_contains hcontains, ofText, hdocument]
      simp only [ofDocument_ofJson hnames hconvertible hall]
  · have hne : ∀ members, v ≠ .obj members := fun members h => hobj ⟨members, h⟩
    refine .inr (.inr ⟨hne, ?_⟩)
    rw [load_of_contains hcontains, ofText, hdocument]
    simp only [ofDocument_ofJson_of_forall_ne hne]

/-- What loading makes of a JSON text, on every host whose stack has room for the arrays and objects
in it. The text is read as what is written in it, with the last of several members of one name; its
names and texts may have lone surrogates in them. If this is an object without nulls and objects
among its values then loading gives the texts of the values, and otherwise it tells which of the two
is wrong. -/
theorem load_json (hjson : path.isJson = true) (hcontains : Contains h files path cs)
    (hread : Json.read (String.ofList cs) = .ok v) (hroom : h.jsonOverflows cs = false) :
    (∃ written : Json Points, Json.Token.lex cs = written.tokens ∧ v = written.resolved)
    ∧ (∀ members, v = .obj members → (Keyed.keys members).Nodup
      ∧ ∃ all, Json.Token.lex cs = (Json.obj all).tokens
        ∧ ∀ name, Keyed.get? name members = (Keyed.get? name all.reverse).map Json.resolved)
    ∧ ((∃ m, load h files path = .ok m)
      ↔ ∃ members, v = .obj members ∧ ∀ e ∈ members, ¬e.2.IsTextless)
    ∧ (∀ members m, v = .obj members → load h files path = .ok m →
      m = members.map fun e => (e.1, e.2.entryText))
    ∧ (load h files path = .error (.file .notMapping path) ↔ ∀ members, v ≠ .obj members)
    ∧ (load h files path = .error (.file .invalidSchema path)
      ↔ ∃ members, v = .obj members ∧ ∃ e ∈ members, e.2.IsTextless) := by
  obtain ⟨written, hlex, hwritten⟩ := Json.read_eq_ok_iff.1 hread
  rw [String.toList_ofList] at hlex
  refine ⟨⟨written, hlex, hwritten⟩, ?_, ?_⟩
  · rintro members rfl
    obtain ⟨hnames, all, rfl, hlast⟩ := get?_of_resolved hwritten
    exact ⟨hnames, all, hlex, hlast⟩
  obtain ⟨members, rfl, hall, hload⟩ | ⟨members, rfl, ⟨e, he, hnone⟩, hload⟩ | ⟨hne, hload⟩ :=
    load_json_cases hjson hcontains hread hroom
  · refine ⟨iff_of_true ⟨_, hload⟩ ⟨members, rfl, hall⟩, ?_, ?_, ?_⟩
    · rintro _ m ⟨rfl⟩ hm
      exact (Except.ok.inj (hload.symm.trans hm)).symm
    · rw [hload]
      exact iff_of_false nofun fun hne => hne members rfl
    · rw [hload]
      refine iff_of_false nofun ?_
      rintro ⟨_, ⟨rfl⟩, e, he, hnone⟩
      exact hall e he hnone
  · rw [hload]
    refine ⟨iff_of_false nofun ?_, nofun, iff_of_false nofun fun hne => hne members rfl,
      iff_of_true rfl ⟨members, rfl, e, he, hnone⟩⟩
    rintro ⟨_, ⟨rfl⟩, hall⟩
    exact hall e he hnone
  · rw [hload]
    refine ⟨iff_of_false nofun ?_, nofun, iff_of_true rfl hne, iff_of_false nofun ?_⟩
    · rintro ⟨members, rfl, -⟩
      exact hne members rfl
    · rintro ⟨members, rfl, -⟩
      exact hne members rfl

/-- A JSON text with two members of one name, the first of them without a text, and with two names
that are different surrogates. -/
def twiceText : String :=
  "\x7b\"b\": [true, null, \x7b\"c\": -7\x7d], \"a\": null, \"a\": \"x\","
    ++ " \"\\ud800\": \"y\", \"\\ud801\": \"\"\x7d"

def twice : FileTree := ⟨[], [(["v.json"], .file (Text.Utf8.encode twiceText))]⟩

/-- A null that a later member replaces does not count, and nor does one in an array. Names that are
different surrogates are different keys. -/
theorem load_json_twice :
    ∃ m, load .standard twice (Path.ofString "v.json") = .ok m
      ∧ m = [(Points.ofString "b", Points.ofString "True, None, \x7b'c': -7\x7d"),
        (Points.ofString "a", Points.ofString "x"), ([.surrogate 0], Points.ofString "y"),
        ([.surrogate 1], [])] := by
  have hread : Json.read (String.ofList (Text.unifyNewlines twiceText.toList))
      = .ok (.obj [(.ofString "b", .arr [.bool true, .null, .obj [(.ofString "c", .int (-7))]]),
        (.ofString "a", .str (.ofString "x")), ([.surrogate 0], .str (.ofString "y")),
        ([.surrogate 1], .str [])]) :=
    rfl
  have hcontains : Contains .standard twice (Path.ofString "v.json") _ := ⟨twiceText, rfl, rfl⟩
  have hroom : Host.standard.jsonOverflows (Text.unifyNewlines twiceText.toList) = false := by
    decide +kernel
  obtain ⟨-, -, hloads, htexts, -⟩ := load_json (by decide +kernel) hcontains hread hroom
  obtain ⟨m, hload⟩ := hloads.2 ⟨_, rfl, by simp; exact ⟨nofun, nofun, nofun, nofun⟩⟩
  exact ⟨m, hload, (htexts _ m rfl hload).trans (by decide +kernel)⟩

end Mapping

end PercentTemplate

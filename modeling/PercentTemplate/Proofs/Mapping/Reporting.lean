import PercentTemplate.Mapping.Load
import PercentTemplate.Proofs.Document.Json
import PercentTemplate.Proofs.Json.Grammar
import PercentTemplate.Proofs.Text.Utf8

/-!
# What loading reports

A file that gives no mapping is reported as such, with its path, unless something leaks: the system
does not open the file although it is there, its bytes are no text, an integer has too many digits
to be read or written, a YAML text has a scalar or an escape that stands for nothing, or values lie
too deep inside one another for the stack (`Mapping.Leaks`).

Main statement: loading gives a mapping or a report, or else the fault that leaks
(`Mapping.load_reports_unless_leaking`). It holds on every host, so neither a bound for the stack nor
a way of reading YAML is assumed.
-/

namespace PercentTemplate.Mapping

open Document (FailsJust failsJust_ok)
open Text (Points)

section Normal

/-- An entry whose text has an integer with too many digits. Other keys and values than those named
here are not turned into texts. -/
inductive IsLongEntry : Document × Document → Prop
  | key {n : Int} {v : Document} (h : (Document.int n).HoldsLong) : IsLongEntry (.int n, v)
  | number {k : Document} {n : Int} (h : (Document.int n).HoldsLong) : IsLongEntry (k, .int n)
  | list {k : Document} {items : List Document} (h : (Document.list items).HoldsLong) :
    IsLongEntry (k, .list items)

theorem failsJust_normalizeKey (k : Document) :
    FailsJust (normalizeKey k) (∃ n, k = .int n ∧ k.HoldsLong) := by
  cases k with
  | int n =>
    exact ((Document.failsJust_integerText n).map _).congr
      ⟨fun h => ⟨n, rfl, h⟩, fun ⟨_, _, h⟩ => h⟩
  | null | bool | float | str | bytes | date | moment | list | map | set | pair | again =>
    exact (failsJust_ok _).congr (iff_of_false id nofun)

theorem failsJust_normalizeValue (v : Document) :
    FailsJust (normalizeValue v)
      (((∃ n, v = .int n) ∨ ∃ items, v = .list items) ∧ v.HoldsLong) := by
  cases v with
  | int n =>
    exact (((Document.failsJust_integerText n).map _).map _).congr
      (iff_and_self.2 fun _ => .inl ⟨n, rfl⟩)
  | list items =>
    exact (((Document.failsJust_joinTexts items).map _).map _).congr
      (iff_and_self.2 fun _ => .inr ⟨items, rfl⟩)
  | null | bool | float | str | bytes | date | moment | map | set | pair | again =>
    exact (failsJust_ok _).congr (iff_of_false id (by rintro ⟨⟨_, ⟨⟩⟩ | ⟨_, ⟨⟩⟩, _⟩))

theorem isLongEntry_iff {k v : Document} :
    IsLongEntry (k, v) ↔ (∃ n, k = .int n ∧ k.HoldsLong)
      ∨ ((∃ n, v = .int n) ∨ ∃ items, v = .list items) ∧ v.HoldsLong := by
  constructor
  · intro h
    cases h with
    | key h => exact .inl ⟨_, rfl, h⟩
    | number h => exact .inr ⟨.inl ⟨_, rfl⟩, h⟩
    | list h => exact .inr ⟨.inr ⟨_, rfl⟩, h⟩
  · rintro (⟨n, rfl, h⟩ | ⟨⟨n, rfl⟩ | ⟨items, rfl⟩, h⟩)
    · exact .key h
    · exact .number h
    · exact .list h

theorem failsJust_normalize (done entries : List (Document × Document)) :
    FailsJust (normalize done entries) (∃ e ∈ entries, IsLongEntry e) := by
  induction entries generalizing done with
  | nil => exact (failsJust_ok done).congr (by simp)
  | cons e rest ih =>
    obtain ⟨k, v⟩ := e
    have hbind : normalize done ((k, v) :: rest) = normalizeKey k >>= fun k =>
        normalizeValue v >>= fun v => normalize (Document.setEntry k v done) rest := by
      rw [normalize]
      cases normalizeKey k with
      | error f => rfl
      | ok k => cases normalizeValue v <;> rfl
    rw [hbind]
    refine ((failsJust_normalizeKey k).bind fun k =>
      (failsJust_normalizeValue v).bind fun v => ih _).congr ?_
    simp only [List.mem_cons, exists_eq_or_imp, isLongEntry_iff, or_assoc]

/-- A document is refused for an integer just if it is a map with an entry whose text has one with
too many digits. -/
theorem ofDocument_eq_error_integer_iff {d : Document} {f : Integer.Fault} :
    ofDocument d = .error (.integer f)
      ↔ f = .textTooLong ∧ ∃ entries, d = .map entries ∧ ∃ e ∈ entries, IsLongEntry e := by
  cases d with
  | map entries =>
    have hnormal : ofDocument (.map entries) = .error (.integer f)
        ↔ normalize [] entries = .error f := by
      rw [ofDocument]
      split
      · rename_i g heq
        rw [heq]
        constructor <;> (intro h; cases h; rfl)
      · rename_i heq
        rw [heq]
        refine iff_of_false (fun h => ?_) nofun
        split at h <;> cases h
    rw [hnormal, failsJust_normalize [] entries f]
    simp
  | null | bool | int | float | str | bytes | date | moment | list | set | pair | again =>
    exact iff_of_false nofun nofun

end Normal

variable {h : Host} {files : FileTree} {path : Path} {cs : List Char} {f : LoadFault}

/-- The characters `cs` of a file that the system opens, each end of a line as one character. -/
def Contains (h : Host) (files : FileTree) (path : Path) (cs : List Char) : Prop :=
  ∃ s, bytesOf h files path = .ok (Text.Utf8.encode s) ∧ cs = Text.unifyNewlines s.toList

theorem Contains.unique {cs' : List Char} (hcs : Contains h files path cs)
    (hcs' : Contains h files path cs') : cs = cs' := by
  obtain ⟨s, hread, rfl⟩ := hcs
  obtain ⟨s', hread', rfl⟩ := hcs'
  have hbytes := Except.ok.inj (hread.symm.trans hread')
  have hdecode := Text.Utf8.decode_encode s
  rw [hbytes, Text.Utf8.decode_encode] at hdecode
  rw [Except.ok.inj hdecode]

/-- A fault that leaves loading without a report on the file. -/
inductive Leaks (h : Host) (files : FileTree) (path : Path) : LoadFault → Prop
  /-- The system does not open the file, and not because there is nothing. -/
  | access {f : FileTree.Fault} (hbytes : bytesOf h files path = .error f) (hf : f ≠ .notFound) :
    Leaks h files path (.access f path)
  /-- The bytes encode no text. -/
  | encoding {bytes : List UInt8} {f : Text.Utf8.Fault} (hbytes : bytesOf h files path = .ok bytes)
    (hdecode : Text.Utf8.decode bytes = .error f) : Leaks h files path (.encoding f)
  /-- Arrays and objects of a JSON text lie too deep inside one another. -/
  | depth {cs : List Char} (hjson : path.isJson = true) (hcontains : Contains h files path cs)
    (hroom : h.jsonOverflows cs = true) : Leaks h files path .tooDeep
  /-- A JSON text has an integer with too many digits. -/
  | literal {cs : List Char} {front rest : List Json.Token} {f : Integer.Fault}
    (hjson : path.isJson = true) (hcontains : Contains h files path cs)
    (hroom : h.jsonOverflows cs = false)
    (hlex : Json.Token.lex cs = front ++ .fault (.integer f) :: rest)
    (hfront : Json.Expectant front) : Leaks h files path (.integer f)
  /-- A YAML text has a scalar or an escape that stands for nothing, or lies too deep. -/
  | scalar {cs : List Char} {f : Yaml.Fault} (hyaml : path.isJson = false)
    (hcontains : Contains h files path cs) (hread : h.yaml cs = .error f) (hf : f ≠ .malformed) :
    Leaks h files path (.value f)
  /-- The lists of a YAML text lie too deep inside one another to be written. -/
  | textDepth {cs : List Char} {d : Document} (hyaml : path.isJson = false)
    (hcontains : Contains h files path cs) (hread : h.yaml cs = .ok d)
    (hroom : h.textOverflows d = true) : Leaks h files path .tooDeep
  /-- An entry of a YAML text has an integer with too many digits, not all of them written. -/
  | text {cs : List Char} {entries : List (Document × Document)} {e : Document × Document}
    (hyaml : path.isJson = false) (hcontains : Contains h files path cs)
    (hread : h.yaml cs = .ok (.map entries)) (hroom : h.textOverflows (.map entries) = false)
    (he : e ∈ entries) (hlong : IsLongEntry e) : Leaks h files path (.integer .textTooLong)

/-- A fault that says what is wrong with the file at a path. -/
def LoadFault.Reports (f : LoadFault) (path : Path) : Prop := ∃ p, f = .file p path

theorem reports_file (p : FileProblem) : (LoadFault.file p path).Reports path := ⟨p, rfl⟩

theorem readJson_of_eq_ok (hroom : h.jsonOverflows cs = false) {v : Json Points}
    (hread : Json.read (String.ofList cs) = .ok v) :
    readJson h path cs = .ok (Document.ofJson v) := by
  rw [readJson, if_neg (Bool.eq_false_iff.1 hroom), hread]

theorem readJson_eq_ok {d : Document} (hd : readJson h path cs = .ok d) :
    h.jsonOverflows cs = false
      ∧ ∃ v, Json.read (String.ofList cs) = .ok v ∧ d = Document.ofJson v := by
  unfold readJson at hd
  split at hd
  · cases hd
  · rename_i hroom
    split at hd
    · rename_i v hread
      cases hd
      exact ⟨Bool.eq_false_iff.2 hroom, v, hread, rfl⟩
    · cases hd
    · cases hd

theorem readYaml_of_eq_ok {d : Document} (hread : h.yaml cs = .ok d)
    (hroom : h.textOverflows d = false) : readYaml h path cs = .ok d := by
  rw [readYaml, hread]
  simp only [hroom, Bool.false_eq_true, if_false]

theorem readYaml_eq_ok {d : Document} (hd : readYaml h path cs = .ok d) :
    h.yaml cs = .ok d ∧ h.textOverflows d = false := by
  unfold readYaml at hd
  split at hd
  · rename_i hread
    split at hd
    · cases hd
    · rename_i hroom
      cases hd
      exact ⟨hread, Bool.eq_false_iff.2 hroom⟩
  · cases hd
  · cases hd

/-- A JSON text without a document is reported, or it lies too deep, or it has an integer with too
many digits. -/
theorem readJson_eq_error (hf : readJson h path cs = .error f) :
    f.Reports path ∨ f = .tooDeep ∧ h.jsonOverflows cs = true
      ∨ ∃ g, f = .integer g ∧ h.jsonOverflows cs = false
        ∧ Json.read (String.ofList cs) = .error (.integer g) := by
  unfold readJson at hf
  split at hf
  · rename_i hroom
    cases hf
    exact .inr (.inl ⟨rfl, hroom⟩)
  · rename_i hroom
    split at hf
    · cases hf
    · cases hf
      exact .inl (reports_file _)
    · rename_i g hread
      cases hf
      exact .inr (.inr ⟨g, rfl, Bool.eq_false_iff.2 hroom, hread⟩)

/-- A YAML text without a document is reported, or reading it fails in another way, or it lies too
deep to be written. -/
theorem readYaml_eq_error (hf : readYaml h path cs = .error f) :
    f.Reports path ∨ (∃ g, f = .value g ∧ h.yaml cs = .error g ∧ g ≠ .malformed)
      ∨ f = .tooDeep ∧ ∃ d, h.yaml cs = .ok d ∧ h.textOverflows d = true := by
  unfold readYaml at hf
  split at hf
  · rename_i d hread
    split at hf
    · rename_i hroom
      cases hf
      exact .inr (.inr ⟨rfl, d, hread, hroom⟩)
    · cases hf
  · cases hf
    exact .inl (reports_file _)
  · rename_i g hg hread
    cases hf
    exact .inr (.inl ⟨g, rfl, hread, hg⟩)

theorem readYaml_of_eq_error {g : Yaml.Fault} (hread : h.yaml cs = .error g) (hg : g ≠ .malformed) :
    readYaml h path cs = .error (.value g) := by
  unfold readYaml
  rw [hread]
  split
  · rename_i heq
    cases heq
  · rename_i heq
    cases heq
    exact absurd rfl hg
  · rename_i heq
    cases heq
    rfl

/-- No document of a JSON text has an integer with too many digits. -/
theorem ofDocument_ofJson_ne {s : String} {v : Json Points} (hv : Json.read s = .ok v)
    (f : Integer.Fault) : ofDocument (Document.ofJson v) ≠ .error (.integer f) := by
  rw [Ne, ofDocument_eq_error_integer_iff]
  rintro ⟨-, entries, hmap, e, he, hlong⟩
  refine Document.not_holdsLong_ofJson (Json.isConvertible_of_read hv) ?_
  rw [hmap, Document.holdsLong_map]
  refine ⟨e, he, ?_⟩
  cases hlong with
  | key h => exact .inl h
  | number h => exact .inr h
  | list h => exact .inr h

/-- A mapping is made of the document of a text. -/
theorem ofText_eq_ok_iff {m : Mapping Points} :
    ofText h path cs = .ok m ↔ ∃ d, documentOf h path cs = .ok d ∧ ofDocument d = .ok m := by
  unfold ofText
  constructor
  · intro hm
    split at hm
    · cases hm
    · rename_i d hread
      split at hm
      · rename_i hdocument
        cases hm
        exact ⟨d, hread, hdocument⟩
      · cases hm
      · cases hm
  · rintro ⟨d, hread, hdocument⟩
    simp only [hread, hdocument]

/-- A text that is no mapping has no document, or its document is reported, or an integer of it has
too many digits. -/
theorem ofText_eq_error (hf : ofText h path cs = .error f) :
    documentOf h path cs = .error f ∨ f.Reports path
      ∨ ∃ d g, documentOf h path cs = .ok d ∧ ofDocument d = .error (.integer g)
        ∧ f = .integer g := by
  unfold ofText at hf
  split at hf
  · rename_i hread
    cases hf
    exact .inl hread
  · rename_i d hread
    split at hf
    · cases hf
    · cases hf
      exact .inr (.inl (reports_file _))
    · rename_i g hinteger
      cases hf
      exact .inr (.inr ⟨d, g, hread, hinteger, rfl⟩)

theorem documentOf_json (hjson : path.isJson = true) (cs : List Char) :
    documentOf h path cs = readJson h path cs :=
  if_pos hjson

theorem documentOf_yaml (hyaml : path.isJson = false) (cs : List Char) :
    documentOf h path cs = readYaml h path cs :=
  if_neg (Bool.eq_false_iff.1 hyaml)

/-- What a text that is no mapping fails with is a report, or it leaks. -/
theorem leaks_of_ofText (hcontains : Contains h files path cs) (hf : ofText h path cs = .error f) :
    f.Reports path ∨ Leaks h files path f := by
  cases hjson : path.isJson with
  | true =>
    have hdocument := documentOf_json (h := h) hjson cs
    obtain hread | hreports | ⟨d, g, hread, hinteger, rfl⟩ := ofText_eq_error hf
    · obtain hreports | ⟨rfl, hroom⟩ | ⟨g, rfl, hroom, hinteger⟩ :=
        readJson_eq_error (hdocument ▸ hread)
      · exact .inl hreports
      · exact .inr (.depth hjson hcontains hroom)
      · rw [Json.read_eq_error_integer_iff, String.toList_ofList] at hinteger
        obtain ⟨front, rest, hlex, hfront⟩ := hinteger
        exact .inr (.literal hjson hcontains hroom hlex hfront)
    · exact .inl hreports
    · obtain ⟨-, v, hv, rfl⟩ := readJson_eq_ok (hdocument ▸ hread)
      exact absurd hinteger (ofDocument_ofJson_ne hv g)
  | false =>
    have hdocument := documentOf_yaml (h := h) hjson cs
    obtain hread | hreports | ⟨d, g, hread, hinteger, rfl⟩ := ofText_eq_error hf
    · obtain hreports | ⟨g, rfl, hvalue, hg⟩ | ⟨rfl, d, hd, hroom⟩ :=
        readYaml_eq_error (hdocument ▸ hread)
      · exact .inl hreports
      · exact .inr (.scalar hjson hcontains hvalue hg)
      · exact .inr (.textDepth hjson hcontains hd hroom)
    · exact .inl hreports
    · obtain ⟨rfl, entries, rfl, e, he, hlong⟩ := ofDocument_eq_error_integer_iff.1 hinteger
      obtain ⟨hyaml, hroom⟩ := readYaml_eq_ok (hdocument ▸ hread)
      exact .inr (.text hjson hcontains hyaml hroom he hlong)

theorem load_of_bytesOf {bytes : List UInt8} (hbytes : bytesOf h files path = .ok bytes) :
    load h files path = ofBytes h path bytes := by
  rw [load, hbytes]

/-- What loads is a file that the system opens. -/
theorem exists_bytesOf_of_load {m : Mapping Points} (hload : load h files path = .ok m) :
    ∃ bytes, bytesOf h files path = .ok bytes := by
  unfold load at hload
  split at hload
  · rename_i bytes hbytes
    exact ⟨bytes, hbytes⟩
  · cases hload
  · cases hload

/-- What the system opens is a file of the tree. -/
theorem read_of_bytesOf {bytes : List UInt8} (hbytes : bytesOf h files path = .ok bytes) :
    files.read path = .ok bytes := by
  unfold bytesOf at hbytes
  split at hbytes
  · cases hbytes
  · exact hbytes

theorem load_of_contains (hcontains : Contains h files path cs) :
    load h files path = ofText h path cs := by
  obtain ⟨s, hbytes, rfl⟩ := hcontains
  rw [load_of_bytesOf hbytes]
  simp only [ofBytes, Text.Utf8.decode_encode]

/-- What loading fails with is a report, or it leaks. -/
theorem leaks_of_load (hf : load h files path = .error f) :
    f.Reports path ∨ Leaks h files path f := by
  cases hbytes : bytesOf h files path with
  | ok bytes =>
    rw [load_of_bytesOf hbytes] at hf
    cases hdecode : Text.Utf8.decode bytes with
    | error g =>
      rw [ofBytes, hdecode] at hf
      cases hf
      exact .inr (.encoding hbytes hdecode)
    | ok cs =>
      have hcontains : Contains h files path (Text.unifyNewlines cs) := by
        refine ⟨String.ofList cs, ?_, by rw [String.toList_ofList]⟩
        rw [hbytes, Text.Utf8.decode_eq_ok_iff.1 hdecode]
      rw [ofBytes, hdecode] at hf
      exact leaks_of_ofText hcontains hf
  | error g =>
    rw [load, hbytes] at hf
    split at hf
    · rename_i heq
      cases heq
    · cases hf
      exact .inl (reports_file _)
    · rename_i hne heq
      cases heq
      cases hf
      exact .inr (.access hbytes hne)

theorem load_of_documentOf_eq_error (hcontains : Contains h files path cs)
    (hf : documentOf h path cs = .error f) : load h files path = .error f := by
  rw [load_of_contains hcontains, ofText, hf]

/-- What leaks is what loading fails with. -/
theorem load_of_leaks (hf : Leaks h files path f) : load h files path = .error f := by
  cases hf with
  | @access f hbytes hne =>
    rw [load, hbytes]
    cases f with
    | notFound => exact absurd rfl hne
    | _ => rfl
  | encoding hbytes hdecode => rw [load_of_bytesOf hbytes, ofBytes, hdecode]
  | depth hjson hcontains hroom =>
    refine load_of_documentOf_eq_error hcontains ?_
    rw [documentOf_json hjson, readJson, if_pos hroom]
  | literal hjson hcontains hroom hlex hfront =>
    have hinteger := Json.read_eq_error_integer_iff.2
      ⟨_, _, (congrArg _ String.toList_ofList).trans hlex, hfront⟩
    refine load_of_documentOf_eq_error hcontains ?_
    rw [documentOf_json hjson, readJson, if_neg (Bool.eq_false_iff.1 hroom), hinteger]
  | scalar hyaml hcontains hread hne =>
    refine load_of_documentOf_eq_error hcontains ?_
    rw [documentOf_yaml hyaml, readYaml_of_eq_error hread hne]
  | textDepth hyaml hcontains hread hroom =>
    refine load_of_documentOf_eq_error hcontains ?_
    rw [documentOf_yaml hyaml, readYaml, hread]
    exact if_pos hroom
  | text hyaml hcontains hread hroom he hlong =>
    have hinteger := ofDocument_eq_error_integer_iff.2 ⟨rfl, _, rfl, _, he, hlong⟩
    rw [load_of_contains hcontains, ofText, documentOf_yaml hyaml, readYaml_of_eq_ok hread hroom]
    simp only [hinteger]

theorem Leaks.not_reports (hf : Leaks h files path f) : ¬f.Reports path := by
  rintro ⟨p, rfl⟩
  cases hf

/-- On every host loading gives a mapping or a report that names the path, unless something leaks,
and what leaks comes out in place of a report. That the stack is used up is among what leaks, and a
mapping may have lone surrogates in its texts. -/
theorem load_reports_unless_leaking (h : Host) (files : FileTree) (path : Path) :
    ((∀ f, ¬Leaks h files path f) →
      (∃ m, load h files path = .ok m) ∨ ∃ p, load h files path = .error (.file p path))
    ∧ ∀ f, Leaks h files path f → load h files path = .error f ∧ ¬f.Reports path := by
  refine ⟨fun hleaks => ?_, fun f hf => ⟨load_of_leaks hf, hf.not_reports⟩⟩
  cases hload : load h files path with
  | ok m => exact .inl ⟨m, rfl⟩
  | error f =>
    obtain ⟨p, rfl⟩ | hleaks' := leaks_of_load hload
    · exact .inr ⟨p, rfl⟩
    · exact absurd hleaks' (hleaks f)

/-- A JSON text for which there is room and without a run of too many digits gives a mapping or a
report. -/
theorem load_json_of_short_runs (hjson : path.isJson = true)
    (hcontains : Contains h files path cs) (hroom : h.jsonOverflows cs = false)
    (hshort : ∀ digits, digits <:+: cs → (∀ d ∈ digits, d.isDigit = true) →
      digits.length ≤ Integer.maxDigits) :
    (∃ m, load h files path = .ok m) ∨ ∃ p, load h files path = .error (.file p path) := by
  cases hload : load h files path with
  | ok m => exact .inl ⟨m, rfl⟩
  | error f =>
    obtain ⟨p, rfl⟩ | hleaks := leaks_of_load hload
    · exact .inr ⟨p, rfl⟩
    -- The file is opened and is a JSON text, which leaves its depth and its integers.
    obtain ⟨s, hbytes, -⟩ := id hcontains
    cases hleaks with
    | access hbytes' => cases hbytes.symm.trans hbytes'
    | encoding hbytes' hdecode =>
      cases hbytes.symm.trans hbytes'
      rw [Text.Utf8.decode_encode] at hdecode
      cases hdecode
    | depth _ hcontains' hdeep =>
      rw [← hcontains.unique hcontains'] at hdeep
      rw [hroom] at hdeep
      cases hdeep
    | literal _ hcontains' _ hlex =>
      rw [← hcontains.unique hcontains'] at hlex
      obtain ⟨digits, hinfix, hdigits, hlong, -⟩ :=
        Json.Token.exists_digits_of_mem_lex (hlex ▸ List.mem_append_right _ List.mem_cons_self)
      exact absurd (hshort digits hinfix hdigits) (Nat.not_le.2 hlong)
    | scalar hyaml => simp [hyaml] at hjson
    | textDepth hyaml => simp [hyaml] at hjson
    | text hyaml => simp [hyaml] at hjson

/-- A YAML file whose only value is written like a date in the thirteenth month. -/
def thirteenthMonth : FileTree :=
  ⟨[], [(["v.yaml"], .file (Text.Utf8.encode "a: 2024-13-01"))]⟩

/-- A date that is none is not reported. -/
theorem load_reports_unless_leaking_thirteenthMonth :
    load .standard thirteenthMonth (Path.ofString "v.yaml")
      = .error (.value (.calendar .month)) := by
  have hcontains : Contains .standard thirteenthMonth (Path.ofString "v.yaml")
      (Text.unifyNewlines "a: 2024-13-01".toList) :=
    ⟨"a: 2024-13-01", by decide +kernel, rfl⟩
  have hfault : (match Yaml.read Host.standardRoom (Text.unifyNewlines "a: 2024-13-01".toList) with
      | .error f => some f
      | .ok _ => none) = some (.calendar .month) := by decide +kernel
  have hyaml : Host.standard.yaml = Yaml.read Host.standardRoom := rfl
  have hvalue : Host.standard.yaml (Text.unifyNewlines "a: 2024-13-01".toList)
      = .error (.calendar .month) := by
    rw [hyaml]
    split at hfault
    · rename_i heq
      rw [heq, Option.some.inj hfault]
    · cases hfault
  have hleaks : Leaks .standard thirteenthMonth (Path.ofString "v.yaml")
      (.value (.calendar .month)) :=
    .scalar (by decide +kernel) hcontains hvalue (by decide)
  exact ((load_reports_unless_leaking .standard thirteenthMonth _).2 _ hleaks).1

/-- A file with a byte that begins no character. -/
def strayByte : FileTree := ⟨[], [(["v.json"], .file [0xff])]⟩

/-- A byte that begins no character gives neither a mapping nor a report on the file. -/
theorem load_strayByte :
    strayByte.read (Path.ofString "v.json") = .ok [0xff]
      ∧ (∀ m, load .standard strayByte (Path.ofString "v.json") ≠ .ok m)
      ∧ ∀ p path, load .standard strayByte (Path.ofString "v.json") ≠ .error (.file p path) := by
  have hread : strayByte.read (Path.ofString "v.json") = .ok [0xff] := by decide +kernel
  have hload : load .standard strayByte (Path.ofString "v.json")
      = .error (.encoding ⟨0, 1, 0xff, .invalidStart⟩) := by
    have hbytes : bytesOf .standard strayByte (Path.ofString "v.json") = .ok [0xff] := by
      decide +kernel
    rw [load_of_bytesOf hbytes]
    rfl
  rw [hload]
  exact ⟨hread, nofun, nofun⟩

end PercentTemplate.Mapping

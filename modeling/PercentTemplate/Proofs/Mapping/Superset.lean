import PercentTemplate.Proofs.Mapping.Objects
import PercentTemplate.Proofs.Yaml.Value

/-!
# JSON files under other suffixes

What a JSON text has to keep to so that it is the same mapping when it is read as YAML. All that
the two formats do not share is in `Yaml.IsPortable`; for a portable text the documents are the
same, and a mapping is made of the document alone. To read a text as YAML takes more of the stack
than to read it as JSON, so there has to be room for it too.

Main statement: a JSON file that loads has the same mapping under any path that names a YAML file
(`Mapping.load_of_isPortable`).
-/

namespace PercentTemplate.Mapping

open Text (Points)

variable {h : Host} {files files' : FileTree} {p q : Path} {cs : List Char} {m : Mapping Points}
  {room : Nat}

/-- What loads is a text. -/
theorem exists_contains_of_load_eq_ok (hload : load h files p = .ok m) :
    ∃ cs, Contains h files p cs := by
  obtain ⟨bytes, hbytes⟩ := exists_bytesOf_of_load hload
  rw [load_of_bytesOf hbytes] at hload
  unfold ofBytes at hload
  split at hload
  · cases hload
  · rename_i cs hdecode
    refine ⟨_, String.ofList cs, ?_, rfl⟩
    rw [hbytes, Text.Utf8.decode_eq_ok_iff.1 hdecode]

/-- A JSON text that is a mapping is written as an object. -/
theorem exists_members_of_ofText_eq_ok (hjson : p.isJson = true) (hm : ofText h p cs = .ok m) :
    ∃ members, Json.Token.lex cs = (Json.obj members).tokens
      ∧ ofDocument (Document.ofJson (Json.obj members).resolved) = .ok m := by
  obtain ⟨d, hread, hdocument⟩ := ofText_eq_ok_iff.1 hm
  rw [documentOf_json hjson] at hread
  obtain ⟨-, v, hv, rfl⟩ := readJson_eq_ok hread
  obtain ⟨written, hlex, hwritten⟩ := Json.read_eq_ok_iff.1 hv
  rw [String.toList_ofList] at hlex
  by_cases hobj : ∃ members, v = .obj members
  · obtain ⟨members, rfl⟩ := hobj
    obtain ⟨-, all, rfl, -⟩ := get?_of_resolved hwritten
    exact ⟨all, hlex, hwritten ▸ hdocument⟩
  · rw [ofDocument_ofJson_of_forall_ne fun members hv => hobj ⟨members, hv⟩] at hdocument
    cases hdocument

/-- A portable JSON text of an object is the same document in both formats, if there is room. -/
theorem readYaml_of_isPortable {members : List (Points × Json Points)} (hport : Yaml.IsPortable cs)
    (hlex : Json.Token.lex cs = (Json.obj members).tokens)
    (hroom : Yaml.Compose.levelRoom * Json.nesting cs ≤ room) :
    readYaml (.ofRoom room) q cs = .ok (Document.ofJson (Json.obj members).resolved) := by
  rw [Json.nesting_eq_depth hlex] at hroom
  have hread : (Host.ofRoom room).yaml cs = .ok (Document.ofJson (Json.obj members).resolved) :=
    Yaml.read_eq_ok hport hlex hroom
  refine readYaml_of_eq_ok hread (decide_eq_false (Nat.not_lt.2 ?_))
  calc (Document.ofJson (Json.obj members).resolved).listDepth
    _ ≤ (Document.ofJson (Json.obj members).resolved).depth := Document.listDepth_le_depth _
    _ = (Json.obj members).resolved.depth := Document.depth_ofJson _
    _ ≤ (Json.obj members).depth := Json.depth_resolved_le _
    _ ≤ Yaml.Compose.levelRoom * (Json.obj members).depth :=
      Nat.le_mul_of_pos_left _ (Nat.succ_pos _)
    _ ≤ room := hroom

/-- What a path that names a JSON file loads is a text. If this is portable, and the stack has room
for reading its arrays and objects as YAML, then the same mapping is loaded from the same contents
at a path that names a YAML file. Texts with lone surrogates in them stay the same too. -/
theorem load_of_isPortable (hjson : p.isJson = true) (hyaml : q.isJson = false)
    (hsame : bytesOf (.ofRoom room) files' q = bytesOf (.ofRoom room) files p)
    (hload : load (.ofRoom room) files p = .ok m) :
    ∃ cs, Contains (.ofRoom room) files p cs
      ∧ (Yaml.IsPortable cs → Yaml.Compose.levelRoom * Json.nesting cs ≤ room →
        load (.ofRoom room) files' q = .ok m) := by
  obtain ⟨cs, hcontains⟩ := exists_contains_of_load_eq_ok hload
  refine ⟨cs, hcontains, fun hport hroom => ?_⟩
  have hcontains' : Contains (.ofRoom room) files' q cs := by
    obtain ⟨s, hbytes, hcs⟩ := hcontains
    exact ⟨s, hsame.trans hbytes, hcs⟩
  rw [load_of_contains hcontains] at hload
  obtain ⟨members, hlex, hdocument⟩ := exists_members_of_ofText_eq_ok hjson hload
  rw [load_of_contains hcontains', ofText_eq_ok_iff]
  refine ⟨_, ?_, hdocument⟩
  rw [documentOf_yaml hyaml, readYaml_of_isPortable hport hlex hroom]

/-- One text in a file of each format. -/
def bothFormats (text : String) : FileTree :=
  ⟨[], [(["v.json"], .file (Text.Utf8.encode text)), (["v.yaml"], .file (Text.Utf8.encode text))]⟩

theorem bytesOf_json_bothFormats (text : String) :
    bytesOf .standard (bothFormats text) (Path.ofString "v.json") = .ok (Text.Utf8.encode text) :=
  rfl

theorem bytesOf_yaml_bothFormats (text : String) :
    bytesOf .standard (bothFormats text) (Path.ofString "v.yaml") = .ok (Text.Utf8.encode text) :=
  rfl

/-- A text over two lines with a number that has a fraction and an exponent. -/
def sharedText : String := "\x7b\"a\": [2.5e+3, null],\n \"b\": \"c\"\x7d"

theorem words_sharedText : Json.Token.words sharedText.toList =
    [⟨[], ['\x7b'], .mark '\x7b'⟩, ⟨[], ['"', 'a', '"'], .text (.ofString "a")⟩,
      ⟨[], [':'], .mark ':'⟩, ⟨[' '], ['['], .mark '['⟩, ⟨[], ['2', '.', '5', 'e', '+', '3'],
        .scalar (.float (Json.Token.decimal false ['2'] ['5'] 3))⟩, ⟨[], [','], .mark ','⟩,
      ⟨[' '], ['n', 'u', 'l', 'l'], .scalar .null⟩, ⟨[], [']'], .mark ']'⟩, ⟨[], [','], .mark ','⟩,
      ⟨['\n', ' '], ['"', 'b', '"'], .text (.ofString "b")⟩, ⟨[], [':'], .mark ':'⟩,
      ⟨[' '], ['"', 'c', '"'], .text (.ofString "c")⟩, ⟨[], ['\x7d'], .mark '\x7d'⟩] := rfl

theorem isPortable_sharedText : Yaml.IsPortable sharedText.toList where
  plain := by
    have hall : (sharedText.toList.all fun c =>
        Yaml.isPrintable c && c != '\t' && (!Yaml.isBreak c || c == '\n')) = true := by
      decide +kernel
    simpa [List.all_eq_true, and_assoc, Bool.or_eq_true, Decidable.imp_iff_not_or] using hall
  text := by
    intro w hw body codes hspelling hbody front high low rest hcodes
    have hshort : ∀ w ∈ Json.Token.words sharedText.toList, w.spelling.head? = some '"' →
        w.spelling.length = 3 := by
      simp [words_sharedText]
    have hlength := hshort w hw (by rw [hspelling]; rfl)
    have hle := hbody.length_le
    simp only [hspelling, hcodes, List.length_cons, List.length_append, List.length_nil]
      at hlength hle
    omega
  float := by
    simp only [words_sharedText, List.forall_mem_cons]
    have hpointed : Yaml.IsPointed ['2', '.', '5', 'e', '+', '3'] := by
      refine ⟨by simp, fun front e rest heq he => ?_⟩
      rcases he with rfl | rfl
      · simp [List.cons_eq_append_iff] at heq
        obtain ⟨_, _, _, _, rfl⟩ := heq
        exact ⟨'+', ['3'], rfl, .inl rfl⟩
      · simp [List.cons_eq_append_iff] at heq
    simp [hpointed]
  key := by
    intro front w colon rest heq hcolon
    have hshort : ∀ w ∈ Json.Token.words sharedText.toList, w.spelling.length ≤ 6 := by
      simp [words_sharedText]
    have hblanks : ∀ w ∈ Json.Token.words sharedText.toList, w.token = .mark ':' →
        w.blanks = [] := by
      simp [words_sharedText]
    have hlength := hshort w (heq ▸ by simp)
    rw [hblanks colon (heq ▸ by simp) hcolon]
    exact ⟨List.not_mem_nil, by rw [List.length_nil]; omega⟩

/-- A list of a number and a null is the same text in both formats. -/
theorem load_of_isPortable_sharedText :
    ∃ m, load .standard (bothFormats sharedText) (Path.ofString "v.json") = .ok m
      ∧ load .standard (bothFormats sharedText) (Path.ofString "v.yaml") = .ok m
      ∧ m.value? (.ofString "b") = some (.ofString "c") := by
  have hcontains : Contains .standard (bothFormats sharedText) (Path.ofString "v.json")
      sharedText.toList :=
    ⟨sharedText, bytesOf_json_bothFormats _, rfl⟩
  have hread : Json.read (String.ofList sharedText.toList)
      = .ok (.obj [(.ofString "a",
        .arr [.float (Json.Token.decimal false ['2'] ['5'] 3), .null]),
        (.ofString "b", .str (.ofString "c"))]) := rfl
  have hroom : Yaml.Compose.levelRoom * Json.nesting sharedText.toList ≤ Host.standardRoom := by
    decide +kernel
  have hjson : Host.standard.jsonOverflows sharedText.toList = false := by decide +kernel
  obtain ⟨members, hmembers, -, hload⟩ | ⟨members, hmembers, ⟨e, he, hnone⟩, -⟩ | ⟨hne, -⟩ :=
    load_json_cases (by decide +kernel) hcontains hread hjson
  · cases hmembers
    refine ⟨_, hload, ?_, rfl⟩
    obtain ⟨cs, hcontains', hyaml⟩ := load_of_isPortable (q := Path.ofString "v.yaml")
      (by decide +kernel) (by decide +kernel)
      ((bytesOf_yaml_bothFormats _).trans (bytesOf_json_bothFormats _).symm) hload
    obtain rfl := hcontains.unique hcontains'
    exact hyaml isPortable_sharedText hroom
  · cases hmembers
    rw [List.mem_cons, List.mem_singleton] at he
    obtain rfl | rfl := he <;> cases hnone
  · exact absurd rfl (hne _)

/-- A text with a tab between its words. -/
def tabbedText : String := "\x7b\"a\":\t\"b\"\x7d"

/-- Outside strings a tab is a blank in JSON, and nothing in YAML. -/
theorem load_tabbedText :
    bytesOf .standard (bothFormats tabbedText) (Path.ofString "v.yaml")
        = bytesOf .standard (bothFormats tabbedText) (Path.ofString "v.json")
      ∧ load .standard (bothFormats tabbedText) (Path.ofString "v.json")
        = .ok [(.ofString "a", .ofString "b")]
      ∧ load .standard (bothFormats tabbedText) (Path.ofString "v.yaml")
        = .error (.file .invalidYaml (Path.ofString "v.yaml")) := by
  refine ⟨(bytesOf_yaml_bothFormats _).trans (bytesOf_json_bothFormats _).symm, ?_, ?_⟩
  · decide +kernel
  · decide +kernel

end PercentTemplate.Mapping

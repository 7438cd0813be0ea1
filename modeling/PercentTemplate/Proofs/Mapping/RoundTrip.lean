import PercentTemplate.Proofs.Files.Tree
import PercentTemplate.Proofs.Json.RoundTrip
import PercentTemplate.Proofs.Mapping.Objects

/-!
# Mappings written and loaded

A mapping is written as a JSON object of texts. Each stage on the way back undoes one on the way
there: the bytes are those of the text, unifying newlines leaves the text alone because control
characters are escaped in it, reading gives the members in order, and texts are neither changed nor
refused by normalisation. Nothing lies deep in an object of texts, so every stack has room for it.

Main statement: a mapping that is written to a JSON file is what is loaded from it
(`Mapping.load_of_writeJson`).
-/

namespace PercentTemplate.Mapping

open Text (Points)

variable {values : Mapping} {h : Host} {path : Path}

/-- The JSON object that a mapping is written as. -/
def toJson (values : Mapping) : Json := .obj (values.map fun e => (e.1, .str e.2))

theorem isExact_toJson (values : Mapping) : values.toJson.IsExact := by
  refine .obj fun m hm => ?_
  obtain ⟨e, -, rfl⟩ := List.mem_map.1 hm
  exact .str e.2

theorem sorted_toJson (hkeys : (Keyed.keys values).Nodup) :
    values.toJson.sorted = toJson (Json.sortMembers values) := by
  have hnames : Keyed.keys (values.map fun e => (e.1, Json.str e.2)) = Keyed.keys values := by
    rw [Keyed.keys, List.map_map]
    rfl
  rw [toJson, Json.sorted_obj (hnames ▸ hkeys), Json.sortMembers_map, List.map_map, toJson]
  rfl

/-- A member of an object that a mapping is read as. -/
def textMember (e : String × String) : Points × Json Points :=
  (.ofString e.1, .str (.ofString e.2))

theorem wide_toJson (values : Mapping) : values.toJson.wide = .obj (values.map textMember) := by
  rw [toJson, Json.wide_obj, List.map_map]
  rfl

theorem ofDocument_ofJson_toJson (hkeys : (Keyed.keys values).Nodup) :
    ofDocument (Document.ofJson values.toJson.wide) = .ok values.wide := by
  have hnames : (Keyed.keys (values.map textMember)).Nodup :=
    Keyed.nodup_keys_map_of_injective Points.ofString_injective
      (fun v => (.str (.ofString v) : Json Points)) hkeys
  rw [wide_toJson, ofDocument_ofJson hnames]
  · rw [List.map_map]
    rfl
  · rw [List.forall_mem_map]
    exact fun e _ => .str _
  · rw [List.forall_mem_map]
    intro e _ hnone
    cases hnone

/-- What a mapping is written as has nothing inside its object. -/
theorem nesting_chars_toJson (values : Mapping) : Json.nesting values.toJson.chars ≤ 1 := by
  rw [Json.nesting_eq_depth (Json.lex_chars (isExact_toJson values)), toJson, Json.written_obj]
  refine Nat.succ_le_succ (Json.depthOfMembers_le_iff.2 (List.forall_mem_map.2 fun m hm => ?_))
  obtain ⟨e, -, rfl⟩ := List.mem_map.1 ((Json.sortMembers_perm _).mem_iff.1 hm)
  exact Nat.le_refl 0

/-- Unifying newlines leaves the text of a JSON value alone. -/
theorem unifyNewlines_chars {v : Json} (hexact : v.IsExact) :
    Text.unifyNewlines (Json.chars v) = Json.chars v := by
  refine Text.unifyNewlines_eq_self fun hmem => ?_
  exact absurd (hexact.le_toNat_of_mem _ hmem) (by decide)

theorem ofBytes_render (hkeys : (Keyed.keys values).Nodup) (hjson : path.isJson = true) :
    ofBytes h path (Text.Utf8.encode values.toJson.render)
      = .ok (wide (Json.sortMembers values)) := by
  have hread : Json.read (String.ofList values.toJson.chars)
      = .ok (toJson (Json.sortMembers values)).wide :=
    sorted_toJson hkeys ▸ Json.read_render (isExact_toJson values)
  have hroom : h.jsonOverflows values.toJson.chars = false :=
    h.jsonOverflows_of_nesting_le _ (nesting_chars_toJson values)
  have hdocument := ofDocument_ofJson_toJson (Json.sortMembers_nodup hkeys)
  rw [ofBytes, Text.Utf8.decode_encode]
  simp only [Json.render, String.toList_ofList, unifyNewlines_chars (isExact_toJson values)]
  rw [ofText_eq_ok_iff]
  exact ⟨_, (documentOf_json hjson _).trans (readJson_of_eq_ok hroom hread), hdocument⟩

/-- A mapping that is written to a JSON file is what is loaded from it, on every host that opens the
file: it has the same entries in the order of their keys. -/
theorem load_of_writeJson {files files' : FileTree} (hkeys : (Keyed.keys values).Nodup)
    (hjson : path.isJson = true) (hopens : h.refusal? path = none)
    (hwrite : files.writeJson path values.toJson = (files', none)) :
    ∃ loaded, load h files' path = .ok loaded ∧ loaded.Perm values.wide
      ∧ ∀ key, loaded.value? key = values.wide.value? key := by
  have hperm : (wide (Json.sortMembers values)).Perm values.wide :=
    (Json.sortMembers_perm values).map _
  have hbytes : bytesOf h files' path = .ok (Text.Utf8.encode values.toJson.render) := by
    rw [bytesOf, hopens]
    exact FileTree.read_of_writeJson hwrite
  refine ⟨wide (Json.sortMembers values), ?_, hperm, fun key => ?_⟩
  · rw [load_of_bytesOf hbytes]
    exact ofBytes_render hkeys hjson
  · exact Keyed.get?_perm hperm (Keyed.nodup_keys_map_of_injective Points.ofString_injective
      Points.ofString (Json.sortMembers_nodup hkeys)) key

/-- Quotes, line ends, control characters and a byte order mark come back, also in the empty key. -/
theorem load_of_writeJson_controls :
    ∃ files' loaded, (Path.ofString "out/Values.JSON").isJson = true
      ∧ FileTree.empty.writeJson (Path.ofString "out/Values.JSON")
        (toJson [("\"\\\r\n", "\r\x00\x1b\u2028"), ("", "\ufeff")]) = (files', none)
      ∧ load .standard files' (Path.ofString "out/Values.JSON") = .ok loaded
      ∧ loaded.value? (.ofString "\"\\\r\n") = some (.ofString "\r\x00\x1b\u2028")
      ∧ loaded.value? (.ofString "") = some (.ofString "\ufeff") := by
  obtain ⟨files', hwrite⟩ : ∃ files', FileTree.empty.writeJson (Path.ofString "out/Values.JSON")
      (toJson [("\"\\\r\n", "\r\x00\x1b\u2028"), ("", "\ufeff")]) = (files', none) :=
    ⟨_, Prod.ext rfl (by decide +kernel)⟩
  have hjson : (Path.ofString "out/Values.JSON").isJson = true := by decide +kernel
  have hopens : Host.standard.refusal? (Path.ofString "out/Values.JSON") = none := by
    decide +kernel
  obtain ⟨loaded, hload, -, hvalue⟩ := load_of_writeJson (by decide) hjson hopens hwrite
  exact ⟨files', loaded, hjson, hwrite, hload, hvalue _, hvalue _⟩

end PercentTemplate.Mapping

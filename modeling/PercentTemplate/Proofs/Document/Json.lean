import PercentTemplate.Proofs.Document.Text
import PercentTemplate.Proofs.Json.Emission
import PercentTemplate.Proofs.Json.Nesting

/-!
# Documents from JSON

The document that a JSON value is has the same structure, and the integers in it are those of the
value. If they can all be converted, the document has a text (`Document.not_holdsLong_ofJson`), and
that is the one that the value has by itself (`Document.literal_ofJson`, `Document.text_ofJson`). It
is as deep as the value (`Document.depth_ofJson`).
-/

namespace PercentTemplate

open Text (Points)

namespace Json

mutual

/-- The form of a value inside another one. -/
def literal : Json Points → String
  | null => "None"
  | bool b => if b then "True" else "False"
  | int n => toString n
  | float x => FloatText.render FloatText.plain x
  | str s => Text.quotedPoints s
  | arr items => "[" ++ String.intercalate ", " (itemLiterals items) ++ "]"
  | obj members => "\x7b" ++ String.intercalate ", " (memberLiterals members) ++ "\x7d"

def itemLiterals : List (Json Points) → List String
  | [] => []
  | v :: rest => literal v :: itemLiterals rest

def memberLiterals : List (Points × Json Points) → List String
  | [] => []
  | (name, v) :: rest => (Text.quotedPoints name ++ ": " ++ literal v) :: memberLiterals rest

end

/-- The form of a value on its own: a text is itself. -/
def shown : Json Points → Points
  | str s => s
  | v => .ofString v.literal

theorem literal_arr (items : List (Json Points)) :
    literal (.arr items) = "[" ++ String.intercalate ", " (items.map literal) ++ "]" := by
  have hitems : itemLiterals items = items.map literal := by
    induction items with
    | nil => rfl
    | cons v rest ih => rw [itemLiterals, ih, List.map_cons]
  rw [literal, hitems]

theorem literal_obj (members : List (Points × Json Points)) :
    literal (.obj members) = "\x7b" ++ String.intercalate ", "
      (members.map fun m => Text.quotedPoints m.1 ++ ": " ++ m.2.literal) ++ "\x7d" := by
  have hmembers : memberLiterals members
      = members.map fun m => Text.quotedPoints m.1 ++ ": " ++ m.2.literal := by
    induction members with
    | nil => rfl
    | cons m rest ih => rw [memberLiterals, ih, List.map_cons]
  rw [literal, hmembers]

end Json

namespace Document

theorem ofJson_arr (items : List (Json Points)) :
    ofJson (.arr items) = .list (items.map ofJson) := by
  have hitems : ofJsonItems items = items.map ofJson := by
    induction items with
    | nil => rfl
    | cons v rest ih => rw [ofJsonItems, ih, List.map_cons]
  rw [ofJson, hitems]

/-- The entry that a member of a JSON object is. -/
def ofMember (m : Points × Json Points) : Document × Document := (.str m.1, ofJson m.2)

theorem ofJson_obj (members : List (Points × Json Points)) :
    ofJson (.obj members) = .map (members.map ofMember) := by
  have hmembers : ofJsonMembers members = members.map ofMember := by
    induction members with
    | nil => rfl
    | cons m rest ih => rw [ofJsonMembers, ih, List.map_cons, ofMember]
  rw [ofJson, hmembers]

theorem depthOfItems_map_ofJson {items : List (Json Points)}
    (h : ∀ v ∈ items, (ofJson v).depth = v.depth) :
    depthOfItems (items.map ofJson) = Json.depthOfItems items := by
  induction items with
  | nil => rfl
  | cons v rest ih =>
    rw [List.map_cons, depthOfItems, h v List.mem_cons_self,
      ih fun w hw => h w (List.mem_cons_of_mem v hw), Json.depthOfItems]

theorem depthOfEntries_map_ofMember {members : List (Points × Json Points)}
    (h : ∀ m ∈ members, (ofJson m.2).depth = m.2.depth) :
    depthOfEntries (members.map ofMember) = Json.depthOfMembers members := by
  induction members with
  | nil => rfl
  | cons m rest ih =>
    have hname : (str m.1).depth = 0 := rfl
    rw [List.map_cons, ofMember, depthOfEntries, hname, Nat.zero_max, h m List.mem_cons_self,
      ih fun n hn => h n (List.mem_cons_of_mem m hn), Json.depthOfMembers]

/-- The document of a value is as deep as the value. -/
theorem depth_ofJson (v : Json Points) : (ofJson v).depth = v.depth := by
  induction v with
  | null | bool | int | float | str => rfl
  | arr items ih => rw [ofJson_arr, depth, depthOfItems_map_ofJson ih, Json.depth]
  | obj members ih => rw [ofJson_obj, depth, depthOfEntries_map_ofMember ih, Json.depth]

theorem depthInLists_le (entries : List (Document × Document)) :
    depthInLists entries ≤ depthOfEntries entries := by
  induction entries with
  | nil => exact Nat.le_refl _
  | cons e rest ih =>
    obtain ⟨k, v⟩ := e
    cases v <;> simp only [depthInLists, depthOfEntries, depth] <;> omega

/-- The lists in a document are no deeper than the document. -/
theorem listDepth_le_depth (d : Document) : d.listDepth ≤ d.depth := by
  cases d with
  | map entries => exact Nat.le_succ_of_le (depthInLists_le entries)
  | null | bool | int | float | str | bytes | date | moment | list | set | pair | again =>
    exact Nat.zero_le _

theorem not_holdsLong_ofJson {v : Json Points} (h : v.IsConvertible) : ¬(ofJson v).HoldsLong := by
  induction v with
  | null | bool | float | str => exact nofun
  | int n =>
    rw [ofJson, holdsLong_int]
    exact Nat.not_lt.2 (Json.isConvertible_int.1 h)
  | arr items ih =>
    rw [ofJson_arr, holdsLong_list]
    rintro ⟨d, hd, hlong⟩
    obtain ⟨v, hv, rfl⟩ := List.mem_map.1 hd
    exact ih v hv (Json.isConvertible_arr.1 h v hv) hlong
  | obj members ih =>
    rw [ofJson_obj, holdsLong_map]
    rintro ⟨e, he, hlong⟩
    obtain ⟨m, hm, rfl⟩ := List.mem_map.1 he
    rcases hlong with hlong | hlong
    · cases hlong
    · exact ih m hm (Json.isConvertible_obj.1 h m hm) hlong

/-- A conversion that succeeds for each element succeeds for all of them. -/
theorem mapM_map_eq_ok {α β γ : Type} {f : α → β} {g : β → Except Integer.Fault γ} {k : α → γ}
    {xs : List α} (h : ∀ x ∈ xs, g (f x) = .ok (k x)) : (xs.map f).mapM g = .ok (xs.map k) := by
  induction xs with
  | nil => rfl
  | cons x xs ih =>
    rw [List.map_cons, List.mapM_cons, h x List.mem_cons_self,
      ih fun y hy => h y (List.mem_cons_of_mem x hy)]
    rfl

theorem integerText_eq_ok {n : Int} (h : (Json.int n : Json Points).IsConvertible) :
    Integer.text n = .ok (toString n) := by
  rw [Integer.text, if_neg (Nat.not_lt.2 (Json.isConvertible_int.1 h))]

theorem literal_ofJson {v : Json Points} (h : v.IsConvertible) :
    (ofJson v).literal = .ok v.literal := by
  induction v with
  | null | bool | float | str => rfl
  | int n =>
    rw [ofJson, literal, integerText_eq_ok h]
    rfl
  | arr items ih =>
    rw [Json.isConvertible_arr] at h
    rw [ofJson_arr, literal, literals_eq_mapM, mapM_map_eq_ok fun v hv => ih v hv (h v hv),
      Json.literal_arr]
    rfl
  | obj members ih =>
    rw [Json.isConvertible_obj] at h
    have hentry : ∀ m ∈ members, entryLiteral (ofMember m)
        = .ok (Text.quotedPoints m.1 ++ ": " ++ m.2.literal) := by
      intro m hm
      rw [entryLiteral, ofMember, ih m hm (h m hm)]
      rfl
    rw [ofJson_obj, literal, entryLiterals_eq_mapM, mapM_map_eq_ok hentry, Json.literal_obj]
    rfl

theorem text_ofJson {v : Json Points} (h : v.IsConvertible) : (ofJson v).text = .ok v.shown := by
  cases v with
  | str s => rfl
  | null | bool | int | float | arr | obj =>
    exact congrArg (Except.map Points.ofString) (literal_ofJson h)

theorem joinTexts_ofJson {items : List (Json Points)} (h : ∀ v ∈ items, v.IsConvertible) :
    joinTexts (items.map ofJson)
      = .ok ((Points.ofString ", ").intercalate (items.map Json.shown)) := by
  rw [joinTexts, mapM_map_eq_ok fun v hv => text_ofJson (h v hv)]
  rfl

end Document

end PercentTemplate

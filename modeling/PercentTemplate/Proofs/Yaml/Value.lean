import PercentTemplate.Proofs.Document.Json
import PercentTemplate.Proofs.Yaml.Node
import PercentTemplate.Yaml.Value

/-!
# The documents of nodes that represent JSON values

Nodes that represent a JSON value have its document as their value (`Yaml.Graph.document_eq`).

While collections are filled, every node that has a cell is filled or still waits for it
(`Yaml.Builder.IsPartial`), and filling one leaves less work (`Yaml.Builder.work`). In the end
nothing waits, and what has been filled unfolds to the document (`Yaml.Cell.unfold_eq`): parts have
greater numbers than the whole, so nothing contains itself.
-/

namespace PercentTemplate.Yaml

open Text (Points)

/-- The text of a scalar node. -/
def nameOf (nodes : Array Node) (id : Nat) : Points :=
  match nodes[id]? with
  | some ⟨_, .scalar text⟩ => text
  | _ => []

/-- An entry under a text. -/
def textEntry (e : Points × Nat) : Document × Nat := (.str e.1, e.2)

/-- The entries of a map whose keys are texts; of several with one name the last counts. -/
def namedEntries (nodes : Array Node) (es : List (Nat × Nat)) : List (Document × Nat) :=
  (Keyed.ofList (es.map fun e => (nameOf nodes e.1, e.2))).map textEntry

/-- A node has been given a value, which may still be empty. -/
def HasCell (cells : Array (Option Cell)) (id : Nat) : Prop := ∃ c, cells[id]? = some (some c)

/-- A node has its value, and its parts have been given one. -/
inductive IsFilled (nodes : Array Node) (cells : Array (Option Cell)) (id : Nat) : Prop
  | scalar {tag : Tag} {text : Points} {d : Document}
    (hnode : nodes[id]? = some ⟨tag, .scalar text⟩) (hvalue : Scalar.value tag text = .ok d)
    (hcell : cells[id]? = some (some (.scalar d)))
  | list {items : List Nat} (hnode : nodes[id]? = some ⟨.seq, .sequence items⟩)
    (hcell : cells[id]? = some (some (.list items))) (h : ∀ i ∈ items, HasCell cells i)
  | map {es : List (Nat × Nat)} (hnode : nodes[id]? = some ⟨.map, .mapping es⟩)
    (hcell : cells[id]? = some (some (.map (namedEntries nodes es))))
    (h : ∀ e ∈ es, HasCell cells e.2)

section Unfold

variable {nodes : Array Node} {cells : Array (Option Cell)} {id : Nat} {v : Json Points}

theorem nameOf_eq {tag : Tag} {text : Points} (h : nodes[id]? = some ⟨tag, .scalar text⟩) :
    nameOf nodes id = text := by
  rw [nameOf, h]

/-- Entries whose values have documents are the members of these documents. -/
theorem map_namedEntries {members : List ((Nat × Nat) × (Points × Json Points))}
    {inner : Nat → Document}
    (hkey : ∀ m ∈ members, nodes[m.1.1]? = some ⟨.str, .scalar m.2.1⟩)
    (hinner : ∀ m ∈ members, inner m.1.2 = Document.ofJson m.2.2.resolved) :
    (namedEntries nodes (members.map Prod.fst)).map (fun e => (e.1, inner e.2))
      = (Keyed.ofList ((members.map Prod.snd).map Json.resolvedMember)).map Document.ofMember := by
  have hnames : (members.map Prod.fst).map (fun e => (nameOf nodes e.1, e.2))
      = members.map fun m => (m.2.1, m.1.2) := by
    rw [List.map_map]
    exact List.map_congr_left fun m hm => Prod.ext (nameOf_eq (hkey m hm)) rfl
  have hvalues : (members.map fun m => (m.2.1, m.1.2)).map (fun e => (e.1, inner e.2))
      = (members.map fun m => (m.2.1, m.2.2.resolved)).map
        fun e => (e.1, Document.ofJson e.2) := by
    rw [List.map_map, List.map_map]
    exact List.map_congr_left fun m hm => Prod.ext rfl (hinner m hm)
  have hmembers : (members.map Prod.snd).map Json.resolvedMember
      = members.map fun m => (m.2.1, m.2.2.resolved) := by
    rw [List.map_map]
    rfl
  let withText (e : Points × Document) : Document × Document := (.str e.1, e.2)
  calc (namedEntries nodes (members.map Prod.fst)).map (fun e => (e.1, inner e.2))
      = ((Keyed.ofList (members.map fun m => (m.2.1, m.1.2))).map
          fun e => (e.1, inner e.2)).map withText := by
        rw [namedEntries, hnames, List.map_map, List.map_map]
        rfl
    _ = ((Keyed.ofList (members.map fun m => (m.2.1, m.2.2.resolved))).map
          fun e => (e.1, Document.ofJson e.2)).map withText := by
        rw [← Keyed.ofList_map, hvalues, Keyed.ofList_map]
    _ = _ := by
        rw [hmembers, List.map_map]
        rfl

/-- The collections around a part have smaller numbers. -/
theorem lt_of_mem_around {around : List Nat} {depth a child : Nat} (haround : ∀ a ∈ around, a < id)
    (hlt : id < child) (ha : a ∈ if depth < 2 then [] else id :: around) : a < child := by
  split at ha
  · cases ha
  · rcases List.mem_cons.1 ha with rfl | ha
    · exact hlt
    · exact Nat.lt_trans (haround a ha) hlt

theorem contains_eq_false {around : List Nat} (haround : ∀ a ∈ around, a < id) :
    around.contains id = false := by
  rw [Bool.eq_false_iff]
  exact fun h => Nat.lt_irrefl _ (haround _ (List.contains_iff_mem.1 h))

/-- There is fuel for a node and enough is left for the parts behind it. -/
theorem exists_fuel {n : Node} {fuel : Nat} (hnode : nodes[id]? = some n)
    (hfuel : nodes.size < fuel + id) :
    ∃ k, fuel = k + 1 ∧ ∀ child, id < child → nodes.size < k + child := by
  have hlt := (getElem?_eq_some_iff.1 hnode).1
  exact ⟨fuel - 1, by omega, fun child h => by omega⟩

/-- What has been filled unfolds to the document of the value. -/
theorem Cell.unfold_eq (hfilled : ∀ id, HasCell cells id → IsFilled nodes cells id)
    (h : Represents nodes id v) (hcell : HasCell cells id) (fuel : Nat) (around : List Nat)
    (depth : Nat) (hfuel : nodes.size < fuel + id) (haround : ∀ a ∈ around, a < id) :
    unfold cells fuel around depth id = Document.ofJson v.resolved := by
  induction h generalizing fuel around depth with
  | @scalar id tag text v hnode hvalue =>
    obtain ⟨fuel, rfl, -⟩ := exists_fuel hnode hfuel
    cases hfilled id hcell with
    | scalar hnode' hvalue' hcell' =>
      cases hnode.symm.trans hnode'
      cases hvalue.symm.trans hvalue'
      rw [Cell.unfold, hcell']
      rfl
    | list hnode' => cases hnode.symm.trans hnode'
    | map hnode' => cases hnode.symm.trans hnode'
  | @arr id items hnode hless hvalues ih =>
    obtain ⟨fuel, rfl, hinside⟩ := exists_fuel hnode hfuel
    cases hfilled id hcell with
    | scalar hnode' => cases hnode.symm.trans hnode'
    | map hnode' => cases hnode.symm.trans hnode'
    | list hnode' hcell' hparts =>
      cases hnode.symm.trans hnode'
      have hinner : ∀ p ∈ items, unfold cells fuel (if depth < 2 then [] else id :: around)
          (depth + 1) p.1 = Document.ofJson p.2.resolved := fun p hp =>
        ih p hp (hparts p.1 (List.mem_map_of_mem hp)) fuel _ (depth + 1) (hinside _ (hless p hp))
          fun a => lt_of_mem_around haround (hless p hp)
      rw [Cell.unfold, hcell']
      simp only [Option.join_some, contains_eq_false haround, Bool.false_eq_true, if_false]
      rw [Json.resolved_arr, Document.ofJson_arr, List.map_map, List.map_map, List.map_map]
      exact congrArg _ (List.map_congr_left hinner)
  | @obj id members hnode hkey hless hvalues ih =>
    obtain ⟨fuel, rfl, hinside⟩ := exists_fuel hnode hfuel
    cases hfilled id hcell with
    | scalar hnode' => cases hnode.symm.trans hnode'
    | list hnode' => cases hnode.symm.trans hnode'
    | map hnode' hcell' hparts =>
      cases hnode.symm.trans hnode'
      have hinner : ∀ m ∈ members, unfold cells fuel (if depth < 2 then [] else id :: around)
          (depth + 1) m.1.2 = Document.ofJson m.2.2.resolved := fun m hm =>
        ih m hm (hparts m.1 (List.mem_map_of_mem hm)) fuel _ (depth + 1)
          (hinside _ (hless m hm).2) fun a => lt_of_mem_around haround (hless m hm).2
      rw [Cell.unfold, hcell']
      simp only [Option.join_some, contains_eq_false haround, Bool.false_eq_true, if_false]
      rw [Json.resolved_obj, Document.ofJson_obj, map_namedEntries hkey hinner]

end Unfold

section Cells

variable {nodes : Array Node} {cells cells' : Array (Option Cell)} {id i : Nat} {c : Cell}

/-- The cells that are there stay as they are. -/
def KeepsCells (cells cells' : Array (Option Cell)) : Prop :=
  ∀ (i : Nat) (c : Cell), cells[i]? = some (some c) → cells'[i]? = some (some c)

theorem HasCell.keeps (h : HasCell cells i) (hkeeps : KeepsCells cells cells') :
    HasCell cells' i := by
  obtain ⟨c, hc⟩ := h
  exact ⟨c, hkeeps i c hc⟩

theorem IsFilled.congr (h : IsFilled nodes cells id)
    (hcell : ∀ c, cells[id]? = some (some c) → cells'[id]? = some (some c))
    (hhas : ∀ i, HasCell cells i → HasCell cells' i) : IsFilled nodes cells' id := by
  cases h with
  | scalar hnode hvalue hd => exact .scalar hnode hvalue (hcell _ hd)
  | list hnode hitems h => exact .list hnode (hcell _ hitems) fun i hi => hhas i (h i hi)
  | map hnode hentries h => exact .map hnode (hcell _ hentries) fun e he => hhas _ (h e he)

theorem IsFilled.keeps (h : IsFilled nodes cells id) (hkeeps : KeepsCells cells cells') :
    IsFilled nodes cells' id :=
  h.congr (hkeeps id) fun _ hi => hi.keeps hkeeps

theorem hasCell_set (hid : id < cells.size) : HasCell (cells.setIfInBounds id (some c)) id :=
  ⟨c, Array.getElem?_setIfInBounds_self_of_lt hid⟩

theorem keepsCells_set (h : ¬HasCell cells id) :
    KeepsCells cells (cells.setIfInBounds id (some c)) := by
  intro i c' hc
  have hne : id ≠ i := by
    rintro rfl
    exact h ⟨c', hc⟩
  rw [Array.getElem?_setIfInBounds_ne hne, hc]

theorem HasCell.getElem?_set (h : HasCell cells id) (c : Cell) :
    (cells.setIfInBounds id (some c))[id]? = some (some c) := by
  obtain ⟨c', hc⟩ := h
  exact Array.getElem?_setIfInBounds_self_of_lt (getElem?_eq_some_iff.1 hc).1

theorem HasCell.set (h : HasCell cells i) (hid : HasCell cells id) :
    HasCell (cells.setIfInBounds id (some c)) i := by
  by_cases hne : id = i
  · subst hne
    exact ⟨c, hid.getElem?_set c⟩
  · rwa [HasCell, Array.getElem?_setIfInBounds_ne hne]

theorem hasCell_of_set (h : HasCell (cells.setIfInBounds id (some c)) i) :
    i = id ∨ HasCell cells i := by
  by_cases hne : id = i
  · exact .inl hne.symm
  · rw [HasCell, Array.getElem?_setIfInBounds_ne hne] at h
    exact .inr h

/-- The number of nodes that have no value yet. -/
def missing (cells : Array (Option Cell)) : Nat := cells.toList.countP Option.isNone

theorem missing_replicate_le (n : Nat) : missing (Array.replicate n none) ≤ n := by
  have hle := List.countP_le_length (p := Option.isNone)
    (l := (Array.replicate n (none : Option Cell)).toList)
  rwa [Array.length_toList, Array.size_replicate] at hle

theorem missing_set_of_not_hasCell (hid : id < cells.size) (h : ¬HasCell cells id) :
    missing (cells.setIfInBounds id (some c)) + 1 = missing cells := by
  have hlt : id < cells.toList.length := hid
  have hnone : cells.toList[id].isNone = true := by
    cases hcell : cells.toList[id] with
    | none => rfl
    | some c =>
      refine absurd ⟨c, ?_⟩ h
      rw [Array.getElem?_eq_getElem hid, ← hcell, Array.getElem_toList]
  have hpos : 0 < cells.toList.countP Option.isNone :=
    List.countP_pos_iff.2 ⟨_, List.getElem_mem hlt, hnone⟩
  rw [missing, missing, Array.toList_setIfInBounds, List.countP_set hlt, hnone]
  simp only [if_true, Option.isNone_some, Bool.false_eq_true, if_false]
  omega

theorem missing_set_of_hasCell (h : HasCell cells id) :
    missing (cells.setIfInBounds id (some c)) = missing cells := by
  obtain ⟨c', hc⟩ := h
  obtain ⟨hid, hcell⟩ := getElem?_eq_some_iff.1 hc
  have hlt : id < cells.toList.length := hid
  have hsome : cells.toList[id].isNone = false := by
    rw [Array.getElem_toList, hcell]
    rfl
  rw [missing, missing, Array.toList_setIfInBounds, List.countP_set hlt, hsome]
  simp

end Cells

/-- What is left to do: nodes to give a value and collections to fill. -/
def Builder.work (b : Builder) : Nat := missing b.cells + b.waiting.length

/-- A node represents an array or an object. -/
def IsCollection (nodes : Array Node) (id : Nat) : Prop :=
  (∃ v, Represents nodes id v) ∧ ∀ tag text, nodes[id]? ≠ some ⟨tag, .scalar text⟩

/-- Every node with a value is filled, waits, or is just being filled. -/
structure Builder.IsPartial (nodes : Array Node) (busy : List Nat) (b : Builder) : Prop where
  nodes_eq : b.nodes = nodes
  room_pos : 0 < b.room
  size_eq : b.cells.size = nodes.size
  waits : ∀ id ∈ b.waiting, HasCell b.cells id ∧ IsCollection nodes id
  filled : ∀ id, HasCell b.cells id → id ∈ b.waiting ∨ id ∈ busy ∨ IsFilled nodes b.cells id

/-- Values have been given, and no more is left to do than before. -/
structure Builder.Advances (nodes : Array Node) (busy : List Nat) (b b' : Builder) : Prop where
  isPartial : b'.IsPartial nodes busy
  keeps : KeepsCells b.cells b'.cells
  work_le : b'.work ≤ b.work

namespace Build

variable {nodes : Array Node} {b : Builder} {id : Nat} {v : Json Points}

theorem run_visit_of_hasCell (h : HasCell b.cells id) : (visit id).run b = .ok ((), b) := by
  obtain ⟨c, hc⟩ := h
  have hcell : (cell? id).run b = .ok (some c, b) := by
    change Except.ok ((b.cells[id]?).join, b) = _
    rw [hc]
    rfl
  rw [visit, run_bind_of_run hcell]
  rfl

theorem run_cell?_of_none (h : ¬HasCell b.cells id) : (cell? id).run b = .ok (none, b) := by
  have hnone : (b.cells[id]?).join = none := by
    cases hcell : b.cells[id]? with
    | none => rfl
    | some c =>
      cases c with
      | none => rfl
      | some c => exact absurd ⟨c, hcell⟩ h
  change Except.ok ((b.cells[id]?).join, b) = _
  rw [hnone]

theorem run_node {n : Node} (h : b.nodes[id]? = some n) : (node id).run b = .ok (n, b) := by
  have hget : (get : Build Builder).run b = .ok (b, b) := rfl
  rw [node, run_bind_of_run hget, h]
  rfl

theorem run_visit_scalar {tag : Tag} {text : Points} {d : Document}
    (hcell : ¬HasCell b.cells id) (hnode : b.nodes[id]? = some ⟨tag, .scalar text⟩)
    (hvalue : Scalar.value tag text = .ok d) (hroom : 0 < b.room) :
    (visit id).run b
      = .ok ((), { b with cells := b.cells.setIfInBounds id (some (.scalar d)) }) := by
  have hget : (get : Build Builder).run b = .ok (b, b) := rfl
  have htext : (scalarText b.room id).run b = .ok (text, b) := by
    obtain ⟨room, heq⟩ : ∃ room, b.room = room + 1 := ⟨b.room - 1, by omega⟩
    rw [heq, scalarText, run_bind_of_run (run_node hnode)]
    rfl
  have hmapping : (tag == .timestamp && Content.isMapping (.scalar text)) = false :=
    Bool.and_false _
  rw [visit, run_bind_of_run (run_cell?_of_none hcell)]
  simp only [Option.isSome_none, Bool.false_eq_true, if_false]
  rw [run_bind_of_run (run_node hnode)]
  cases tag with
  | seq | map | set | pairs | merge | value | other => cases hvalue
  | null | bool | int | float | binary | timestamp | str =>
    simp only
    rw [run_bind_of_run hget, run_bind_of_run htext]
    simp only [hmapping, hvalue]
    rfl

/-- A collection is given an empty value and waits. -/
theorem run_visit_collection {tag : Tag} {content : Content} {cell : Cell}
    (hcell : ¬HasCell b.cells id) (hnode : b.nodes[id]? = some ⟨tag, content⟩)
    (h : tag = .seq ∧ cell = .list [] ∨ tag = .map ∧ cell = .map []) :
    (visit id).run b = .ok ((), { b with
      cells := b.cells.setIfInBounds id (some cell), waiting := b.waiting ++ [id] }) := by
  rw [visit, run_bind_of_run (run_cell?_of_none hcell)]
  simp only [Option.isSome_none, Bool.false_eq_true, if_false]
  rw [run_bind_of_run (run_node hnode)]
  rcases h with ⟨rfl, rfl⟩ | ⟨rfl, rfl⟩ <;> rfl

variable {busy : List Nat}

/-- A node is given a value: it is filled, or it waits to be. -/
theorem advances_set {fresh : List Nat} {c : Cell} (hb : b.IsPartial nodes busy)
    (h : Represents nodes id v) (hcell : ¬HasCell b.cells id)
    (hfresh : fresh = [] ∧ IsFilled nodes (b.cells.setIfInBounds id (some c)) id
      ∨ fresh = [id] ∧ IsCollection nodes id) :
    b.Advances nodes busy
      { b with cells := b.cells.setIfInBounds id (some c), waiting := b.waiting ++ fresh } := by
  have hid : id < b.cells.size := hb.size_eq ▸ h.lt_size
  have hkeeps : KeepsCells b.cells (b.cells.setIfInBounds id (some c)) := keepsCells_set hcell
  have hmissing := missing_set_of_not_hasCell (c := c) hid hcell
  refine ⟨⟨hb.nodes_eq, hb.room_pos, ?_, fun i hi => ?_, fun i hi => ?_⟩, hkeeps, ?_⟩
  · rw [Array.size_setIfInBounds, hb.size_eq]
  · rcases List.mem_append.1 hi with hi | hi
    · obtain ⟨hhas, hrest⟩ := hb.waits i hi
      exact ⟨hhas.keeps hkeeps, hrest⟩
    · rcases hfresh with ⟨rfl, -⟩ | ⟨rfl, hcollection⟩
      · cases hi
      · obtain rfl := List.mem_singleton.1 hi
        exact ⟨hasCell_set hid, hcollection⟩
  · rcases hasCell_of_set hi with rfl | hi
    · rcases hfresh with ⟨-, hfilled⟩ | ⟨rfl, -⟩
      · exact .inr (.inr hfilled)
      · exact .inl (List.mem_append_right _ (List.mem_singleton.2 rfl))
    · rcases hb.filled i hi with hwaits | hbusy | hfilled
      · exact .inl (List.mem_append_left _ hwaits)
      · exact .inr (.inl hbusy)
      · exact .inr (.inr (hfilled.keeps hkeeps))
  · have hlength : fresh.length ≤ 1 := by
      rcases hfresh with ⟨rfl, -⟩ | ⟨rfl, -⟩
      · exact Nat.zero_le 1
      · exact Nat.le_refl 1
    simp only [Builder.work, List.length_append]
    omega

/-- A node that represents a value is given one. -/
theorem exists_visit (hb : b.IsPartial nodes busy) (h : Represents nodes id v) :
    ∃ b', (visit id).run b = .ok ((), b') ∧ b.Advances nodes busy b' ∧ HasCell b'.cells id := by
  by_cases hcell : HasCell b.cells id
  · exact ⟨b, run_visit_of_hasCell hcell, ⟨hb, fun _ _ h => h, Nat.le_refl _⟩, hcell⟩
  have hid : id < b.cells.size := hb.size_eq ▸ h.lt_size
  have hvisit := h
  cases h with
  | scalar hnode hvalue =>
    have hadvances := advances_set hb hvisit hcell
      (.inl ⟨rfl, .scalar hnode hvalue (Array.getElem?_setIfInBounds_self_of_lt hid)⟩)
    rw [List.append_nil] at hadvances
    rw [← hb.nodes_eq] at hnode
    exact ⟨_, run_visit_scalar hcell hnode hvalue hb.room_pos, hadvances, hasCell_set hid⟩
  | arr hnode =>
    have hcollection : IsCollection nodes id :=
      ⟨⟨_, hvisit⟩, fun tag text hscalar => by cases hnode.symm.trans hscalar⟩
    have hadvances := advances_set (c := .list []) hb hvisit hcell (.inr ⟨rfl, hcollection⟩)
    rw [← hb.nodes_eq] at hnode
    exact ⟨_, run_visit_collection hcell hnode (.inl ⟨rfl, rfl⟩), hadvances, hasCell_set hid⟩
  | obj hnode =>
    have hcollection : IsCollection nodes id :=
      ⟨⟨_, hvisit⟩, fun tag text hscalar => by cases hnode.symm.trans hscalar⟩
    have hadvances := advances_set (c := .map []) hb hvisit hcell (.inr ⟨rfl, hcollection⟩)
    rw [← hb.nodes_eq] at hnode
    exact ⟨_, run_visit_collection hcell hnode (.inr ⟨rfl, rfl⟩), hadvances, hasCell_set hid⟩

theorem advances_refl (hb : b.IsPartial nodes busy) : b.Advances nodes busy b :=
  ⟨hb, fun _ _ h => h, Nat.le_refl _⟩

theorem advances_trans {b₁ b₂ b₃ : Builder} (h : b₁.Advances nodes busy b₂)
    (h' : b₂.Advances nodes busy b₃) : b₁.Advances nodes busy b₃ :=
  ⟨h'.isPartial, fun i c hc => h'.keeps i c (h.keeps i c hc), Nat.le_trans h'.work_le h.work_le⟩

theorem exists_forM_visit {ids : List Nat} (hb : b.IsPartial nodes busy)
    (h : ∀ i ∈ ids, ∃ v, Represents nodes i v) :
    ∃ b', (ids.forM visit).run b = .ok ((), b') ∧ b.Advances nodes busy b'
      ∧ ∀ i ∈ ids, HasCell b'.cells i := by
  induction ids generalizing b with
  | nil => exact ⟨b, rfl, advances_refl hb, List.forall_mem_nil _⟩
  | cons i ids ih =>
    obtain ⟨v, hv⟩ := h i List.mem_cons_self
    obtain ⟨b₁, hrun, hadvances, hcell⟩ := exists_visit hb hv
    obtain ⟨b₂, hrun', hadvances', hcells⟩ :=
      ih hadvances.isPartial fun j hj => h j (List.mem_cons_of_mem i hj)
    refine ⟨b₂, ?_, advances_trans hadvances hadvances',
      List.forall_mem_cons.2 ⟨hcell.keeps hadvances'.keeps, hcells⟩⟩
    change (visit i >>= fun _ => ids.forM visit).run b = _
    rw [run_bind_of_run hrun, hrun']

/-- The key of a member is its name. -/
theorem exists_key {name : Points} (hb : b.IsPartial nodes busy)
    (hbusy : ∀ i ∈ busy, IsCollection nodes i) (hnode : nodes[id]? = some ⟨.str, .scalar name⟩) :
    ∃ b', (key id).run b = .ok (.str name, b') ∧ b.Advances nodes busy b' := by
  have hvalue : Represents nodes id (.str name) := .scalar hnode rfl
  obtain ⟨b', hrun, hadvances, hhas⟩ := exists_visit hb hvalue
  -- Only collections wait or are busy, so the name is filled.
  have hcell : b'.cells[id]? = some (some (.scalar (.str name))) := by
    rcases hadvances.isPartial.filled id hhas with hwaits | hwaits | hfilled
    · exact absurd hnode ((hadvances.isPartial.waits id hwaits).2.2 _ _)
    · exact absurd hnode ((hbusy id hwaits).2 _ _)
    · cases hfilled with
      | scalar hnode' hvalue' hcell' =>
        cases hnode.symm.trans hnode'
        cases hvalue'
        exact hcell'
      | list hnode' => cases hnode.symm.trans hnode'
      | map hnode' => cases hnode.symm.trans hnode'
  have hfound : (cell? id).run b' = .ok (some (.scalar (.str name)), b') := by
    change Except.ok ((b'.cells[id]?).join, b') = _
    rw [hcell]
    rfl
  refine ⟨b', ?_, hadvances⟩
  rw [key, run_bind_of_run hrun, run_bind_of_run hfound]
  rfl

theorem findIdx?_textEntry (name : Points) (done : List (Points × Nat)) :
    ((done.map textEntry).findIdx? fun e => e.1.sameKey (.str name))
      = done.findIdx? fun e => e.1 == name := by
  rw [List.findIdx?_map]
  rfl

theorem map_modify_textEntry (value i : Nat) (done : List (Points × Nat)) :
    (done.modify i fun e => (e.1, value)).map textEntry
      = (done.map textEntry).modify i fun e => (e.1, value) := by
  refine List.ext_getElem? fun j => ?_
  simp only [List.getElem?_map, List.getElem?_modify]
  cases done[j]? with
  | none => rfl
  | some e => by_cases h : i = j <;> simp [h, textEntry]

theorem exists_mapOf {es : List (Nat × Nat)} (hb : b.IsPartial nodes busy)
    (hbusy : ∀ i ∈ busy, IsCollection nodes i)
    (hkey : ∀ e ∈ es, nodes[e.1]? = some ⟨.str, .scalar (nameOf nodes e.1)⟩)
    (h : ∀ e ∈ es, ∃ v, Represents nodes e.2 v) (done : List (Points × Nat)) :
    ∃ b', (mapOf es (done.map textEntry)).run b = .ok ((Keyed.putAll done
          (es.map fun e => (nameOf nodes e.1, e.2))).map textEntry, b')
      ∧ b.Advances nodes busy b' ∧ ∀ e ∈ es, HasCell b'.cells e.2 := by
  induction es generalizing b done with
  | nil => exact ⟨b, rfl, advances_refl hb, List.forall_mem_nil _⟩
  | cons e es ih =>
    obtain ⟨k, v⟩ := e
    obtain ⟨b₁, hrun₁, hadvances₁⟩ := exists_key hb hbusy (hkey _ List.mem_cons_self)
    obtain ⟨w, hw⟩ := h _ List.mem_cons_self
    obtain ⟨b₂, hrun₂, hadvances₂, hcell⟩ := exists_visit hadvances₁.isPartial hw
    obtain ⟨b₃, hrun₃, hadvances₃, hcells⟩ := ih hadvances₂.isPartial
      (fun e he => hkey e (List.mem_cons_of_mem _ he)) (fun e he => h e (List.mem_cons_of_mem _ he))
      (Keyed.put (nameOf nodes k) v done)
    refine ⟨b₃, ?_, advances_trans hadvances₁ (advances_trans hadvances₂ hadvances₃),
      List.forall_mem_cons.2 ⟨hcell.keeps hadvances₃.keeps, hcells⟩⟩
    have hput : Keyed.put (nameOf nodes k) v done = _ := Keyed.put_eq_of_findIdx? v
    have hentered : Keyed.putAll done (((k, v) :: es).map fun e => (nameOf nodes e.1, e.2))
        = Keyed.putAll (Keyed.put (nameOf nodes k) v done)
          (es.map fun e => (nameOf nodes e.1, e.2)) := rfl
    rw [mapOf, run_bind_of_run hrun₁, run_bind_of_run hrun₂, findIdx?_textEntry, hentered, ← hrun₃]
    cases hplace : done.findIdx? fun e => e.1 == nameOf nodes k with
    | none =>
      rw [hplace] at hput
      rw [hput, Option.map_none, Option.getD_none, List.map_append]
      rfl
    | some i =>
      rw [hplace] at hput
      rw [hput, Option.map_some, Option.getD_some, map_modify_textEntry]

theorem run_entries {tag : Tag} {es : List (Nat × Nat)}
    (h : b.nodes[id]? = some ⟨tag, .mapping es⟩) : (entries id).run b = .ok (es, b) := by
  rw [entries, run_bind_of_run (run_node h)]
  rfl

theorem run_forM_nameValue {es : List (Nat × Nat)}
    (hkey : ∀ e ∈ es, ∃ content, b.nodes[e.1]? = some ⟨.str, content⟩) :
    (es.forM nameValue).run b = .ok ((), b) := by
  induction es with
  | nil => rfl
  | cons e es ih =>
    obtain ⟨content, hnode⟩ := hkey e List.mem_cons_self
    have hname : (nameValue e).run b = .ok ((), b) := by
      rw [nameValue, run_bind_of_run (run_node hnode)]
      rfl
    change (nameValue e >>= fun _ => es.forM nameValue).run b = _
    rw [run_bind_of_run hname, ih fun e he => hkey e (List.mem_cons_of_mem _ he)]

/-- Without merging keys and default values there is nothing to flatten. -/
theorem run_flatten {tag : Tag} {es : List (Nat × Nat)} {room : Nat}
    (h : b.nodes[id]? = some ⟨tag, .mapping es⟩)
    (hkey : ∀ e ∈ es, ∃ content, b.nodes[e.1]? = some ⟨.str, content⟩) (hroom : 0 < room) :
    (flatten room id).run b = .ok ((), b) := by
  have hget : (get : Build Builder).run b = .ok (b, b) := rfl
  have hcount : es.countP (isMerging b.nodes) = 0 := by
    refine List.countP_eq_zero.2 fun e he => ?_
    obtain ⟨content, hnode⟩ := hkey e he
    rw [isMerging, hnode]
    exact Bool.false_ne_true
  obtain ⟨room, rfl⟩ : ∃ k, room = k + 1 := ⟨room - 1, by omega⟩
  have hmerged : (takeMerged (flatten room) id 0 []).run b = .ok ([], b) := rfl
  rw [flatten, run_bind_of_run (run_entries h), run_bind_of_run hget, hcount,
    run_bind_of_run hmerged, run_bind_of_run (run_entries h),
    run_bind_of_run (run_forM_nameValue hkey)]
  rfl

theorem run_items {tag : Tag} {ids : List Nat} (h : b.nodes[id]? = some ⟨tag, .sequence ids⟩) :
    (items id).run b = .ok (ids, b) := by
  rw [items, run_bind_of_run (run_node h)]
  rfl

/-- What was being filled is filled now. -/
theorem isPartial_set {c : Cell} (hb : b.IsPartial nodes [id]) (hcell : HasCell b.cells id)
    (hfilled : IsFilled nodes (b.cells.setIfInBounds id (some c)) id) :
    Builder.IsPartial nodes [] { b with cells := b.cells.setIfInBounds id (some c) } := by
  have hhas : ∀ i, HasCell b.cells i → HasCell (b.cells.setIfInBounds id (some c)) i :=
    fun i hi => hi.set hcell
  refine ⟨hb.nodes_eq, hb.room_pos, ?_, fun i hi => ?_, fun i hi => ?_⟩
  · rw [Array.size_setIfInBounds, hb.size_eq]
  · obtain ⟨hi, hcollection⟩ := hb.waits i hi
    exact ⟨hhas i hi, hcollection⟩
  · by_cases hne : id = i
    · exact .inr (.inr (hne ▸ hfilled))
    · have hi' : HasCell b.cells i := (hasCell_of_set hi).resolve_left (Ne.symm hne)
      rcases hb.filled i hi' with hwaits | hbusy | hfilled'
      · exact .inl hwaits
      · exact absurd (List.mem_singleton.1 hbusy).symm hne
      · refine .inr (.inr (hfilled'.congr (fun c hc => ?_) hhas))
        rw [Array.getElem?_setIfInBounds_ne hne, hc]

/-- The parts of a collection have got values, and entering them fills it. -/
theorem advances_finish {b' : Builder} {c : Cell} (h : b.Advances nodes [id] b')
    (hcell : HasCell b.cells id)
    (hfilled : IsFilled nodes (b'.cells.setIfInBounds id (some c)) id) :
    Builder.IsPartial nodes [] { b' with cells := b'.cells.setIfInBounds id (some c) }
      ∧ Builder.work { b' with cells := b'.cells.setIfInBounds id (some c) } ≤ b.work
      ∧ ∀ i, HasCell b.cells i → HasCell (b'.cells.setIfInBounds id (some c)) i := by
  have hcell' := hcell.keeps h.keeps
  refine ⟨isPartial_set h.isPartial hcell' hfilled, ?_, fun i hi => (hi.keeps h.keeps).set hcell'⟩
  rw [Builder.work, missing_set_of_hasCell hcell']
  exact h.work_le

/-- A collection whose turn it is gets its contents. -/
theorem exists_fill (hb : b.IsPartial nodes [id]) (hcell : HasCell b.cells id)
    (h : IsCollection nodes id) :
    ∃ b', (fill id).run b = .ok ((), b') ∧ b'.IsPartial nodes [] ∧ b'.work ≤ b.work
      ∧ ∀ i, HasCell b.cells i → HasCell b'.cells i := by
  have hbusy : ∀ i ∈ [id], IsCollection nodes i := List.forall_mem_singleton.2 h
  obtain ⟨⟨v, hv⟩, hscalar⟩ := h
  cases hv with
  | scalar hnode => exact absurd hnode (hscalar _ _)
  | @arr _ items hnode hlt hvalues =>
    have hparts : ∀ i ∈ items.map Prod.fst, ∃ v, Represents nodes i v :=
      List.forall_mem_map.2 fun p hp => ⟨p.2, hvalues p hp⟩
    obtain ⟨b', hrun, hadvances, hhas⟩ := exists_forM_visit hb hparts
    have hcell' := hcell.keeps hadvances.keeps
    refine ⟨_, ?_, advances_finish hadvances hcell
      (.list hnode (hcell'.getElem?_set _) fun i hi => (hhas i hi).set hcell')⟩
    rw [← hb.nodes_eq] at hnode
    rw [fill, run_bind_of_run (run_node hnode)]
    simp only
    rw [run_bind_of_run (run_items hnode), run_bind_of_run hrun]
    rfl
  | @obj _ members hnode hkey hlt hvalues =>
    have hkeys : ∀ e ∈ members.map Prod.fst,
        nodes[e.1]? = some ⟨.str, .scalar (nameOf nodes e.1)⟩ :=
      List.forall_mem_map.2 fun m hm => by rw [nameOf_eq (hkey m hm), hkey m hm]
    have hparts : ∀ e ∈ members.map Prod.fst, ∃ v, Represents nodes e.2 v :=
      List.forall_mem_map.2 fun m hm => ⟨m.2.2, hvalues m hm⟩
    obtain ⟨b', hrun, hadvances, hhas⟩ := exists_mapOf hb hbusy hkeys hparts []
    have hcell' := hcell.keeps hadvances.keeps
    refine ⟨_, ?_, advances_finish hadvances hcell
      (.map hnode (hcell'.getElem?_set _) fun e he => (hhas e he).set hcell')⟩
    rw [← hb.nodes_eq] at hnode
    have hget : (get : Build Builder).run b = .ok (b, b) := rfl
    have hflatten := run_flatten hnode (fun e he => ⟨_, hb.nodes_eq ▸ hkeys e he⟩) hb.room_pos
    rw [fill, run_bind_of_run (run_node hnode)]
    simp only
    rw [run_bind_of_run hget, run_bind_of_run hflatten, run_bind_of_run (run_entries hnode)]
    exact run_bind_of_run hrun

/-- The collection that has waited longest is filled next. -/
theorem isPartial_tail {rest : List Nat} (hb : b.IsPartial nodes [])
    (hwaiting : b.waiting = id :: rest) :
    Builder.IsPartial nodes [id] { b with waiting := rest } := by
  refine ⟨hb.nodes_eq, hb.room_pos, hb.size_eq, fun i hi => hb.waits i ?_, fun i hi => ?_⟩
  · rw [hwaiting]
    exact List.mem_cons_of_mem id hi
  · rcases hb.filled i hi with hwaits | hbusy | hfilled
    · rw [hwaiting] at hwaits
      rcases List.mem_cons.1 hwaits with rfl | hrest
      · exact .inr (.inl List.mem_cons_self)
      · exact .inl hrest
    · cases hbusy
    · exact .inr (.inr hfilled)

/-- In the end nothing waits. -/
theorem exists_fillAll {fuel : Nat} (hb : b.IsPartial nodes []) (hfuel : b.work ≤ fuel) :
    ∃ b', (fillAll fuel).run b = .ok ((), b') ∧ b'.IsPartial nodes [] ∧ b'.waiting = []
      ∧ ∀ i, HasCell b.cells i → HasCell b'.cells i := by
  -- Each turn fills one collection, which takes one from the work that is left.
  induction fuel generalizing b with
  | zero =>
    have hnil : b.waiting = [] := by
      rw [Builder.work] at hfuel
      exact List.length_eq_zero_iff.1 (by omega)
    exact ⟨b, rfl, hb, hnil, fun _ h => h⟩
  | succ fuel ih =>
    have hget : (get : Build Builder).run b = .ok (b, b) := rfl
    cases hwaiting : b.waiting with
    | nil =>
      refine ⟨b, ?_, hb, hwaiting, fun _ h => h⟩
      rw [fillAll, run_bind_of_run hget]
      simp only [hwaiting]
      rfl
    | cons id rest =>
      have hmodify : (modify fun b => { b with waiting := rest } : Build Unit).run b
          = .ok ((), { b with waiting := rest }) := rfl
      have hid : id ∈ b.waiting := hwaiting ▸ List.mem_cons_self
      obtain ⟨hcell, hcollection⟩ := hb.waits id hid
      obtain ⟨b₁, hrun₁, hb₁, hwork, hhas⟩ :=
        exists_fill (isPartial_tail hb hwaiting) hcell hcollection
      have hless : b₁.work ≤ fuel := by
        simp only [Builder.work, hwaiting, List.length_cons] at hwork hfuel
        rw [Builder.work]
        omega
      obtain ⟨b₂, hrun₂, hb₂, hnil, hhas₂⟩ := ih hb₁ hless
      refine ⟨b₂, ?_, hb₂, hnil, fun i hi => hhas₂ i (hhas i hi)⟩
      rw [fillAll, run_bind_of_run hget]
      simp only [hwaiting]
      rw [run_bind_of_run hmodify, run_bind_of_run hrun₁, hrun₂]

end Build

/-- Nodes that represent a JSON value have its document as their value. -/
theorem Graph.document_eq {nodes : Array Node} {root room : Nat} {v : Json Points}
    (h : Represents nodes root v) (hroom : 0 < room) :
    Graph.document room ⟨nodes, root⟩ = .ok (Document.ofJson v.resolved) := by
  have hempty : ∀ i, ¬HasCell (Array.replicate nodes.size none) i := by
    rintro i ⟨c, hc⟩
    obtain ⟨hlt, heq⟩ := getElem?_eq_some_iff.1 hc
    rw [Array.getElem_replicate] at heq
    cases heq
  have hstart : Builder.IsPartial nodes [] ⟨nodes, Array.replicate nodes.size none, [], room⟩ :=
    ⟨rfl, hroom, Array.size_replicate, List.forall_mem_nil _, fun i hi => absurd hi (hempty i)⟩
  obtain ⟨b₁, hrun₁, hadvances, hcell⟩ := Build.exists_visit hstart h
  have hwork : b₁.work ≤ nodes.size + 1 :=
    Nat.le_trans hadvances.work_le (Nat.le_succ_of_le (missing_replicate_le nodes.size))
  obtain ⟨b₂, hrun₂, hb₂, hnil, hhas⟩ := Build.exists_fillAll hadvances.isPartial hwork
  have hfilled : ∀ id, HasCell b₂.cells id → IsFilled nodes b₂.cells id := by
    intro id hid
    rcases hb₂.filled id hid with hwaits | hbusy | hfilled
    · rw [hnil] at hwaits
      cases hwaits
    · cases hbusy
    · exact hfilled
  have hunfold := Cell.unfold_eq hfilled h (hhas root hcell) (nodes.size + 4) [] 0 (by omega)
    (List.forall_mem_nil _)
  have hbuild : (do Build.visit root; Build.fillAll (nodes.size + 1) : Build Unit).run
      ⟨nodes, Array.replicate nodes.size none, [], room⟩ = .ok ((), b₂) := by
    rw [run_bind_of_run hrun₁, hrun₂]
  rw [Graph.document]
  simp only [hbuild, hunfold]

/-- A portable JSON text of an object for which there is room is the same document in both formats.
-/
theorem read_eq_ok {cs : List Char} {members : List (Points × Json Points)} {room : Nat}
    (hport : IsPortable cs) (hlex : Json.Token.lex cs = (Json.obj members).tokens)
    (hroom : Compose.levelRoom * (Json.obj members).depth ≤ room) :
    read room cs = .ok (Document.ofJson (Json.obj members).resolved) := by
  obtain ⟨nodes, htokens, hvalue⟩ := exists_ofTokens (stands_lex hlex hport) hroom
  have hpos : 0 < room := by
    rw [Json.depth, Nat.mul_succ] at hroom
    exact Nat.lt_of_lt_of_le (Nat.succ_pos _) hroom
  rw [read, htokens]
  exact Graph.document_eq hvalue hpos

end PercentTemplate.Yaml

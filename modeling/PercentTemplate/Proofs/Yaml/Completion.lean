import Mathlib.Data.List.Perm.Subperm
import PercentTemplate.Proofs.Yaml.Value

/-!
# Complete builds

Three recursions in the build of a document run on a number: the merging keys of a mapping, the
collections that may still be met, and the depth of a value. For every document, whether or not it
is a JSON value, these numbers are large enough. When the merged entries have been taken into a
mapping no merging key is left in it (`Yaml.Build.flattens_flatten`), in the end no collection waits
(`Yaml.Build.yields_build`), and a value that may be unfolded further is the same
(`Yaml.Cell.unfold_root`).

To take in what is merged into one mapping means to do so for other mappings first, and these may be
around it. So the invariant is about all mappings: none gets a merging key more
(`Yaml.Builder.Settles`).
-/

namespace PercentTemplate.Yaml

/-- The number of merging keys of a node. -/
def mergingKeys (nodes : Array Node) (id : Nat) : Nat :=
  match nodes[id]? with
  | some ⟨_, .mapping es⟩ => es.countP (Build.isMerging nodes)
  | _ => 0

/-- Merged entries have been taken into mappings, and nothing else has changed. -/
structure Builder.Settles (b b' : Builder) : Prop where
  isMerging_eq : Build.isMerging b'.nodes = Build.isMerging b.nodes
  mergingKeys_le : ∀ id, mergingKeys b'.nodes id ≤ mergingKeys b.nodes id
  size_eq : b'.nodes.size = b.nodes.size
  cells_eq : b'.cells = b.cells
  waiting_eq : b'.waiting = b.waiting

/-- No more is left to do than before, if there is a cell for every node. -/
def Builder.Proceeds (b b' : Builder) : Prop :=
  b.cells.size = b.nodes.size → b'.cells.size = b'.nodes.size ∧ b'.work ≤ b.work

namespace Builder

variable {b b₁ b₂ : Builder}

theorem Settles.refl (b : Builder) : Settles b b :=
  ⟨rfl, fun _ => Nat.le_refl _, rfl, rfl, rfl⟩

theorem Settles.trans (h : Settles b b₁) (h₁ : Settles b₁ b₂) : Settles b b₂ where
  isMerging_eq := h₁.isMerging_eq.trans h.isMerging_eq
  mergingKeys_le id := Nat.le_trans (h₁.mergingKeys_le id) (h.mergingKeys_le id)
  size_eq := h₁.size_eq.trans h.size_eq
  cells_eq := h₁.cells_eq.trans h.cells_eq
  waiting_eq := h₁.waiting_eq.trans h.waiting_eq

theorem Proceeds.refl (b : Builder) : Proceeds b b :=
  fun hsize => ⟨hsize, Nat.le_refl _⟩

theorem Proceeds.trans (h : Proceeds b b₁) (h₁ : Proceeds b₁ b₂) : Proceeds b b₂ := by
  intro hsize
  obtain ⟨hsize₁, hle⟩ := h hsize
  obtain ⟨hsize₂, hle₁⟩ := h₁ hsize₁
  exact ⟨hsize₂, Nat.le_trans hle₁ hle⟩

theorem Settles.proceeds (h : Settles b b₁) : Proceeds b b₁ := by
  intro hsize
  refine ⟨by rw [h.cells_eq, h.size_eq, hsize], Nat.le_of_eq ?_⟩
  rw [work, work, h.cells_eq, h.waiting_eq]

end Builder

namespace Build

open Builder (Settles Proceeds)

section Yields

variable {α β : Type} {x : Build α} {f : α → Build β} {b : Builder} {post : α → Builder → Prop}
  {post' : β → Builder → Prop}

/-- What holds behind a step if it succeeds. -/
def Yields (x : Build α) (b : Builder) (post : α → Builder → Prop) : Prop :=
  ∀ a b', x.run b = .ok (a, b') → post a b'

theorem yields_pure {a : α} (h : post a b) : Yields (pure a) b post := by
  rintro _ _ ⟨rfl⟩
  exact h

theorem yields_throw (f : Fault) : Yields (throw f : Build α) b post := nofun

theorem Yields.bind (hx : Yields x b post) (hf : ∀ a b', post a b' → Yields (f a) b' post') :
    Yields (x >>= f) b post' := by
  intro c b'' h
  rw [StateT.run_bind] at h
  cases hrun : x.run b with
  | error e =>
    rw [hrun] at h
    cases h
  | ok r =>
    rw [hrun] at h
    exact hf _ _ (hx _ _ hrun) _ _ h

/-- A step whose result is known goes first. -/
theorem yields_of_run {a : α} {b₁ : Builder} (hx : x.run b = .ok (a, b₁))
    (hf : Yields (f a) b₁ post') : Yields (x >>= f) b post' := by
  intro c b' h
  rw [run_bind_of_run hx] at h
  exact hf _ _ h

theorem Yields.mono {post₁ : α → Builder → Prop} (hx : Yields x b post)
    (h : ∀ a b', post a b' → post₁ a b') : Yields x b post₁ :=
  fun a b' hrun => h a b' (hx a b' hrun)

/-- A step that is made for each of several things leads from builder to builder as each does. -/
theorem yields_forM {g : α → Build Unit} {R : Builder → Builder → Prop} (hrefl : ∀ b, R b b)
    (htrans : ∀ b b₁ b₂, R b b₁ → R b₁ b₂ → R b b₂)
    (h : ∀ a b, Yields (g a) b fun _ b' => R b b') (as : List α) (b : Builder) :
    Yields (as.forM g) b fun _ b' => R b b' := by
  induction as generalizing b with
  | nil => exact yields_pure (hrefl b)
  | cons a as ih => exact (h a b).bind fun _ b₁ h₁ => (ih b₁).mono fun _ b₂ => htrans b b₁ b₂ h₁

end Yields

section Settling

variable {b : Builder} {id count : Nat} {es merged : List (Nat × Nat)}

theorem yields_node (id : Nat) (b : Builder) :
    Yields (node id) b fun n b' => b' = b ∧ b.nodes[id]? = some n := by
  have hget : (get : Build Builder).run b = .ok (b, b) := rfl
  refine yields_of_run hget ?_
  cases hnode : b.nodes[id]? with
  | none => exact yields_throw _
  | some n => exact yields_pure ⟨rfl, rfl⟩

theorem yields_entries (id : Nat) (b : Builder) : Yields (entries id) b fun es b' =>
    b' = b ∧ ∃ tag, b.nodes[id]? = some ⟨tag, .mapping es⟩ := by
  refine (yields_node id b).bind ?_
  rintro ⟨tag, content⟩ b ⟨rfl, hnode⟩
  cases content with
  | mapping es => exact yields_pure ⟨rfl, tag, hnode⟩
  | scalar | sequence => exact yields_throw _

theorem mergingKeys_of_getElem? {nodes : Array Node} {tag : Tag}
    (h : nodes[id]? = some ⟨tag, .mapping es⟩) :
    mergingKeys nodes id = es.countP (isMerging nodes) := by
  rw [mergingKeys, h]

variable {n n' : Node}

theorem isMerging_setNode (h : b.nodes[id]? = some n)
    (htag : (n'.tag == .merge) = (n.tag == .merge)) :
    isMerging (b.nodes.setIfInBounds id n') = isMerging b.nodes := by
  funext e
  rw [isMerging, isMerging]
  by_cases he : id = e.1
  · rw [← he, Array.getElem?_setIfInBounds_self_of_lt (getElem?_eq_some_iff.1 h).1, h]
    exact htag
  · rw [Array.getElem?_setIfInBounds_ne he]

/-- A node whose tag merges as before, and with no more merging keys, settles the builder. -/
theorem settles_setNode (h : b.nodes[id]? = some n)
    (htag : (n'.tag == .merge) = (n.tag == .merge))
    (hle : mergingKeys (b.nodes.setIfInBounds id n') id ≤ mergingKeys b.nodes id) :
    Settles b { b with nodes := b.nodes.setIfInBounds id n' } := by
  have hmerging := isMerging_setNode h htag
  refine ⟨hmerging, fun i => ?_, Array.size_setIfInBounds, rfl, rfl⟩
  by_cases hi : id = i
  · exact hi ▸ hle
  · refine Nat.le_of_eq ?_
    rw [mergingKeys, mergingKeys, Array.getElem?_setIfInBounds_ne hi, hmerging]

/-- Entries with no more merging keys take the place of those of a mapping. -/
theorem yields_setEntries (hle : es.countP (isMerging b.nodes) ≤ mergingKeys b.nodes id) :
    Yields (setEntries id es) b fun _ b' =>
      Settles b b' ∧ mergingKeys b'.nodes id = es.countP (isMerging b.nodes) := by
  refine (yields_node id b).bind ?_
  rintro n b ⟨rfl, hnode⟩
  have hset := Array.getElem?_setIfInBounds_self_of_lt (a := { n with content := .mapping es })
    (getElem?_eq_some_iff.1 hnode).1
  have hmerging : isMerging (b.nodes.setIfInBounds id { n with content := .mapping es })
      = isMerging b.nodes := isMerging_setNode hnode rfl
  have hcount : mergingKeys (b.nodes.setIfInBounds id { n with content := .mapping es }) id
      = es.countP (isMerging b.nodes) := by
    rw [mergingKeys_of_getElem? hset, hmerging]
  rintro _ _ ⟨rfl⟩
  exact ⟨settles_setNode hnode rfl (hcount ▸ hle), hcount⟩

theorem yields_nameValue (e : Nat × Nat) (b : Builder) :
    Yields (nameValue e) b fun _ b' => Settles b b' := by
  refine (yields_node e.1 b).bind ?_
  rintro ⟨tag, content⟩ b ⟨rfl, hnode⟩
  split
  · rename_i htag
    obtain rfl : tag = .value := eq_of_beq htag
    have hmerge : (Tag.str == .merge) = (Tag.value == .merge) := rfl
    rintro _ _ ⟨rfl⟩
    refine settles_setNode hnode hmerge (Nat.le_of_eq ?_)
    rw [mergingKeys, mergingKeys, isMerging_setNode hnode hmerge, hnode,
      Array.getElem?_setIfInBounds_self_of_lt (getElem?_eq_some_iff.1 hnode).1]
    cases content <;> rfl
  · exact yields_pure (.refl _)

/-- What is merged has no merging keys itself. -/
def Merges (x : Build (List (Nat × Nat))) : Prop :=
  ∀ b, Yields x b fun es b' => Settles b b' ∧ es.countP (isMerging b'.nodes) = 0

/-- A way of flattening leaves no merging key in a mapping. -/
def Flattens (f : Nat → Build Unit) : Prop :=
  ∀ id b, Yields (f id) b fun _ b' => Settles b b' ∧ mergingKeys b'.nodes id = 0

variable {f : Nat → Build Unit}

theorem Flattens.merges_entries (h : Flattens f) (id : Nat) :
    Merges (do f id; entries id) := by
  intro b
  refine (h id b).bind fun _ b₁ ⟨hsettles, hnone⟩ => (yields_entries id b₁).mono ?_
  rintro es b₁ ⟨rfl, tag, hnode⟩
  exact ⟨hsettles, mergingKeys_of_getElem? hnode ▸ hnone⟩

theorem yields_mapM {g : Nat → Build (List (Nat × Nat))} (h : ∀ item, Merges (g item))
    (items : List Nat) (b : Builder) :
    Yields (items.mapM g) b fun all b' =>
      Settles b b' ∧ ∀ es ∈ all, es.countP (isMerging b'.nodes) = 0 := by
  induction items generalizing b with
  | nil => exact yields_pure ⟨.refl _, List.forall_mem_nil _⟩
  | cons item items ih =>
    rw [List.mapM_cons]
    refine (h item b).bind fun es b₁ ⟨hsettles, hes⟩ => (ih b₁).bind fun all b₂ ⟨hsettles₁, hall⟩ =>
      yields_pure ⟨hsettles.trans hsettles₁, List.forall_mem_cons.2 ⟨?_, hall⟩⟩
    rw [hsettles₁.isMerging_eq, hes]

theorem Flattens.merges_mergedFrom (h : Flattens f) (id : Nat) : Merges (mergedFrom f id) := by
  intro b
  refine (yields_node id b).bind ?_
  rintro ⟨tag, content⟩ b ⟨rfl, -⟩
  cases content with
  | mapping es => exact h.merges_entries id b
  | scalar text => exact yields_throw _
  | sequence items =>
    have hitem : ∀ item, Merges (do let _ ← entries item; f item; entries item) := by
      intro item b
      refine (yields_entries item b).bind ?_
      rintro _ b ⟨rfl, -⟩
      exact h.merges_entries item b
    refine (yields_mapM hitem items b).bind fun all b' ⟨hsettles, hall⟩ =>
      yields_pure ⟨hsettles, ?_⟩
    rw [List.countP_eq_zero]
    intro e he
    obtain ⟨es, hes, he⟩ := List.mem_flatten.1 he
    exact List.countP_eq_zero.1 (hall es (List.mem_reverse.1 hes)) e he

theorem countP_eraseP_add_one {p : Nat × Nat → Bool} {e : Nat × Nat} (h : es.find? p = some e) :
    (es.eraseP p).countP p + 1 = es.countP p := by
  obtain ⟨he, front, rest, rfl, hfront⟩ := List.find?_eq_some_iff_append.1 h
  have hnone : ∀ a ∈ front, ¬p a = true := fun a ha => by simpa using hfront a ha
  rw [List.eraseP_append_right _ hnone, List.eraseP_cons_of_pos he, List.countP_append,
    List.countP_append, List.countP_cons_of_pos he, Nat.add_assoc]

/-- Each turn takes out a merging key, and no mapping gets another one. -/
theorem Flattens.yields_takeMerged (h : Flattens f) (hcount : mergingKeys b.nodes id ≤ count)
    (hmerged : merged.countP (isMerging b.nodes) = 0) :
    Yields (takeMerged f id count merged) b fun es b' =>
      Settles b b' ∧ mergingKeys b'.nodes id = 0 ∧ es.countP (isMerging b'.nodes) = 0 := by
  induction count generalizing b merged with
  | zero => exact yields_pure ⟨.refl _, Nat.le_zero.1 hcount, hmerged⟩
  | succ count ih =>
    have hget : (get : Build Builder).run b = .ok (b, b) := rfl
    refine (yields_entries id b).bind ?_
    rintro es b ⟨rfl, tag, hnode⟩
    have hkeys := mergingKeys_of_getElem? hnode
    refine yields_of_run hget ?_
    cases hfind : es.find? (isMerging b.nodes) with
    | none =>
      simp only [hfind]
      have hnone : es.countP (isMerging b.nodes) = 0 :=
        List.countP_eq_zero.2 (List.find?_eq_none.1 hfind)
      exact yields_pure ⟨.refl _, hkeys.trans hnone, hmerged⟩
    | some e =>
      simp only [hfind]
      have herase := countP_eraseP_add_one hfind
      refine (yields_setEntries (by omega)).bind fun _ b₁ ⟨hsettles, hless⟩ =>
        (h.merges_mergedFrom e.2 b₁).bind fun more b₂ ⟨hsettles₁, hmore⟩ => ?_
      have hmerging := hsettles₁.isMerging_eq.trans hsettles.isMerging_eq
      refine (ih ?_ ?_).mono fun es b₃ ⟨hsettles₂, hnone⟩ =>
        ⟨(hsettles.trans hsettles₁).trans hsettles₂, hnone⟩
      · have hle := hsettles₁.mergingKeys_le id
        omega
      · rw [List.countP_append, hmore, hmerging, hmerged]

/-- When the merged entries have been taken into a mapping no merging key is left in it. -/
theorem flattens_flatten (room : Nat) : Flattens (flatten room) := by
  induction room with
  | zero => exact fun id b => yields_throw _
  | succ room ih =>
    intro id b
    have hget : (get : Build Builder).run b = .ok (b, b) := rfl
    refine (yields_entries id b).bind ?_
    rintro es b ⟨rfl, tag, hnode⟩
    refine yields_of_run hget ((ih.yields_takeMerged ?_ rfl).bind
      fun merged b₁ ⟨hsettles, hnone, hmerged⟩ => (yields_entries id b₁).bind ?_)
    · exact Nat.le_of_eq (mergingKeys_of_getElem? hnode)
    rintro es b₁ ⟨rfl, tag₁, hnode₁⟩
    have hes := mergingKeys_of_getElem? hnode₁
    refine (yields_forM Settles.refl (fun _ _ _ => Settles.trans) yields_nameValue es b₁).bind
      fun _ b₂ hsettles₁ => ?_
    have hnone₂ : mergingKeys b₂.nodes id = 0 :=
      Nat.le_zero.1 (hnone ▸ hsettles₁.mergingKeys_le id)
    split
    · exact yields_pure ⟨hsettles.trans hsettles₁, hnone₂⟩
    · have hall : (merged ++ es).countP (isMerging b₂.nodes) = 0 := by
        rw [List.countP_append, hsettles₁.isMerging_eq, hmerged, ← hes, hnone]
      refine (yields_setEntries (Nat.le_of_eq (hall.trans hnone₂.symm))).mono
        fun _ b₃ ⟨hsettles₂, hkeys⟩ => ⟨(hsettles.trans hsettles₁).trans hsettles₂, ?_⟩
      exact hkeys.trans hall

end Settling

section Filling

variable {b : Builder} {id : Nat} {c : Cell}

theorem missing_set_le (cells : Array (Option Cell)) (id : Nat) (c : Cell) :
    missing (cells.setIfInBounds id (some c)) ≤ missing cells := by
  by_cases hcell : HasCell cells id
  · exact Nat.le_of_eq (missing_set_of_hasCell hcell)
  by_cases hid : id < cells.size
  · exact Nat.le_of_succ_le (Nat.le_of_eq (missing_set_of_not_hasCell hid hcell))
  · exact Nat.le_of_eq (by rw [Array.setIfInBounds_eq_of_size_le (Nat.not_lt.1 hid)])

theorem yields_setCell (id : Nat) (c : Cell) (b : Builder) :
    Yields (setCell id c) b fun _ b' => Proceeds b b' := by
  rintro _ _ ⟨rfl⟩ hsize
  refine ⟨Array.size_setIfInBounds.trans hsize, ?_⟩
  exact Nat.add_le_add_right (missing_set_le b.cells id c) _

/-- A collection that is met for the first time waits instead of having no value. -/
theorem yields_enqueue (hcell : ¬HasCell b.cells id) (hid : id < b.nodes.size) (c : Cell) :
    Yields (enqueue id c) b fun _ b' => Proceeds b b' := by
  rintro _ _ ⟨rfl⟩ hsize
  refine ⟨Array.size_setIfInBounds.trans hsize, Nat.le_of_eq ?_⟩
  have hless := missing_set_of_not_hasCell (c := c) (hsize.symm ▸ hid) hcell
  simp only [Builder.work, List.length_append, List.length_singleton, ← hless]
  omega

theorem yields_scalarText (room id : Nat) (b : Builder) :
    Yields (scalarText room id) b fun _ b' => b' = b := by
  induction room generalizing id with
  | zero => exact yields_throw _
  | succ room ih =>
    have hget : (get : Build Builder).run b = .ok (b, b) := rfl
    refine (yields_node id b).bind ?_
    rintro ⟨tag, content⟩ b ⟨rfl, -⟩
    cases content with
    | scalar text => exact yields_pure rfl
    | sequence items => exact yields_throw _
    | mapping es =>
      refine yields_of_run hget ?_
      dsimp only
      split
      · exact ih _
      · exact yields_throw _

theorem yields_visit (id : Nat) (b : Builder) : Yields (visit id) b fun _ b' => Proceeds b b' := by
  by_cases hcell : HasCell b.cells id
  · intro a b' h
    rw [run_visit_of_hasCell hcell] at h
    cases h
    exact .refl b
  have hget : (get : Build Builder).run b = .ok (b, b) := rfl
  refine yields_of_run (run_cell?_of_none hcell) ((yields_node id b).bind ?_)
  rintro ⟨tag, content⟩ b ⟨rfl, hnode⟩
  have hid := (getElem?_eq_some_iff.1 hnode).1
  cases tag with
  | seq | map | set | pairs => exact yields_enqueue hcell hid _
  | merge | value | other => exact yields_throw _
  | null | bool | int | float | binary | timestamp | str =>
    refine yields_of_run hget ((yields_scalarText b.room id b).bind ?_)
    rintro text b rfl
    dsimp only
    split
    · exact yields_throw _
    · split
      · exact yields_setCell _ _ b
      · exact yields_throw _

theorem yields_key (id : Nat) (b : Builder) : Yields (key id) b fun _ b' => Proceeds b b' := by
  refine (yields_visit id b).bind fun _ b₁ hvisit => ?_
  have hcell : (cell? id).run b₁ = .ok ((b₁.cells[id]?).join, b₁) := rfl
  refine yields_of_run hcell ?_
  split
  · exact yields_pure hvisit
  · exact yields_throw _

theorem yields_mapOf (es : List (Nat × Nat)) (done : List (Document × Nat)) (b : Builder) :
    Yields (mapOf es done) b fun _ b' => Proceeds b b' := by
  induction es generalizing done b with
  | nil => exact yields_pure (.refl b)
  | cons e rest ih =>
    refine (yields_key e.1 b).bind fun d b₁ h₁ => (yields_visit e.2 b₁).bind fun _ b₂ h₂ => ?_
    exact (ih _ b₂).mono fun _ b₃ h₃ => (h₁.trans h₂).trans h₃

theorem yields_pairsOf (ids : List Nat) (b : Builder) :
    Yields (pairsOf ids) b fun _ b' => Proceeds b b' := by
  induction ids generalizing b with
  | nil => exact yields_pure (.refl b)
  | cons id rest ih =>
    refine (yields_entries id b).bind ?_
    rintro es b ⟨rfl, -⟩
    split
    · refine (yields_visit _ b).bind fun _ b₁ h₁ => (yields_visit _ b₁).bind fun _ b₂ h₂ => ?_
      exact (ih b₂).bind fun _ b₃ h₃ => yields_pure ((h₁.trans h₂).trans h₃)
    · exact yields_throw _

theorem yields_items (id : Nat) (b : Builder) : Yields (items id) b fun _ b' => b' = b := by
  refine (yields_node id b).bind ?_
  rintro ⟨tag, content⟩ b ⟨rfl, -⟩
  cases content with
  | sequence items => exact yields_pure rfl
  | scalar | mapping => exact yields_throw _

/-- A cell is made of the entries of a mapping with those that are merged. -/
theorem yields_setEntriesCell (id : Nat) (cell : List (Document × Nat) → Cell) (b : Builder) :
    Yields (do flatten (← get).room id; setCell id (cell (← mapOf (← entries id) []))) b
      fun _ b' => Proceeds b b' := by
  have hget : (get : Build Builder).run b = .ok (b, b) := rfl
  refine yields_of_run hget ((flattens_flatten b.room id b).bind fun _ b₁ h₁ =>
    (yields_entries id b₁).bind ?_)
  rintro es b₁ ⟨rfl, -⟩
  exact (yields_mapOf es [] b₁).bind fun _ b₂ h₂ =>
    (yields_setCell id _ b₂).mono fun _ b₃ => (h₁.1.proceeds.trans h₂).trans

theorem yields_fill (id : Nat) (b : Builder) : Yields (fill id) b fun _ b' => Proceeds b b' := by
  refine (yields_node id b).bind ?_
  rintro ⟨tag, content⟩ b ⟨rfl, -⟩
  cases tag with
  | seq =>
    refine (yields_items id b).bind ?_
    rintro is b rfl
    refine (yields_forM Proceeds.refl (fun _ _ _ => Proceeds.trans) yields_visit is b).bind
      fun _ b₁ h₁ => (yields_setCell id _ b₁).mono fun _ b₂ => h₁.trans
  | map => exact yields_setEntriesCell id .map b
  | set => exact yields_setEntriesCell id (fun es => .set (es.map Prod.fst)) b
  | pairs =>
    refine (yields_items id b).bind ?_
    rintro is b rfl
    exact (yields_pairsOf is b).bind fun _ b₁ h₁ =>
      (yields_setCell id _ b₁).mono fun _ b₂ => h₁.trans
  | null | bool | int | float | binary | timestamp | str | merge | value | other =>
    exact yields_throw _

/-- Each turn takes a collection that waits, so in the end none does. -/
theorem yields_fillAll {fuel : Nat} (hsize : b.cells.size = b.nodes.size) (hfuel : b.work ≤ fuel) :
    Yields (fillAll fuel) b fun _ b' => b'.waiting = [] := by
  induction fuel generalizing b with
  | zero =>
    refine yields_pure (List.length_eq_zero_iff.1 ?_)
    rw [Builder.work] at hfuel
    omega
  | succ fuel ih =>
    have hget : (get : Build Builder).run b = .ok (b, b) := rfl
    refine yields_of_run hget ?_
    split
    · rename_i hwaiting
      exact yields_pure hwaiting
    · rename_i id rest hwaiting
      have hmodify : (modify fun b => { b with waiting := rest } : Build Unit).run b
          = .ok ((), { b with waiting := rest }) := rfl
      refine yields_of_run hmodify ((yields_fill id _).bind fun _ b₁ hproceeds => ?_)
      obtain ⟨hsize₁, hwork⟩ := hproceeds hsize
      refine ih hsize₁ ?_
      simp only [Builder.work, hwaiting, List.length_cons] at hwork hfuel ⊢
      omega

/-- Whatever the nodes are, no collection waits when their values have been built. -/
theorem yields_build (g : Graph) (room : Nat) :
    Yields (do visit g.root; fillAll (g.nodes.size + 1))
      ⟨g.nodes, Array.replicate g.nodes.size none, [], room⟩ fun _ b' => b'.waiting = [] := by
  refine (yields_visit g.root _).bind fun _ b hproceeds => ?_
  obtain ⟨hsize, hwork⟩ := hproceeds Array.size_replicate
  refine yields_fillAll hsize (Nat.le_trans hwork (Nat.le_succ_of_le ?_))
  exact missing_replicate_le g.nodes.size

end Filling

end Build

namespace Cell

variable {cells : Array (Option Cell)} {fuel depth id : Nat} {around : List Nat}

/-- The collections around a node are different ones, and there is fuel for one more of each of the
others. -/
structure IsAround (cells : Array (Option Cell)) (fuel depth : Nat) (around : List Nat) : Prop where
  nodup : around.Nodup
  lt_size : ∀ a ∈ around, a < cells.size
  eq_nil : depth < 2 → around = []
  lt_fuel : 2 - depth + (cells.size - around.length) < fuel

/-- A collection that is not in itself is around its parts. -/
theorem IsAround.inner (h : IsAround cells (fuel + 1) depth around) (hid : id < cells.size)
    (hnew : id ∉ around) :
    IsAround cells fuel (depth + 1) (if depth < 2 then [] else id :: around) := by
  have hfuel := h.lt_fuel
  split
  · rename_i hdepth
    rw [h.eq_nil hdepth] at hfuel
    refine ⟨List.nodup_nil, List.forall_mem_nil _, fun _ => rfl, ?_⟩
    omega
  · have hnodup : (id :: around).Nodup := List.nodup_cons.2 ⟨hnew, h.nodup⟩
    have hlt : ∀ a ∈ id :: around, a < cells.size := List.forall_mem_cons.2 ⟨hid, h.lt_size⟩
    have hsubset : id :: around ⊆ List.range cells.size :=
      fun a ha => List.mem_range.2 (hlt a ha)
    have hlength := (List.subperm_of_subset hnodup hsubset).length_le
    rw [List.length_range] at hlength
    refine ⟨hnodup, hlt, fun _ => absurd (by omega) ‹¬depth < 2›, ?_⟩
    rw [List.length_cons] at hlength ⊢
    omega

/-- More fuel than there is for every node does not change how a value unfolds. -/
theorem unfold_of_le (h : IsAround cells fuel depth around) (id more : Nat) :
    unfold cells (fuel + more) around depth id = unfold cells fuel around depth id := by
  induction fuel generalizing depth around id with
  | zero => exact absurd h.lt_fuel (Nat.not_lt_zero _)
  | succ fuel ih =>
    rw [Nat.add_right_comm, unfold, unfold]
    by_cases hnew : id ∈ around
    · simp only [List.contains_iff_mem.2 hnew, if_true]
    cases hcell : cells[id]? with
    | none => simp only [Option.join_none]
    | some cell =>
      have hinner := funext (ih (h.inner (getElem?_eq_some_iff.1 hcell).1 hnew))
      simp only [hinner]

/-- A node is unfolded with more fuel than changes anything. -/
theorem unfold_root (cells : Array (Option Cell)) (id more : Nat) :
    unfold cells (cells.size + 4 + more) [] 0 id = unfold cells (cells.size + 4) [] 0 id :=
  unfold_of_le ⟨List.nodup_nil, List.forall_mem_nil _, fun _ => rfl, by simp; omega⟩ id more

end Cell

end PercentTemplate.Yaml

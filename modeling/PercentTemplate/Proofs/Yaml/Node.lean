import PercentTemplate.Proofs.Json.Nesting
import PercentTemplate.Proofs.Yaml.Flow
import PercentTemplate.Yaml.Node

/-!
# JSON values as nodes

Tokens that stand for a JSON value are composed into nodes that represent it
(`Yaml.Represents`): one for each value and each name, the parts behind the whole. Every production
of the grammar that JSON uses consumes the tokens of its part, leaves the nodes that are there and
adds those of the part (`Yaml.Compose.isComposed_of_stands`), if the stack has room for it.
-/

namespace PercentTemplate.Yaml

open Text (Points)

/-- The node with the number `id` represents a JSON value. -/
inductive Represents (nodes : Array Node) : Nat → Json Points → Prop
  | scalar {id : Nat} {tag : Tag} {text : Points} {v : Json Points}
    (hnode : nodes[id]? = some ⟨tag, .scalar text⟩)
    (h : Scalar.value tag text = .ok (Document.ofJson v.resolved)) : Represents nodes id v
  | arr {id : Nat} {items : List (Nat × Json Points)}
    (hnode : nodes[id]? = some ⟨.seq, .sequence (items.map Prod.fst)⟩)
    (hlt : ∀ p ∈ items, id < p.1) (h : ∀ p ∈ items, Represents nodes p.1 p.2) :
    Represents nodes id (.arr (items.map Prod.snd))
  | obj {id : Nat} {members : List ((Nat × Nat) × (Points × Json Points))}
    (hnode : nodes[id]? = some ⟨.map, .mapping (members.map Prod.fst)⟩)
    (hkey : ∀ m ∈ members, nodes[m.1.1]? = some ⟨.str, .scalar m.2.1⟩)
    (hlt : ∀ m ∈ members, id < m.1.1 ∧ id < m.1.2)
    (h : ∀ m ∈ members, Represents nodes m.1.2 m.2.2) :
    Represents nodes id (.obj (members.map Prod.snd))

/-- The nodes from `first` on are still there. -/
def KeepsFrom (first : Nat) (nodes nodes' : Array Node) : Prop :=
  ∀ i, first ≤ i → ∀ n, nodes[i]? = some n → nodes'[i]? = some n

variable {nodes nodes' : Array Node} {first id : Nat} {v : Json Points}

/-- What a node represents depends on the nodes behind it only. -/
theorem Represents.congr (h : Represents nodes id v) (hkeeps : KeepsFrom first nodes nodes')
    (hle : first ≤ id) : Represents nodes' id v := by
  induction h with
  | scalar hnode h => exact .scalar (hkeeps _ hle _ hnode) h
  | @arr id items hnode hlt _ ih =>
    refine .arr (hkeeps _ hle _ hnode) hlt fun p hp => ih p hp ?_
    have := hlt p hp
    omega
  | @obj id members hnode hkey hlt _ ih =>
    refine .obj (hkeeps _ hle _ hnode) (fun m hm => ?_) hlt fun m hm => ih m hm ?_
    · have := hlt m hm
      exact hkeeps _ (by omega) _ (hkey m hm)
    · have := hlt m hm
      omega

theorem Represents.lt_size (h : Represents nodes id v) : id < nodes.size := by
  have hlt : ∀ {n}, nodes[id]? = some n → id < nodes.size := fun h => (getElem?_eq_some_iff.1 h).1
  cases h with
  | scalar hnode => exact hlt hnode
  | arr hnode => exact hlt hnode
  | obj hnode => exact hlt hnode

section Keeps

variable {nodes₁ nodes₂ nodes₃ : Array Node}

theorem KeepsFrom.refl (first : Nat) (nodes : Array Node) : KeepsFrom first nodes nodes :=
  fun _ _ _ h => h

theorem KeepsFrom.trans (h : KeepsFrom first nodes₁ nodes₂) (h' : KeepsFrom first nodes₂ nodes₃) :
    KeepsFrom first nodes₁ nodes₃ :=
  fun i hi n hn => h' i hi n (h i hi n hn)

theorem keepsFrom_push (nodes : Array Node) (n : Node) : KeepsFrom 0 nodes (nodes.push n) := by
  intro i _ m hm
  obtain ⟨hlt, rfl⟩ := getElem?_eq_some_iff.1 hm
  rw [Array.getElem?_push_lt hlt]

theorem KeepsFrom.getElem?_push {n : Node} (h : KeepsFrom 0 (nodes.push n) nodes₂) :
    nodes₂[nodes.size]? = some n :=
  h _ (Nat.zero_le _) n Array.getElem?_push_size

theorem KeepsFrom.size_le (h : KeepsFrom 0 nodes₁ nodes₂) : nodes₁.size ≤ nodes₂.size := by
  rcases Nat.eq_zero_or_pos nodes₁.size with hzero | hpos
  · omega
  · have hlt : nodes₁.size - 1 < nodes₁.size := by omega
    have hlast := h _ (Nat.zero_le _) _ (Array.getElem?_eq_getElem hlt)
    have := (getElem?_eq_some_iff.1 hlast).1
    omega

end Keeps

section Run

variable {σ α β : Type} {x : StateT σ (Except Fault) α} {a : α} {c c' : σ}

/-- A step that succeeds goes on with its result in the state that it leaves. -/
theorem run_bind_of_run {f : α → StateT σ (Except Fault) β} (h : x.run c = .ok (a, c')) :
    (x >>= f).run c = (f a).run c' := by
  rw [StateT.run_bind, h]
  rfl

theorem run_map_of_run (f : α → β) (h : x.run c = .ok (a, c')) :
    (f <$> x).run c = .ok (f a, c') := by
  rw [StateT.run_map, h]
  rfl

end Run

namespace Compose

variable {fuel room : Nat} {inBlock orItems : Bool} {t : Token} {rest ts : List Token}
  {handles : List (String × String)}

/-- Whether a value may begin with the token. -/
def StartsValue : Token → Prop
  | .scalar _ _ | .flowSequence | .flowMapping => True
  | _ => False

theorem run_node_scalar (text : Points) (isPlain : Bool) :
    (node (fuel + 1) inBlock orItems).run ⟨.scalar text isPlain :: ts, nodes, [], handles, room⟩
      = .ok (nodes.size, ⟨ts, nodes.push ⟨scalarTag none text isPlain, .scalar text⟩, [],
        handles, room⟩) := by
  rw [node]
  rfl

theorem run_node_flowSequence :
    (node (fuel + 1) inBlock orItems).run ⟨.flowSequence :: ts, nodes, [], handles, room⟩
      = (addCollection none .seq (Content.sequence <$> flowItems fuel true)).run
        ⟨ts, nodes, [], handles, room⟩ := by
  rw [node]
  rfl

theorem run_node_flowMapping :
    (node (fuel + 1) inBlock orItems).run ⟨.flowMapping :: ts, nodes, [], handles, room⟩
      = (addCollection none .map (Content.mapping <$> flowEntries fuel true)).run
        ⟨ts, nodes, [], handles, room⟩ := by
  rw [node]
  rfl

theorem run_flowItems_end (first : Bool) :
    (flowItems (fuel + 1) first).run ⟨.flowSequenceEnd :: ts, nodes, [], handles, room⟩
      = .ok ([], ⟨ts, nodes, [], handles, room⟩) := by
  rw [flowItems]
  rfl

theorem run_flowEntries_end (first : Bool) :
    (flowEntries (fuel + 1) first).run ⟨.flowMappingEnd :: ts, nodes, [], handles, room⟩
      = .ok ([], ⟨ts, nodes, [], handles, room⟩) := by
  rw [flowEntries]
  rfl

/-- An item and those behind it. -/
def itemThen (fuel : Nat) : Compose (List Nat) := do
  let item ← node fuel false false
  return item :: (← flowItems fuel false)

theorem run_flowItems_first (ht : StartsValue t) :
    (flowItems (fuel + 1) true).run ⟨t :: ts, nodes, [], handles, room⟩
      = (itemThen fuel).run ⟨t :: ts, nodes, [], handles, room⟩ := by
  rw [flowItems]
  cases t with
  | scalar | flowSequence | flowMapping => rfl
  | _ => exact ht.elim

theorem run_flowItems_next (ht : StartsValue t) :
    (flowItems (fuel + 1) false).run ⟨.flowEntry :: t :: ts, nodes, [], handles, room⟩
      = (itemThen fuel).run ⟨t :: ts, nodes, [], handles, room⟩ := by
  rw [flowItems]
  cases t with
  | scalar | flowSequence | flowMapping => rfl
  | _ => exact ht.elim

def entryEnds : List Token := [.flowEntry, .flowMappingEnd]

/-- An entry, of which the sign of the key has been read, and those behind it. -/
def entryThen (fuel : Nat) : Compose (List (Nat × Nat)) := do
  let key ← nodeBefore fuel (.value :: entryEnds) false false
  let value ← valueBefore fuel entryEnds false false
  return (key, value) :: (← flowEntries fuel false)

theorem run_flowEntries_first :
    (flowEntries (fuel + 1) true).run ⟨.key :: ts, nodes, [], handles, room⟩
      = (entryThen fuel).run ⟨ts, nodes, [], handles, room⟩ := by
  rw [flowEntries]
  rfl

theorem run_flowEntries_next :
    (flowEntries (fuel + 1) false).run ⟨.flowEntry :: .key :: ts, nodes, [], handles, room⟩
      = (entryThen fuel).run ⟨ts, nodes, [], handles, room⟩ := by
  rw [flowEntries]
  rfl

theorem run_nodeBefore_scalar (text : Points) (isPlain : Bool) :
    (nodeBefore (fuel + 1) (.value :: entryEnds) false false).run
        ⟨.scalar text isPlain :: ts, nodes, [], handles, room⟩
      = (node fuel false false).run ⟨.scalar text isPlain :: ts, nodes, [], handles, room⟩ := by
  rw [nodeBefore]
  rfl

theorem run_key {name : Points} :
    (nodeBefore (fuel + 2) (.value :: entryEnds) false false).run
        ⟨.scalar name false :: ts, nodes, [], handles, room⟩
      = .ok (nodes.size, ⟨ts, nodes.push ⟨.str, .scalar name⟩, [], handles, room⟩) := by
  rw [run_nodeBefore_scalar]
  exact run_node_scalar name false

theorem run_valueBefore (ht : StartsValue t) :
    (valueBefore (fuel + 2) entryEnds false false).run ⟨.value :: t :: ts, nodes, [], handles, room⟩
      = (node fuel false false).run ⟨t :: ts, nodes, [], handles, room⟩ := by
  have haccept : (accept .value).run ⟨.value :: t :: ts, nodes, [], handles, room⟩
      = .ok (true, ⟨t :: ts, nodes, [], handles, room⟩) := rfl
  rw [valueBefore, run_bind_of_run haccept, if_pos rfl, nodeBefore]
  cases t with
  | scalar | flowSequence | flowMapping => rfl
  | _ => exact ht.elim

/-- If there is room for a collection some of it is taken. -/
theorem run_enter :
    enter.run ⟨ts, nodes, [], handles, room + levelRoom⟩
      = .ok ((), ⟨ts, nodes, [], handles, room⟩) := by
  have hroom : ¬room + levelRoom < levelRoom := by omega
  have hget : (get : Compose Composer).run ⟨ts, nodes, [], handles, room + levelRoom⟩
      = .ok (⟨ts, nodes, [], handles, room + levelRoom⟩,
        ⟨ts, nodes, [], handles, room + levelRoom⟩) := rfl
  rw [enter, run_bind_of_run hget, if_neg hroom]
  rfl

/-- A collection is a node of its own before its contents; then it gets them. -/
theorem run_addCollection {tag : Tag} {contents : Compose Content} {content : Content}
    {nodes' : Array Node}
    (h : contents.run ⟨ts, nodes.push ⟨tag, .sequence []⟩, [], handles, room⟩
      = .ok (content, ⟨rest, nodes', [], handles, room⟩)) :
    (addCollection none tag contents).run ⟨ts, nodes, [], handles, room + levelRoom⟩
      = .ok (nodes.size, ⟨rest, nodes'.setIfInBounds nodes.size ⟨tag, content⟩, [], handles,
        room + levelRoom⟩) := by
  have hfree : (checkFree none).run ⟨ts, nodes, [], handles, room + levelRoom⟩
      = .ok ((), ⟨ts, nodes, [], handles, room + levelRoom⟩) := rfl
  have hbefore : (do
          let node ← add tag (.sequence [])
          name none node
          let content ← contents
          modify fun c => { c with nodes := c.nodes.setIfInBounds node ⟨tag, content⟩ }
          leave
          return node : Compose Nat).run ⟨ts, nodes, [], handles, room⟩
      = (contents >>= fun content => do
          modify fun c => { c with nodes := c.nodes.setIfInBounds nodes.size ⟨tag, content⟩ }
          leave
          return nodes.size).run ⟨ts, nodes.push ⟨tag, .sequence []⟩, [], handles, room⟩ := rfl
  rw [addCollection, run_bind_of_run hfree, run_bind_of_run run_enter, hbefore, run_bind_of_run h]
  rfl

theorem exists_cons_of_stands {out : List Token} (h : Stands v out) :
    ∃ t ts, out = t :: ts ∧ StartsValue t := by
  cases h <;> exact ⟨_, _, rfl, trivial⟩

theorem run_valueBefore_of_stands {out : List Token} (h : Stands v out) :
    (valueBefore (fuel + 2) entryEnds false false).run
        ⟨.value :: (out ++ rest), nodes, [], handles, room⟩
      = (node fuel false false).run ⟨out ++ rest, nodes, [], handles, room⟩ := by
  obtain ⟨t, ts, rfl, ht⟩ := exists_cons_of_stands h
  exact run_valueBefore ht

theorem length_pos_of_stands {out : List Token} (h : Stands v out) : 0 < out.length := by
  obtain ⟨t, ts, rfl, -⟩ := exists_cons_of_stands h
  exact Nat.succ_pos _

/-- Wherever the tokens stand and there is room for the value they are composed into a node that
represents it. -/
def IsComposed (v : Json Points) (out : List Token) : Prop :=
  ∀ (fuel : Nat) (inBlock orItems : Bool) (rest : List Token) (nodes : Array Node)
    (handles : List (String × String)) (room : Nat), out.length ≤ fuel → levelRoom * v.depth ≤ room →
    ∃ nodes', (node fuel inBlock orItems).run ⟨out ++ rest, nodes, [], handles, room⟩
        = .ok (nodes.size, ⟨rest, nodes', [], handles, room⟩)
      ∧ KeepsFrom 0 nodes nodes' ∧ Represents nodes' nodes.size v

section Loop

variable {β γ : Type}

/-- The parts of a collection behind the first of them. -/
def nextParts (part : γ → List Token) (parts : List γ) : List Token :=
  (parts.map part).flatMap (.flowEntry :: ·)

/-- The loop over the parts of a collection takes the part `p` off the tokens, gets nodes for it,
and goes on. -/
def Takes (room : Nat) (loop : Nat → Bool → Compose (List β)) (part : γ → List Token)
    (Q : Nat → Array Node → β → γ → Prop) (p : γ) : Prop :=
  ∀ (fuel : Nat) (first : Bool) (rest : List Token) (nodes : Array Node)
    (handles : List (String × String)), (part p).length ≤ fuel →
    ∃ found nodes', KeepsFrom 0 nodes nodes' ∧ Q nodes.size nodes' found p
      ∧ ∀ more c, (loop fuel false).run ⟨rest, nodes', [], handles, room⟩ = .ok (more, c) →
        (loop (fuel + 1) first).run
          ⟨(if first then [] else [.flowEntry]) ++ (part p ++ rest), nodes, [], handles, room⟩
            = .ok (found :: more, c)

/-- The loop finds all of `parts` in the tokens `ts` and leaves the tokens `rest`. -/
def Finds (room : Nat) (loop : Nat → Bool → Compose (List β))
    (Q : Nat → Array Node → β → γ → Prop) (fuel : Nat) (first : Bool) (parts : List γ)
    (ts rest : List Token) : Prop :=
  ∀ (nodes : Array Node) (handles : List (String × String)),
    ∃ (found : List (β × γ)) (nodes' : Array Node),
      (loop fuel first).run ⟨ts, nodes, [], handles, room⟩
        = .ok (found.map Prod.fst, ⟨rest, nodes', [], handles, room⟩)
      ∧ KeepsFrom 0 nodes nodes' ∧ found.map Prod.snd = parts
      ∧ ∀ f ∈ found, Q nodes.size nodes' f.1 f.2

/-- A loop over the parts of a collection that ends at the token `close`. What it finds for a part
is not lost when nodes are added. -/
structure IsLoop (loop : Nat → Bool → Compose (List β)) (close : Token)
    (Q : Nat → Array Node → β → γ → Prop) : Prop where
  ends : ∀ (fuel : Nat) (first : Bool) (rest : List Token) (nodes : Array Node)
    (handles : List (String × String)) (room : Nat),
    (loop (fuel + 1) first).run ⟨close :: rest, nodes, [], handles, room⟩
      = .ok ([], ⟨rest, nodes, [], handles, room⟩)
  keeps : ∀ {size size' : Nat} {nodes nodes' : Array Node} {found : β} {p : γ},
    Q size nodes found p → KeepsFrom 0 nodes nodes' → size' ≤ size → Q size' nodes' found p

namespace IsLoop

variable {loop : Nat → Bool → Compose (List β)} {close : Token} {part : γ → List Token}
  {Q : Nat → Array Node → β → γ → Prop} {p : γ} {parts : List γ} (hloop : IsLoop loop close Q)

include hloop

theorem finds_nil (fuel : Nat) (first : Bool) (rest : List Token) :
    Finds room loop Q (fuel + 1) first [] (close :: rest) rest := by
  intro nodes handles
  exact ⟨[], nodes, hloop.ends fuel first rest nodes handles room, .refl 0 nodes, rfl,
    List.forall_mem_nil _⟩

theorem finds_cons {first : Bool} (hp : Takes room loop part Q p) (hfuel : (part p).length ≤ fuel)
    (h : Finds room loop Q fuel false parts ts rest) :
    Finds room loop Q (fuel + 1) first (p :: parts)
      ((if first then [] else [.flowEntry]) ++ (part p ++ ts)) rest := by
  intro nodes handles
  obtain ⟨b, nodes₁, hkeeps, hb, hrun⟩ := hp fuel first ts nodes handles hfuel
  obtain ⟨found, nodes₂, hmore, hkeeps', rfl, hfound⟩ := h nodes₁ handles
  refine ⟨(b, p) :: found, nodes₂, hrun _ _ hmore, hkeeps.trans hkeeps', rfl,
    List.forall_mem_cons.2 ⟨hloop.keeps hb hkeeps' (Nat.le_refl _), fun f hf => ?_⟩⟩
  exact hloop.keeps (hfound f hf) (.refl 0 nodes₂) hkeeps.size_le

theorem finds_next (h : ∀ p ∈ parts, Takes room loop part Q p) (rest : List Token)
    (hfuel : (nextParts part parts).length ≤ fuel) :
    Finds room loop Q (fuel + 1) false parts (nextParts part parts ++ close :: rest) rest := by
  induction parts generalizing fuel with
  | nil => exact hloop.finds_nil fuel false rest
  | cons p parts ih =>
    have hcons : nextParts part (p :: parts) = .flowEntry :: (part p ++ nextParts part parts) :=
      rfl
    rw [hcons, List.length_cons, List.length_append] at hfuel
    obtain ⟨k, rfl⟩ : ∃ k, fuel = k + 1 := ⟨fuel - 1, by omega⟩
    have hlength : (nextParts part parts).length ≤ k := by omega
    have hmore := ih (fun q hq => h q (List.mem_cons_of_mem p hq)) hlength
    rw [hcons, List.cons_append, List.append_assoc]
    exact hloop.finds_cons (h p List.mem_cons_self) (by omega) hmore

/-- A loop finds all parts if it takes each of them. -/
theorem finds_all (h : ∀ p ∈ parts, Takes room loop part Q p)
    (hpos : ∀ p ∈ parts, 0 < (part p).length) (rest : List Token) (hfuel : (separated (parts.map part)).length ≤ fuel) :
    Finds room loop Q (fuel + 1) true parts (separated (parts.map part) ++ close :: rest) rest := by
  cases parts with
  | nil => exact hloop.finds_nil fuel true rest
  | cons p parts =>
    have hcons : separated ((p :: parts).map part) = part p ++ nextParts part parts := rfl
    have hp := hpos p List.mem_cons_self
    rw [hcons, List.length_append] at hfuel
    obtain ⟨k, rfl⟩ : ∃ k, fuel = k + 1 := ⟨fuel - 1, by omega⟩
    have hlength : (nextParts part parts).length ≤ k := by omega
    have hmore := hloop.finds_next (fun q hq => h q (List.mem_cons_of_mem p hq)) rest hlength
    rw [hcons, List.append_assoc]
    exact hloop.finds_cons (h p List.mem_cons_self) (by omega) hmore

end IsLoop

end Loop

section Parts

/-- A node behind `size` others for an item. -/
def IsItem (size : Nat) (nodes : Array Node) (id : Nat) (p : Json Points × List Token) : Prop :=
  size ≤ id ∧ Represents nodes id p.1

/-- Nodes behind `size` others for the name and the value of a member. -/
def IsEntry (size : Nat) (nodes : Array Node) (ids : Nat × Nat) (m : Member) : Prop :=
  (size ≤ ids.1 ∧ size ≤ ids.2) ∧ nodes[ids.1]? = some ⟨.str, .scalar m.1.1⟩
    ∧ Represents nodes ids.2 m.1.2

theorem isLoop_flowItems : IsLoop flowItems .flowSequenceEnd IsItem where
  ends := fun _ first _ _ _ _ => run_flowItems_end first
  keeps := fun h hkeeps hle =>
    ⟨Nat.le_trans hle h.1, h.2.congr hkeeps (Nat.zero_le _)⟩

theorem isLoop_flowEntries : IsLoop flowEntries .flowMappingEnd IsEntry where
  ends := fun _ first _ _ _ _ => run_flowEntries_end first
  keeps := fun ⟨hsize, hkey, hvalue⟩ hkeeps hle =>
    ⟨⟨Nat.le_trans hle hsize.1, Nat.le_trans hle hsize.2⟩, hkeeps _ (Nat.zero_le _) _ hkey,
      hvalue.congr hkeeps (Nat.zero_le _)⟩

theorem takes_item {p : Json Points × List Token} (hstands : Stands p.1 p.2)
    (h : IsComposed p.1 p.2) (hroom : levelRoom * p.1.depth ≤ room) :
    Takes room flowItems Prod.snd IsItem p := by
  intro fuel first rest nodes handles hfuel
  obtain ⟨nodes₁, hrun, hkeeps, hvalue⟩ := h fuel false false rest nodes handles room hfuel hroom
  refine ⟨nodes.size, nodes₁, hkeeps, ⟨Nat.le_refl _, hvalue⟩, fun more c hmore => ?_⟩
  have hitem : (flowItems (fuel + 1) first).run
      ⟨(if first then [] else [.flowEntry]) ++ (p.2 ++ rest), nodes, [], handles, room⟩
        = (itemThen fuel).run ⟨p.2 ++ rest, nodes, [], handles, room⟩ := by
    obtain ⟨t, ts, hout, ht⟩ := exists_cons_of_stands hstands
    rw [hout]
    cases first with
    | true => exact run_flowItems_first ht
    | false => exact run_flowItems_next ht
  rw [hitem, itemThen, run_bind_of_run hrun, run_bind_of_run hmore]
  rfl

theorem takes_entry {m : Member} (hstands : Stands m.1.2 m.2) (h : IsComposed m.1.2 m.2)
    (hroom : levelRoom * m.1.2.depth ≤ room) : Takes room flowEntries Member.tokens IsEntry m := by
  intro fuel first rest nodes handles hfuel
  simp only [Member.tokens, List.length_cons] at hfuel
  obtain ⟨k, rfl⟩ : ∃ k, fuel = k + 2 := ⟨fuel - 2, by omega⟩
  obtain ⟨nodes₁, hrun, hkeeps, hvalue⟩ := h k false false rest
    (nodes.push ⟨.str, .scalar m.1.1⟩) handles room (by omega) hroom
  rw [← run_valueBefore_of_stands hstands, Array.size_push] at hrun
  rw [Array.size_push] at hvalue
  -- The name is a node of its own, so the value has the number behind it.
  refine ⟨(nodes.size, nodes.size + 1), nodes₁, (keepsFrom_push nodes _).trans hkeeps,
    ⟨⟨Nat.le_refl _, Nat.le_succ _⟩, hkeeps.getElem?_push, hvalue⟩, fun more c hmore => ?_⟩
  have hentry : (flowEntries (k + 2 + 1) first).run
      ⟨(if first then [] else [.flowEntry]) ++ (m.tokens ++ rest), nodes, [], handles, room⟩
        = (entryThen (k + 2)).run
          ⟨.scalar m.1.1 false :: .value :: (m.2 ++ rest), nodes, [], handles, room⟩ := by
    cases first with
    | true => exact run_flowEntries_first
    | false => exact run_flowEntries_next
  rw [hentry, entryThen, run_bind_of_run run_key, run_bind_of_run hrun, run_bind_of_run hmore]
  rfl

end Parts

section Collection

variable {n : Node} {nodes₂ : Array Node}

theorem keepsFrom_set (nodes : Array Node) (id : Nat) (n : Node) :
    KeepsFrom (id + 1) nodes (nodes.setIfInBounds id n) := by
  intro i hi m hm
  rw [Array.getElem?_setIfInBounds_ne (by omega), hm]

/-- A collection behind the nodes that were there keeps them. -/
theorem keepsFrom_collection (h : KeepsFrom 0 (nodes.push n) nodes₂) (n' : Node) :
    KeepsFrom 0 nodes (nodes₂.setIfInBounds nodes.size n') := by
  intro i _ m hm
  have hlt := (getElem?_eq_some_iff.1 hm).1
  rw [Array.getElem?_setIfInBounds_ne (by omega)]
  exact h i (Nat.zero_le i) m (keepsFrom_push nodes n i (Nat.zero_le i) m hm)

theorem getElem?_collection (h : KeepsFrom 0 (nodes.push n) nodes₂) (n' : Node) :
    (nodes₂.setIfInBounds nodes.size n')[nodes.size]? = some n' := by
  have hle := h.size_le
  rw [Array.size_push] at hle
  exact Array.getElem?_setIfInBounds_self_of_lt hle

end Collection

theorem map_fst_map_snd {α β γ : Type} (found : List (α × (β × γ))) :
    (found.map Prod.snd).map Prod.fst = (found.map fun f => (f.1, f.2.1)).map Prod.snd := by
  rw [List.map_map, List.map_map]
  rfl

/-- Room for an array is room for its items and some more. -/
theorem exists_room_of_items {items : List (Json Points)}
    (h : levelRoom * (Json.arr items).depth ≤ room) :
    ∃ inner, room = inner + levelRoom ∧ ∀ v ∈ items, levelRoom * v.depth ≤ inner := by
  rw [Json.depth, Nat.mul_succ] at h
  refine ⟨room - levelRoom, by omega, fun v hv => ?_⟩
  have hle := Nat.mul_le_mul_left levelRoom (Json.depthOfItems_le_iff.1 (Nat.le_refl _) v hv)
  omega

/-- Room for an object is room for the values of its members and some more. -/
theorem exists_room_of_members {members : List (Points × Json Points)}
    (h : levelRoom * (Json.obj members).depth ≤ room) :
    ∃ inner, room = inner + levelRoom ∧ ∀ m ∈ members, levelRoom * m.2.depth ≤ inner := by
  rw [Json.depth, Nat.mul_succ] at h
  refine ⟨room - levelRoom, by omega, fun m hm => ?_⟩
  have hle := Nat.mul_le_mul_left levelRoom (Json.depthOfMembers_le_iff.1 (Nat.le_refl _) m hm)
  omega

/-- Every value for which there is room is composed. -/
theorem isComposed_of_stands {out : List Token} (h : Stands v out) : IsComposed v out := by
  induction h with
  | @scalar v text hv hvalue =>
    intro fuel inBlock orItems rest nodes handles room hfuel _
    obtain ⟨k, rfl⟩ : ∃ k, fuel = k + 1 := ⟨fuel - 1, by simp at hfuel; omega⟩
    refine ⟨_, run_node_scalar text true, keepsFrom_push nodes _, ?_⟩
    refine .scalar Array.getElem?_push_size ?_
    rwa [hv.tokens_eq.2]
  | text s =>
    intro fuel inBlock orItems rest nodes handles room hfuel _
    obtain ⟨k, rfl⟩ : ∃ k, fuel = k + 1 := ⟨fuel - 1, by simp at hfuel; omega⟩
    exact ⟨_, run_node_scalar s false, keepsFrom_push nodes _, .scalar Array.getElem?_push_size rfl⟩
  | @arr items h ih =>
    intro fuel inBlock orItems rest nodes handles room hfuel hroom
    obtain ⟨inner, rfl, hinner⟩ := exists_room_of_items hroom
    obtain ⟨k, rfl⟩ : ∃ k, fuel = k + 2 := ⟨fuel - 2, by simp at hfuel; omega⟩
    have hlength : (separated (items.map Prod.snd)).length ≤ k := by simpa using hfuel
    obtain ⟨found, nodes₂, hrun, hkeeps, rfl, hall⟩ := isLoop_flowItems.finds_all
      (fun p hp => takes_item (h p hp) (ih p hp) (hinner _ (List.mem_map_of_mem hp)))
      (fun p hp => length_pos_of_stands (h p hp)) rest hlength (nodes.push ⟨.seq, .sequence []⟩) handles
    simp only [Array.size_push] at hall
    let n : Node := ⟨.seq, .sequence (found.map Prod.fst)⟩
    refine ⟨nodes₂.setIfInBounds nodes.size n, ?_, keepsFrom_collection hkeeps n, ?_⟩
    · rw [List.cons_append, List.append_assoc, run_node_flowSequence]
      exact run_addCollection (run_map_of_run Content.sequence hrun)
    · rw [map_fst_map_snd]
      refine .arr ?_ (List.forall_mem_map.2 fun f hf => (hall f hf).1)
        (List.forall_mem_map.2 fun f hf => ?_)
      · rw [List.map_map]
        exact getElem?_collection hkeeps n
      · exact (hall f hf).2.congr (keepsFrom_set nodes₂ nodes.size n) (hall f hf).1
  | @obj members h ih =>
    intro fuel inBlock orItems rest nodes handles room hfuel hroom
    obtain ⟨inner, rfl, hinner⟩ := exists_room_of_members hroom
    obtain ⟨k, rfl⟩ : ∃ k, fuel = k + 2 := ⟨fuel - 2, by simp at hfuel; omega⟩
    have hlength : (separated (members.map Member.tokens)).length ≤ k := by simpa using hfuel
    obtain ⟨found, nodes₂, hrun, hkeeps, rfl, hall⟩ := isLoop_flowEntries.finds_all
      (fun m hm => takes_entry (h m hm) (ih m hm) (hinner _ (List.mem_map_of_mem hm)))
      (fun m hm => Nat.succ_pos _) rest hlength (nodes.push ⟨.map, .sequence []⟩) handles
    simp only [Array.size_push] at hall
    let n : Node := ⟨.map, .mapping (found.map Prod.fst)⟩
    have hset := keepsFrom_set nodes₂ nodes.size n
    refine ⟨nodes₂.setIfInBounds nodes.size n, ?_, keepsFrom_collection hkeeps n, ?_⟩
    · rw [List.cons_append, List.append_assoc, run_node_flowMapping]
      exact run_addCollection (run_map_of_run Content.mapping hrun)
    · rw [map_fst_map_snd]
      refine .obj ?_ (List.forall_mem_map.2 fun f hf => ?_)
        (List.forall_mem_map.2 fun f hf => (hall f hf).1) (List.forall_mem_map.2 fun f hf => ?_)
      · rw [List.map_map]
        exact getElem?_collection hkeeps n
      · exact hset _ (hall f hf).1.1 _ (hall f hf).2.1
      · exact (hall f hf).2.2.congr hset (hall f hf).1.2

theorem run_document (ht : StartsValue t) :
    (document fuel).run ⟨t :: ts, nodes, [], handles, room⟩
      = (node fuel true false).run ⟨t :: ts, nodes, [], handles, room⟩ := by
  rw [document]
  cases t with
  | scalar | flowSequence | flowMapping => rfl
  | _ => exact ht.elim

/-- What stands behind a document. -/
def onlyThen (fuel : Nat) (root : Nat) : Compose (Option Nat) := do
  documentEnds fuel
  if (← peek).isSome then
    let _ ← directives fuel [] false
    throw .malformed
  return some root

theorem run_only (ht : StartsValue t) :
    (only fuel).run ⟨t :: ts, nodes, [], handles, room⟩
      = (document fuel >>= onlyThen fuel).run ⟨t :: ts, nodes, [], handles, room⟩ := by
  cases t with
  | scalar | flowSequence | flowMapping => rfl
  | _ => exact ht.elim

end Compose

/-- Tokens that stand for a JSON value are those of a document whose root represents it. -/
theorem exists_ofTokens {room : Nat} {out : List Token} (h : Stands v out)
    (hroom : Compose.levelRoom * v.depth ≤ room) :
    ∃ nodes, Graph.ofTokens room out = .ok (some ⟨nodes, 0⟩) ∧ Represents nodes 0 v := by
  have hfuel : out.length ≤ 8 * out.length + 8 := by omega
  obtain ⟨nodes, hrun, -, hvalue⟩ := Compose.isComposed_of_stands h (8 * out.length + 8) true false
    [] #[] Compose.defaultHandles room hfuel hroom
  refine ⟨nodes, ?_, hvalue⟩
  obtain ⟨t, ts, hout, ht⟩ := Compose.exists_cons_of_stands h
  have honly : (Compose.only (8 * out.length + 8)).run
      ⟨out, #[], [], Compose.defaultHandles, room⟩
        = .ok (some 0, ⟨[], nodes, [], Compose.defaultHandles, room⟩) := by
    rw [List.append_nil] at hrun
    rw [hout] at hrun ⊢
    rw [Compose.run_only ht]
    rw [← Compose.run_document ht] at hrun
    rw [run_bind_of_run hrun]
    rfl
  rw [Graph.ofTokens]
  simp only [honly]

end PercentTemplate.Yaml

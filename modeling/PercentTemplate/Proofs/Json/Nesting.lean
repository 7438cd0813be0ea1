import PercentTemplate.Proofs.Json.Grammar

/-!
# Nesting

How deep the arrays and objects of a value lie inside one another (`Json.depth`). While the words of
a value are read just so many of them are open at once (`Json.nesting_eq_depth`).
-/

namespace PercentTemplate.Json

open Text (Points)

section Depth

variable {τ : Type}

mutual

/-- How deep arrays and objects lie inside one another. -/
def depth : Json τ → Nat
  | arr items => depthOfItems items + 1
  | obj members => depthOfMembers members + 1
  | _ => 0

def depthOfItems : List (Json τ) → Nat
  | [] => 0
  | v :: rest => max v.depth (depthOfItems rest)

def depthOfMembers : List (τ × Json τ) → Nat
  | [] => 0
  | (_, v) :: rest => max v.depth (depthOfMembers rest)

end

theorem depthOfItems_le_iff {items : List (Json τ)} {n : Nat} :
    depthOfItems items ≤ n ↔ ∀ v ∈ items, v.depth ≤ n := by
  induction items with
  | nil => simp [depthOfItems]
  | cons v rest ih => rw [depthOfItems, Nat.max_le, ih, List.forall_mem_cons]

theorem depthOfMembers_le_iff {members : List (τ × Json τ)} {n : Nat} :
    depthOfMembers members ≤ n ↔ ∀ m ∈ members, m.2.depth ≤ n := by
  induction members with
  | nil => simp [depthOfMembers]
  | cons m rest ih => rw [depthOfMembers, Nat.max_le, ih, List.forall_mem_cons]

/-- Without the members that another one of their name replaces a value is no deeper. -/
theorem depth_resolved_le (v : Json Points) : v.resolved.depth ≤ v.depth := by
  induction v with
  | null | bool | int | float | str => exact Nat.le_refl _
  | arr items ih =>
    rw [resolved_arr]
    refine Nat.succ_le_succ (depthOfItems_le_iff.2 (List.forall_mem_map.2 fun v hv => ?_))
    exact Nat.le_trans (ih v hv) (depthOfItems_le_iff.1 (Nat.le_refl _) v hv)
  | obj members ih =>
    rw [resolved_obj]
    refine Nat.succ_le_succ (depthOfMembers_le_iff.2 fun e he => ?_)
    obtain ⟨m, hm, rfl⟩ := List.mem_map.1 (Keyed.mem_of_mem_ofList he)
    exact Nat.le_trans (ih m hm) (depthOfMembers_le_iff.1 (Nat.le_refl _) m hm)

end Depth

section Nesting

variable {stack : List Frame} {r r' : Reading} {t : Token} {rest : List Token}

theorem nestingFrom_cons (h : step r t = .ok r') (ts : List Token) :
    nestingFrom r (t :: ts) = max r.1.length (nestingFrom r' ts) := by
  rw [nestingFrom, h]

theorem length_deliver (v : Json Points) (stack : List Frame) :
    (deliver v stack).1.length = stack.length := by
  cases stack with
  | nil => rfl
  | cons frame stack => cases frame <;> rfl

/-- A reading that wants a value has as many arrays and objects open over its words as the value is
deep, besides those that are open already. -/
def Opens (v : Json Points) : Prop :=
  ∀ (stack : List Frame) (stage : Stage) (rest : List Token), stage.WantsValue →
    nestingFrom (stack, stage) (v.tokens ++ rest)
      = max (stack.length + v.depth) (nestingFrom (deliver v.resolved stack) rest)

/-- A value of a single word opens nothing. -/
theorem opens_of_word {v : Json Points} (htokens : v.tokens = [t]) (hdepth : v.depth = 0)
    (ht : t ≠ .mark ']') (hstep : ∀ stack, beginValue stack t = .ok (deliver v.resolved stack)) :
    Opens v := by
  intro stack stage rest hstage
  have hbegin : step (stack, stage) t = .ok (deliver v.resolved stack) :=
    (step_of_wantsValue hstage ht).trans (hstep stack)
  rw [htokens, List.singleton_append, nestingFrom_cons hbegin, hdepth]
  rfl

theorem nestingFrom_further_items {items : List (Json Points)} (h : ∀ v ∈ items, Opens v)
    (done : List (Json Points)) :
    nestingFrom (.array done :: stack, .separator) (further tokens items ++ .mark ']' :: rest)
      = max (stack.length + 1 + depthOfItems items)
        (nestingFrom (deliver (.arr (done.reverse ++ items.map resolved)) stack) rest) := by
  induction items generalizing done with
  | nil =>
    rw [List.map_nil, List.append_nil]
    exact nestingFrom_cons rfl rest
  | cons v items ih =>
    have hv := h v List.mem_cons_self
    have hrest := ih (fun w hw => h w (List.mem_cons_of_mem v hw)) (v.resolved :: done)
    rw [further_cons, List.cons_append, nestingFrom_cons rfl, List.append_assoc,
      hv _ _ _ wantsValue_value, deliver, hrest, depthOfItems]
    simp only [List.length_cons, List.reverse_cons, List.append_assoc, List.singleton_append,
      List.map_cons]
    omega

theorem opens_arr {items : List (Json Points)} (h : ∀ v ∈ items, Opens v) :
    Opens (.arr items) := by
  intro stack stage rest hstage
  have hopen : step (stack, stage) (.mark '[') = .ok (.array [] :: stack, .firstItem) :=
    step_of_wantsValue hstage (by simp)
  rw [tokens_arr, resolved_arr, List.cons_append, List.append_assoc, List.singleton_append,
    nestingFrom_cons hopen, depth]
  cases items with
  | nil =>
    rw [List.map_nil, separated, List.nil_append, nestingFrom_cons rfl, depthOfItems]
    simp only [List.length_cons, List.map_nil, List.reverse_nil]
    omega
  | cons v items =>
    rw [separated_map_cons, List.append_assoc, h v List.mem_cons_self _ _ _ wantsValue_firstItem,
      deliver, nestingFrom_further_items fun w hw => h w (List.mem_cons_of_mem v hw), depthOfItems]
    simp only [List.length_cons, List.reverse_cons, List.reverse_nil, List.nil_append,
      List.singleton_append, List.map_cons]
    omega

theorem nestingFrom_memberWords {m : Points × Json Points} (h : Opens m.2)
    (done : List (Points × Json Points)) (name : Points) (first : Bool) :
    nestingFrom (.object done name :: stack, .name first) (memberWords m ++ rest)
      = max (stack.length + 1 + m.2.depth)
        (nestingFrom (.object (resolvedMember m :: done) m.1 :: stack, .separator) rest) := by
  have hname : step (.object done name :: stack, .name first) (.text m.1)
      = .ok (.object done m.1 :: stack, .colon) := by
    cases first <;> rfl
  rw [memberWords, List.cons_append, List.cons_append, nestingFrom_cons hname,
    nestingFrom_cons rfl, h _ _ _ wantsValue_value, deliver]
  simp only [List.length_cons, resolvedMember]
  omega

theorem nestingFrom_further_members {members : List (Points × Json Points)}
    (h : ∀ m ∈ members, Opens m.2) (done : List (Points × Json Points)) (name : Points) :
    nestingFrom (.object done name :: stack, .separator)
        (further memberWords members ++ .mark '\x7d' :: rest)
      = max (stack.length + 1 + depthOfMembers members) (nestingFrom (deliver
        (.obj (Keyed.ofList (done.reverse ++ members.map resolvedMember))) stack) rest) := by
  induction members generalizing done name with
  | nil =>
    rw [List.map_nil, List.append_nil]
    exact nestingFrom_cons rfl rest
  | cons m members ih =>
    have hrest := ih (fun n hn => h n (List.mem_cons_of_mem m hn)) (resolvedMember m :: done) m.1
    rw [further_cons, List.cons_append, nestingFrom_cons rfl, List.append_assoc,
      nestingFrom_memberWords (h m List.mem_cons_self), hrest, depthOfMembers]
    simp only [List.length_cons, List.reverse_cons, List.append_assoc, List.singleton_append,
      List.map_cons]
    omega

theorem opens_obj {members : List (Points × Json Points)} (h : ∀ m ∈ members, Opens m.2) :
    Opens (.obj members) := by
  intro stack stage rest hstage
  have hopen : step (stack, stage) (.mark '\x7b') = .ok (.object [] [] :: stack, .name true) :=
    step_of_wantsValue hstage (by simp)
  rw [tokens_obj, resolved_obj, List.cons_append, List.append_assoc, List.singleton_append,
    nestingFrom_cons hopen, depth]
  cases members with
  | nil =>
    rw [List.map_nil, separated, List.nil_append, nestingFrom_cons rfl, depthOfMembers]
    simp only [List.length_cons, List.map_nil, List.reverse_nil]
    omega
  | cons m members =>
    rw [separated_map_cons, List.append_assoc, nestingFrom_memberWords (h m List.mem_cons_self),
      nestingFrom_further_members fun n hn => h n (List.mem_cons_of_mem m hn), depthOfMembers]
    simp only [List.reverse_cons, List.reverse_nil, List.nil_append,
      List.singleton_append, List.map_cons]
    omega

theorem opens (v : Json Points) : Opens v := by
  induction v with
  | null | bool | int | float | str => exact opens_of_word rfl rfl (by simp) fun _ => rfl
  | arr items ih => exact opens_arr ih
  | obj members ih => exact opens_obj ih

/-- The words of a value nest as deep as the value. -/
theorem nesting_eq_depth {cs : List Char} {v : Json Points} (h : Token.lex cs = v.tokens) :
    nesting cs = v.depth := by
  have hopens := opens v [] .value [] wantsValue_value
  rw [List.append_nil] at hopens
  rw [nesting, h, hopens, nestingFrom, length_deliver]
  simp

end Nesting

end PercentTemplate.Json

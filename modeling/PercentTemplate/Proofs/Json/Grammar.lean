import PercentTemplate.Json.Reader
import PercentTemplate.Proofs.Json.Emission
import PercentTemplate.Proofs.Json.Token

/-!
# The grammar of JSON

The words of a value are its marks, texts and scalars in the order in which they are written
(`Json.tokens`), with all members of an object, also those of one name. A sequence of words is read
just if it consists of the words of a value, and the result is this value with the last of several
members of one name (`Json.ofTokens_eq_ok_iff`).

Reading goes word by word, so the two directions are proved apart. The words of a value lead from a
stage at which a value is wanted to one at which it has been handed over (`Json.isReadAs_tokens`).
Backwards, a reading that comes to an end tells at each stage which words are still to come
(`Json.Residual`), and one word more is no surprise (`Json.residual_of_step`).
-/

namespace PercentTemplate.Json

open Text (Points)

/-- Sequences of words, separated by commas. -/
def separated : List (List Token) → List Token
  | [] => []
  | words :: more => words ++ more.flatMap (.mark ',' :: ·)

mutual

/-- The words of a value. -/
def tokens : Json Points → List Token
  | str s => [.text s]
  | arr items => .mark '[' :: (separated (itemTokens items) ++ [.mark ']'])
  | obj members => .mark '\x7b' :: (separated (memberTokens members) ++ [.mark '\x7d'])
  | v => [.scalar v]

def itemTokens : List (Json Points) → List (List Token)
  | [] => []
  | v :: rest => tokens v :: itemTokens rest

def memberTokens : List (Points × Json Points) → List (List Token)
  | [] => []
  | (name, v) :: rest => (.text name :: .mark ':' :: tokens v) :: memberTokens rest

end

mutual

/-- A value in which of several members of one name the last counts. -/
def resolved : Json Points → Json Points
  | arr items => arr (resolvedItems items)
  | obj members => obj (Keyed.ofList (resolvedMembers members))
  | v => v

def resolvedItems : List (Json Points) → List (Json Points)
  | [] => []
  | v :: rest => resolved v :: resolvedItems rest

def resolvedMembers : List (Points × Json Points) → List (Points × Json Points)
  | [] => []
  | (name, v) :: rest => (name, resolved v) :: resolvedMembers rest

end

/-- The words of a member of an object. -/
def memberWords (m : Points × Json Points) : List Token := .text m.1 :: .mark ':' :: m.2.tokens

def resolvedMember (m : Points × Json Points) : Points × Json Points := (m.1, m.2.resolved)

theorem tokens_arr (items : List (Json Points)) :
    tokens (.arr items) = .mark '[' :: (separated (items.map tokens) ++ [.mark ']']) := by
  have hitems : itemTokens items = items.map tokens := by
    induction items with
    | nil => rfl
    | cons v rest ih => rw [itemTokens, ih, List.map_cons]
  rw [tokens, hitems]

theorem tokens_obj (members : List (Points × Json Points)) :
    tokens (.obj members)
      = .mark '\x7b' :: (separated (members.map memberWords) ++ [.mark '\x7d']) := by
  have hmembers : memberTokens members = members.map memberWords := by
    induction members with
    | nil => rfl
    | cons m rest ih => rw [memberTokens, ih, List.map_cons, memberWords]
  rw [tokens, hmembers]

theorem resolved_arr (items : List (Json Points)) :
    resolved (.arr items) = .arr (items.map resolved) := by
  have hitems : resolvedItems items = items.map resolved := by
    induction items with
    | nil => rfl
    | cons v rest ih => rw [resolvedItems, ih, List.map_cons]
  rw [resolved, hitems]

theorem resolved_obj (members : List (Points × Json Points)) :
    resolved (.obj members) = .obj (Keyed.ofList (members.map resolvedMember)) := by
  have hmembers : resolvedMembers members = members.map resolvedMember := by
    induction members with
    | nil => rfl
    | cons m rest ih => rw [resolvedMembers, ih, List.map_cons, resolvedMember]
  rw [resolved, hmembers]

/-- A value that is a single word. -/
theorem Token.IsLexical.tokens_eq {v : Json Points} (h : Token.IsLexical v) :
    tokens v = [.scalar v] ∧ resolved v = v := by
  cases h <;> exact ⟨rfl, rfl⟩

section Reading

/-- A value may begin. -/
def Stage.WantsValue : Stage → Prop
  | .value | .firstItem => True
  | .name _ | .colon | .separator | .finished _ => False

theorem wantsValue_value : Stage.value.WantsValue := trivial

theorem wantsValue_firstItem : Stage.firstItem.WantsValue := trivial

variable {stack : List Frame}

theorem foldlM_step_cons {r r' : Reading} {t : Token} (h : step r t = .ok r') (ts : List Token) :
    (t :: ts).foldlM step r = ts.foldlM step r' := by
  rw [List.foldlM_cons, h]
  rfl

theorem step_of_wantsValue {stage : Stage} (h : stage.WantsValue) {t : Token}
    (ht : t ≠ .mark ']') : step (stack, stage) t = beginValue stack t := by
  cases stage with
  | value => rfl
  | firstItem =>
    unfold step
    simp only
  | name | colon | separator | finished => exact h.elim

/-- The words of further items or members, each behind a comma. -/
def further {α : Type} (words : α → List Token) (more : List α) : List Token :=
  more.flatMap fun x => .mark ',' :: words x

theorem further_cons {α : Type} (words : α → List Token) (x : α) (more : List α) :
    further words (x :: more) = .mark ',' :: (words x ++ further words more) := by
  rw [further, List.flatMap_cons, List.cons_append]
  rfl

theorem separated_map_cons {α : Type} (words : α → List Token) (x : α) (more : List α) :
    separated ((x :: more).map words) = words x ++ further words more := by
  rw [List.map_cons, separated, List.flatMap_map]
  rfl

/-- A reading that wants a value takes these words as the value. -/
def IsReadAs (words : List Token) (v : Json Points) : Prop :=
  ∀ (stack : List Frame) (stage : Stage) (rest : List Token), stage.WantsValue →
    (words ++ rest).foldlM step (stack, stage) = rest.foldlM step (deliver v stack)

variable {rest : List Token}

theorem isReadAs_scalar (v : Json Points) : IsReadAs [.scalar v] v := by
  intro stack stage rest hstage
  have hstep : step (stack, stage) (.scalar v) = .ok (deliver v stack) :=
    step_of_wantsValue hstage (by simp)
  rw [List.singleton_append, foldlM_step_cons hstep]

theorem isReadAs_text (s : Points) : IsReadAs [.text s] (.str s) := by
  intro stack stage rest hstage
  have hstep : step (stack, stage) (.text s) = .ok (deliver (.str s) stack) :=
    step_of_wantsValue hstage (by simp)
  rw [List.singleton_append, foldlM_step_cons hstep]

theorem foldlM_further_items {items : List (Json Points)}
    (h : ∀ v ∈ items, IsReadAs v.tokens v.resolved) (done : List (Json Points)) :
    (further tokens items ++ .mark ']' :: rest).foldlM step (.array done :: stack, .separator)
      = rest.foldlM step (deliver (.arr (done.reverse ++ items.map resolved)) stack) := by
  induction items generalizing done with
  | nil =>
    rw [List.map_nil, List.append_nil]
    exact foldlM_step_cons rfl rest
  | cons v items ih =>
    have hv := h v List.mem_cons_self
    have hrest := ih (fun w hw => h w (List.mem_cons_of_mem v hw)) (v.resolved :: done)
    rw [further_cons, List.cons_append, foldlM_step_cons rfl, List.append_assoc,
      hv _ _ _ wantsValue_value, deliver, hrest]
    simp

theorem isReadAs_arr {items : List (Json Points)} (h : ∀ v ∈ items, IsReadAs v.tokens v.resolved) :
    IsReadAs (tokens (.arr items)) (resolved (.arr items)) := by
  intro stack stage rest hstage
  have hopen : step (stack, stage) (.mark '[') = .ok (.array [] :: stack, .firstItem) :=
    step_of_wantsValue hstage (by simp)
  rw [tokens_arr, resolved_arr, List.cons_append, List.append_assoc, List.singleton_append,
    foldlM_step_cons hopen]
  cases items with
  | nil => exact foldlM_step_cons rfl rest
  | cons v items =>
    rw [separated_map_cons, List.append_assoc, h v List.mem_cons_self _ _ _ wantsValue_firstItem,
      deliver, foldlM_further_items fun w hw => h w (List.mem_cons_of_mem v hw)]
    rfl

theorem foldlM_memberWords {m : Points × Json Points} (h : IsReadAs m.2.tokens m.2.resolved)
    (done : List (Points × Json Points)) (name : Points) (first : Bool) :
    (memberWords m ++ rest).foldlM step (.object done name :: stack, .name first)
      = rest.foldlM step (.object (resolvedMember m :: done) m.1 :: stack, .separator) := by
  have hname : step (.object done name :: stack, .name first) (.text m.1)
      = .ok (.object done m.1 :: stack, .colon) := by
    cases first <;> rfl
  rw [memberWords, List.cons_append, List.cons_append, foldlM_step_cons hname,
    foldlM_step_cons rfl, h _ _ _ wantsValue_value]
  rfl

theorem foldlM_further_members {members : List (Points × Json Points)}
    (h : ∀ m ∈ members, IsReadAs m.2.tokens m.2.resolved) (done : List (Points × Json Points))
    (name : Points) :
    (further memberWords members ++ .mark '\x7d' :: rest).foldlM step
        (.object done name :: stack, .separator)
      = rest.foldlM step (deliver
        (.obj (Keyed.ofList (done.reverse ++ members.map resolvedMember))) stack) := by
  induction members generalizing done name with
  | nil =>
    rw [List.map_nil, List.append_nil]
    exact foldlM_step_cons rfl rest
  | cons m members ih =>
    have hrest := ih (fun n hn => h n (List.mem_cons_of_mem m hn)) (resolvedMember m :: done) m.1
    rw [further_cons, List.cons_append, foldlM_step_cons rfl, List.append_assoc,
      foldlM_memberWords (h m List.mem_cons_self), hrest]
    simp

theorem isReadAs_obj {members : List (Points × Json Points)}
    (h : ∀ m ∈ members, IsReadAs m.2.tokens m.2.resolved) :
    IsReadAs (tokens (.obj members)) (resolved (.obj members)) := by
  intro stack stage rest hstage
  have hopen : step (stack, stage) (.mark '\x7b') = .ok (.object [] [] :: stack, .name true) :=
    step_of_wantsValue hstage (by simp)
  rw [tokens_obj, resolved_obj, List.cons_append, List.append_assoc, List.singleton_append,
    foldlM_step_cons hopen]
  cases members with
  | nil => exact foldlM_step_cons rfl rest
  | cons m members =>
    rw [separated_map_cons, List.append_assoc, foldlM_memberWords (h m List.mem_cons_self),
      foldlM_further_members fun n hn => h n (List.mem_cons_of_mem m hn)]
    rfl

/-- The words of a value are read as the value, wherever a value is wanted. -/
theorem isReadAs_tokens (v : Json Points) : IsReadAs v.tokens v.resolved := by
  induction v with
  | null | bool | int | float => exact isReadAs_scalar _
  | str s => exact isReadAs_text s
  | arr items ih => exact isReadAs_arr ih
  | obj members ih => exact isReadAs_obj ih

end Reading

section Residual

variable {v : Json Points}

/-- After `w` has been handed over, the words close what is open and leave the result `v`. -/
def Closes (v : Json Points) : List Frame → Json Points → List Token → Prop
  | [], w, words => words = [] ∧ w = v
  | .array done :: stack, w, words =>
    ∃ more rest, words = further tokens more ++ .mark ']' :: rest
      ∧ Closes v stack (.arr ((w :: done).reverse ++ more.map resolved)) rest
  | .object done name :: stack, w, words =>
    ∃ more rest, words = further memberWords more ++ .mark '\x7d' :: rest
      ∧ Closes v stack
        (.obj (Keyed.ofList (((name, w) :: done).reverse ++ more.map resolvedMember))) rest

/-- The words that are still to come if the result of a reading is to be `v`. -/
def Residual (v : Json Points) : Reading → List Token → Prop
  | (stack, .value), words =>
    ∃ raw rest, words = tokens raw ++ rest ∧ Closes v stack raw.resolved rest
  | (stack, .firstItem), words =>
    (∃ raw rest, words = tokens raw ++ rest ∧ Closes v stack raw.resolved rest)
      ∨ ∃ done stack' rest, stack = .array done :: stack' ∧ words = .mark ']' :: rest
        ∧ Closes v stack' (.arr done.reverse) rest
  | (.object done _ :: stack, .name first), words =>
    (∃ m more rest, words = memberWords m ++ further memberWords more ++ .mark '\x7d' :: rest
      ∧ Closes v stack
        (.obj (Keyed.ofList (done.reverse ++ (m :: more).map resolvedMember))) rest)
    ∨ first = true ∧ ∃ rest, words = .mark '\x7d' :: rest
      ∧ Closes v stack (.obj (Keyed.ofList done.reverse)) rest
  | (stack, .colon), words =>
    ∃ raw rest, words = .mark ':' :: (tokens raw ++ rest) ∧ Closes v stack raw.resolved rest
  | (.array done :: stack, .separator), words =>
    ∃ more rest, words = further tokens more ++ .mark ']' :: rest
      ∧ Closes v stack (.arr (done.reverse ++ more.map resolved)) rest
  | (.object done _ :: stack, .separator), words =>
    ∃ more rest, words = further memberWords more ++ .mark '\x7d' :: rest
      ∧ Closes v stack (.obj (Keyed.ofList (done.reverse ++ more.map resolvedMember))) rest
  | (_, .finished w), words => words = [] ∧ w = v
  | _, _ => False

theorem residual_deliver {stack : List Frame} {w : Json Points} {words : List Token} :
    Residual v (deliver w stack) words ↔ Closes v stack w words := by
  cases stack with
  | nil => rfl
  | cons frame stack => cases frame <;> rfl

variable {stack : List Frame} {words : List Token} {t : Token} {r r' : Reading}

theorem residual_of_beginValue (ht : ∀ w, t = .scalar w → Token.IsLexical w)
    (h : beginValue stack t = .ok r') (hwords : Residual v r' words) :
    ∃ raw rest, t :: words = tokens raw ++ rest ∧ Closes v stack raw.resolved rest := by
  unfold beginValue at h
  split at h
  · cases h
    obtain ⟨first, rest, rfl, more, rest, rfl, hcloses⟩ |
      ⟨done, stack', rest, hstack, rfl, hcloses⟩ := hwords
    · refine ⟨.arr (first :: more), rest, ?_, ?_⟩
      · rw [tokens_arr, separated_map_cons]
        simp
      · rwa [resolved_arr]
    · cases hstack
      exact ⟨.arr [], rest, rfl, hcloses⟩
  · cases h
    obtain ⟨m, more, rest, rfl, hcloses⟩ | ⟨-, rest, rfl, hcloses⟩ := hwords
    · refine ⟨.obj (m :: more), rest, ?_, ?_⟩
      · rw [tokens_obj, separated_map_cons]
        simp
      · rwa [resolved_obj]
    · exact ⟨.obj [], rest, rfl, hcloses⟩
  · rename_i s
    cases h
    exact ⟨.str s, words, rfl, residual_deliver.1 hwords⟩
  · rename_i w
    cases h
    obtain ⟨htokens, hresolved⟩ := (ht w rfl).tokens_eq
    refine ⟨w, words, ?_, ?_⟩
    · rw [htokens]
      rfl
    · rw [hresolved]
      exact residual_deliver.1 hwords
  · cases h
  · cases h

theorem residual_of_closeArray (h : closeArray stack = .ok r') (hwords : Residual v r' words) :
    ∃ done stack', stack = .array done :: stack' ∧ Closes v stack' (.arr done.reverse) words := by
  unfold closeArray at h
  split at h
  · cases h
    exact ⟨_, _, rfl, residual_deliver.1 hwords⟩
  · cases h

theorem residual_of_closeObject (h : closeObject stack = .ok r') (hwords : Residual v r' words) :
    ∃ done name stack', stack = .object done name :: stack'
      ∧ Closes v stack' (.obj (Keyed.ofList done.reverse)) words := by
  unfold closeObject at h
  split at h
  · cases h
    exact ⟨_, _, _, rfl, residual_deliver.1 hwords⟩
  · cases h

theorem residual_of_nameMember {name : Points} {first : Bool} (h : nameMember name stack = .ok r')
    (hwords : Residual v r' words) : Residual v (stack, .name first) (.text name :: words) := by
  unfold nameMember at h
  split at h
  · cases h
    obtain ⟨raw, rest, rfl, more, rest, rfl, hcloses⟩ := hwords
    refine .inl ⟨(name, raw), more, rest, ?_, ?_⟩
    · simp [memberWords]
    · simpa [resolvedMember] using hcloses
  · cases h

theorem residual_of_continueInner (h : continueInner stack = .ok r')
    (hwords : Residual v r' words) : Residual v (stack, .separator) (.mark ',' :: words) := by
  unfold continueInner at h
  split at h
  · cases h
    obtain ⟨raw, rest, rfl, more, rest, rfl, hcloses⟩ := hwords
    refine ⟨raw :: more, rest, ?_, ?_⟩
    · rw [further_cons]
      simp
    · simpa using hcloses
  · cases h
    obtain ⟨m, more, rest, rfl, hcloses⟩ | ⟨hfirst, -⟩ := hwords
    · refine ⟨m :: more, rest, ?_, hcloses⟩
      rw [further_cons]
      simp
    · cases hfirst
  · cases h

/-- One word more is a word that was still to come. -/
theorem residual_of_step (ht : ∀ w, t = .scalar w → Token.IsLexical w) (h : step r t = .ok r')
    (hwords : Residual v r' words) : Residual v r (t :: words) := by
  obtain ⟨stack, stage⟩ := r
  unfold step at h
  simp only at h
  -- The cases are those of `step`: what may come next, and the word that comes.
  split at h
  · exact residual_of_beginValue ht h hwords
  · obtain ⟨done, stack', rfl, hcloses⟩ := residual_of_closeArray h hwords
    exact .inr ⟨_, _, _, rfl, rfl, hcloses⟩
  · exact .inl (residual_of_beginValue ht h hwords)
  · obtain ⟨done, name, stack', rfl, hcloses⟩ := residual_of_closeObject h hwords
    exact .inr ⟨rfl, _, rfl, hcloses⟩
  · exact residual_of_nameMember h hwords
  · cases h
    obtain ⟨raw, rest, rfl, hcloses⟩ := hwords
    exact ⟨raw, rest, rfl, hcloses⟩
  · exact residual_of_continueInner h hwords
  · obtain ⟨done, stack', rfl, hcloses⟩ := residual_of_closeArray h hwords
    exact ⟨[], words, rfl, by rwa [List.map_nil, List.append_nil]⟩
  · obtain ⟨done, name, stack', rfl, hcloses⟩ := residual_of_closeObject h hwords
    exact ⟨[], words, rfl, by rwa [List.map_nil, List.append_nil]⟩
  · cases h

/-- A reading that comes to an end has met the words that were still to come. -/
theorem residual_of_foldlM {stack' : List Frame}
    (ht : ∀ w, .scalar w ∈ words → Token.IsLexical w)
    (h : words.foldlM step r = .ok (stack', .finished v)) : Residual v r words := by
  induction words generalizing r with
  | nil =>
    cases h
    cases stack' with
    | nil => exact ⟨rfl, rfl⟩
    | cons frame stack' => cases frame <;> exact ⟨rfl, rfl⟩
  | cons t words ih =>
    rw [List.foldlM_cons] at h
    cases hstep : step r t with
    | error f => rw [hstep] at h; cases h
    | ok r' =>
      rw [hstep] at h
      exact residual_of_step (fun w hw => ht w (hw ▸ List.mem_cons_self)) hstep
        (ih (fun w hw => ht w (List.mem_cons_of_mem t hw)) h)

end Residual

/-- A sequence of words is read just if it is the words of a value, and then as this value with the
last of several members of one name. -/
theorem ofTokens_eq_ok_iff {words : List Token} {v : Json Points}
    (ht : ∀ w, .scalar w ∈ words → Token.IsLexical w) :
    ofTokens words = .ok v ↔ ∃ raw, words = tokens raw ∧ v = resolved raw := by
  constructor
  · intro h
    unfold ofTokens at h
    split at h
    · rename_i heq
      cases h
      obtain ⟨raw, rest, rfl, rfl, rfl⟩ := residual_of_foldlM ht heq
      exact ⟨raw, List.append_nil _, rfl⟩
    · cases h
    · cases h
  · rintro ⟨raw, rfl, rfl⟩
    have hread := isReadAs_tokens raw [] .value [] wantsValue_value
    rw [List.append_nil] at hread
    rw [ofTokens, hread]
    rfl

/-- A text is a JSON value just if its words are those of a value. -/
theorem read_eq_ok_iff {s : String} {v : Json Points} :
    read s = .ok v ↔ ∃ raw, Token.lex s.toList = tokens raw ∧ v = resolved raw :=
  ofTokens_eq_ok_iff fun _ => Token.isLexical_of_mem_lex

/-- After these words a value may come. -/
def Expectant (front : List Token) : Prop :=
  ∃ stack stage, front.foldlM step ([], .value) = .ok (stack, stage) ∧ stage.WantsValue

theorem foldlM_eq_error_iff {words : List Token} {r : Reading} {f : Fault} :
    words.foldlM step r = .error f
      ↔ ∃ front t rest r', words = front ++ t :: rest ∧ front.foldlM step r = .ok r'
        ∧ step r' t = .error f := by
  constructor
  · intro h
    induction words generalizing r with
    | nil => cases h
    | cons t words ih =>
      cases hstep : step r t with
      | error g =>
        rw [List.foldlM_cons, hstep] at h
        cases h
        exact ⟨[], t, words, r, rfl, rfl, hstep⟩
      | ok r₁ =>
        rw [foldlM_step_cons hstep] at h
        obtain ⟨front, u, rest, r', rfl, hfront, hu⟩ := ih h
        exact ⟨t :: front, u, rest, r', rfl, (foldlM_step_cons hstep front).trans hfront, hu⟩
  · rintro ⟨front, t, rest, r', rfl, hfront, ht⟩
    rw [List.foldlM_append, hfront]
    change (t :: rest).foldlM step r' = .error f
    rw [List.foldlM_cons, ht]
    rfl

theorem beginValue_eq_error_integer_iff {stack : List Frame} {t : Token} {f : Integer.Fault} :
    beginValue stack t = .error (.integer f) ↔ t = .fault (.integer f) := by
  constructor
  · intro h
    unfold beginValue at h
    split at h <;> cases h
    rfl
  · rintro rfl
    rfl

/-- An integer that cannot be converted counts as such where a value may come, and nowhere else. -/
theorem step_eq_error_integer_iff {r : Reading} {t : Token} {f : Integer.Fault} :
    step r t = .error (.integer f) ↔ r.2.WantsValue ∧ t = .fault (.integer f) := by
  obtain ⟨stack, stage⟩ := r
  constructor
  · intro h
    unfold step at h
    simp only at h
    split at h
    · exact ⟨trivial, beginValue_eq_error_integer_iff.1 h⟩
    · unfold closeArray at h
      split at h <;> cases h
    · exact ⟨trivial, beginValue_eq_error_integer_iff.1 h⟩
    · unfold closeObject at h
      split at h <;> cases h
    · unfold nameMember at h
      split at h <;> cases h
    · cases h
    · unfold continueInner at h
      split at h <;> cases h
    · unfold closeArray at h
      split at h <;> cases h
    · unfold closeObject at h
      split at h <;> cases h
    · cases h
  · rintro ⟨hstage, rfl⟩
    rw [step_of_wantsValue hstage (by simp)]
    rfl

/-- A text is refused for an integer just if one with too many digits stands where a value may come
and nothing before it is wrong. -/
theorem read_eq_error_integer_iff {s : String} {f : Integer.Fault} :
    read s = .error (.integer f)
      ↔ ∃ front rest, Token.lex s.toList = front ++ .fault (.integer f) :: rest
        ∧ Expectant front := by
  have hfold : read s = .error (.integer f)
      ↔ (Token.lex s.toList).foldlM step ([], .value) = .error (.integer f) := by
    unfold read ofTokens
    split <;> simp_all
  rw [hfold, foldlM_eq_error_iff]
  constructor
  · rintro ⟨front, t, rest, r, hlex, hfront, hstep⟩
    obtain ⟨hstage, rfl⟩ := step_eq_error_integer_iff.1 hstep
    exact ⟨front, rest, hlex, r.1, r.2, hfront, hstage⟩
  · rintro ⟨front, rest, hlex, stack, stage, hfront, hstage⟩
    exact ⟨front, _, rest, _, hlex, hfront, step_eq_error_integer_iff.2 ⟨hstage, rfl⟩⟩

theorem subset_separated {words : List Token} {all : List (List Token)} (h : words ∈ all) :
    words ⊆ separated all := by
  cases all with
  | nil => cases h
  | cons first more =>
    rw [separated]
    rcases List.mem_cons.1 h with rfl | h
    · exact List.subset_append_left _ _
    · intro t ht
      exact List.mem_append_right _ (List.mem_flatMap.2 ⟨words, h, List.mem_cons_of_mem _ ht⟩)

/-- A value without long integers among its words has none at all. -/
theorem isConvertible_resolved {raw : Json Points}
    (h : ∀ w, .scalar w ∈ tokens raw → Token.IsLexical w) : raw.resolved.IsConvertible := by
  induction raw with
  | null => exact .null
  | bool b => exact .bool b
  | int n =>
    cases h (.int n) List.mem_cons_self with
    | int hn => exact .int hn
  | float x => exact .float x
  | str s => exact .str s
  | arr items ih =>
    rw [resolved_arr, isConvertible_arr, List.forall_mem_map]
    intro v hv
    have hwords := subset_separated (List.mem_map_of_mem (f := tokens) hv)
    refine ih v hv fun w hw => h w ?_
    rw [tokens_arr]
    exact List.mem_cons_of_mem _ (List.mem_append_left _ (hwords hw))
  | obj members ih =>
    rw [resolved_obj, isConvertible_obj]
    intro e he
    obtain ⟨m, hm, rfl⟩ := List.mem_map.1 (Keyed.mem_of_mem_ofList he)
    have hwords := subset_separated (List.mem_map_of_mem (f := memberWords) hm)
    refine ih m hm fun w hw => h w ?_
    rw [tokens_obj]
    refine List.mem_cons_of_mem _ (List.mem_append_left _ (hwords ?_))
    exact List.mem_cons_of_mem _ (List.mem_cons_of_mem _ hw)

/-- All integers of a text that is read can be converted. -/
theorem isConvertible_of_read {s : String} {v : Json Points} (h : read s = .ok v) :
    v.IsConvertible := by
  obtain ⟨raw, hlex, rfl⟩ := read_eq_ok_iff.1 h
  exact isConvertible_resolved fun w hw => Token.isLexical_of_mem_lex (hlex ▸ hw)

end PercentTemplate.Json

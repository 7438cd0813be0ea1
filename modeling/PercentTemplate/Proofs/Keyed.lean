import Mathlib.Data.List.Induction
import PercentTemplate.Keyed

/-!
# Keys and first occurrences

A look-up finds something exactly under the keys of a list (`Keyed.isSome_get?`), and the first
occurrences of the elements of a list stand in the order in which they occur first
(`Keyed.pairwise_distinct`). Entries with distinct keys are found whatever their order is
(`Keyed.get?_perm`).
-/

namespace PercentTemplate.Keyed

variable {κ α : Type} [BEq κ]

theorem distinct_concat (xs : List κ) (x : κ) :
    distinct (xs ++ [x]) = addNew (distinct xs) x := by
  rw [distinct, List.foldl_append]
  rfl

section Map

variable {ι β : Type} [BEq ι] [LawfulBEq ι] [LawfulBEq κ] {g : κ → ι}

theorem beq_of_injective (hg : Function.Injective g) (k key : κ) :
    (g k == g key) = (k == key) := by
  rw [Bool.eq_iff_iff, beq_iff_eq, beq_iff_eq]
  exact hg.eq_iff

theorem get?_map_of_injective (hg : Function.Injective g) (f : α → β) (key : κ)
    (entries : List (κ × α)) :
    get? (g key) (entries.map fun e => (g e.1, f e.2)) = (get? key entries).map f := by
  induction entries with
  | nil => rfl
  | cons e rest ih =>
    by_cases h : e.1 == key <;> simp [get?, beq_of_injective hg, h, ih]

omit [BEq κ] [BEq ι] [LawfulBEq ι] [LawfulBEq κ] in
theorem nodup_keys_map_of_injective (hg : Function.Injective g) (f : α → β)
    {entries : List (κ × α)} (h : (keys entries).Nodup) :
    (keys (entries.map fun e => (g e.1, f e.2))).Nodup := by
  have hkeys : keys (entries.map fun e => (g e.1, f e.2)) = (keys entries).map g := by
    rw [keys, keys, List.map_map, List.map_map]
    rfl
  rw [hkeys]
  exact List.Pairwise.map g (fun _ _ hne heq => hne (hg heq)) h

theorem put_map_of_injective (hg : Function.Injective g) (f : α → β) (key : κ) (value : α)
    (entries : List (κ × α)) :
    put (g key) (f value) (entries.map fun e => (g e.1, f e.2))
      = (put key value entries).map fun e => (g e.1, f e.2) := by
  induction entries with
  | nil => rfl
  | cons e rest ih =>
    by_cases h : e.1 == key <;> simp [put, beq_of_injective hg, h, ih]

/-- Keys may be renamed and values changed before or after entries are put in order. -/
theorem ofList_map_of_injective (hg : Function.Injective g) (f : α → β)
    (entries : List (κ × α)) :
    ofList (entries.map fun e => (g e.1, f e.2))
      = (ofList entries).map fun e => (g e.1, f e.2) := by
  suffices hput : ∀ done : List (κ × α),
      putAll (done.map fun e => (g e.1, f e.2)) (entries.map fun e => (g e.1, f e.2))
        = (putAll done entries).map fun e => (g e.1, f e.2) from hput []
  induction entries with
  | nil => exact fun done => rfl
  | cons e rest ih =>
    intro done
    have hrest := ih (put e.1 e.2 done)
    rw [← put_map_of_injective hg] at hrest
    exact hrest

theorem get?_map (f : α → β) (key : κ) (entries : List (κ × α)) :
    get? key (entries.map fun e => (e.1, f e.2)) = (get? key entries).map f :=
  get?_map_of_injective Function.injective_id f key entries

theorem ofList_map (f : α → β) (entries : List (κ × α)) :
    ofList (entries.map fun e => (e.1, f e.2)) = (ofList entries).map fun e => (e.1, f e.2) :=
  ofList_map_of_injective Function.injective_id f entries

end Map

/-- Setting a key changes the entry at its place, or adds one. -/
theorem put_eq_of_findIdx? {key : κ} {entries : List (κ × α)} (value : α) :
    put key value entries = ((entries.findIdx? fun e => e.1 == key).map fun i =>
      entries.modify i fun e => (e.1, value)).getD (entries ++ [(key, value)]) := by
  induction entries with
  | nil => rfl
  | cons e rest ih =>
    obtain ⟨k, v⟩ := e
    by_cases hk : k == key
    · simp [put, List.findIdx?_cons, hk]
    · simp only [put, List.findIdx?_cons, hk, ih]
      cases rest.findIdx? fun e => e.1 == key <;> simp

variable [LawfulBEq κ]

theorem isSome_get? {key : κ} {entries : List (κ × α)} :
    (get? key entries).isSome = true ↔ key ∈ keys entries := by
  induction entries with
  | nil => simp [get?, keys]
  | cons e rest ih =>
    obtain ⟨k, v⟩ := e
    by_cases hk : k == key
    · have hkey : k = key := eq_of_beq hk
      simp [get?, keys, hkey]
    · have hkey : key ≠ k := fun h => hk (beq_iff_eq.2 h.symm)
      have hget : get? key ((k, v) :: rest) = get? key rest := if_neg hk
      rw [hget, ih]
      simp [keys, hkey]

theorem get?_filter_ne (key other : κ) (entries : List (κ × α)) :
    get? other (entries.filter fun e => e.1 != key)
      = if key == other then none else get? other entries := by
  induction entries with
  | nil => simp [get?]
  | cons e rest ih =>
    obtain ⟨k, v⟩ := e
    by_cases hk : k = key
    · subst hk
      by_cases ho : k = other
      · subst ho
        simpa using ih
      · simpa [get?, ho] using ih
    · by_cases ho : k = other
      · subst ho
        simp [get?, hk, Ne.symm hk]
      · simp [get?, hk, ho, ih]

theorem mem_of_get? {key : κ} {value : α} {entries : List (κ × α)}
    (h : get? key entries = some value) : (key, value) ∈ entries := by
  induction entries with
  | nil => cases h
  | cons e rest ih =>
    obtain ⟨k, v⟩ := e
    rw [get?] at h
    split at h
    · rename_i hk
      obtain rfl := eq_of_beq hk
      cases h
      exact List.mem_cons_self
    · exact List.mem_cons_of_mem _ (ih h)

/-- An entry that is kept is still found. -/
theorem get?_filter_of_get? {key : κ} {value : α} {entries : List (κ × α)} {p : κ × α → Bool}
    (h : get? key entries = some value) (hp : p (key, value) = true) :
    get? key (entries.filter p) = some value := by
  induction entries with
  | nil => cases h
  | cons e rest ih =>
    obtain ⟨k, v⟩ := e
    rw [get?] at h
    by_cases hk : k == key
    · obtain rfl := eq_of_beq hk
      rw [if_pos hk] at h
      cases h
      rw [List.filter_cons_of_pos hp, get?, if_pos hk]
    · rw [if_neg hk] at h
      by_cases hkeep : p (k, v) = true
      · rw [List.filter_cons_of_pos hkeep, get?, if_neg hk, ih h]
      · rw [List.filter_cons_of_neg hkeep, ih h]

/-- A value is found exactly if it is entered. -/
theorem get?_eq_some_iff {key : κ} {value : α} {entries : List (κ × α)}
    (h : (keys entries).Nodup) : get? key entries = some value ↔ (key, value) ∈ entries := by
  induction entries with
  | nil => simp [get?]
  | cons e rest ih =>
    obtain ⟨k, v⟩ := e
    rw [keys, List.map_cons, List.nodup_cons] at h
    by_cases hk : k = key
    · subst hk
      have hrest : (k, value) ∉ rest := by
        intro hmem
        exact h.1 (List.mem_map.2 ⟨_, hmem, rfl⟩)
      simp [get?, hrest, eq_comm]
    · simp [get?, hk, Ne.symm hk, ih h.2]

/-- The order of distinct entries does not matter. -/
theorem get?_perm {entries others : List (κ × α)} (hperm : entries.Perm others)
    (h : (keys entries).Nodup) (key : κ) : get? key entries = get? key others := by
  have h' : (keys others).Nodup := (hperm.map Prod.fst).nodup_iff.1 h
  apply Option.ext
  intro value
  rw [get?_eq_some_iff h, get?_eq_some_iff h', hperm.mem_iff]

theorem put_of_notMem {key : κ} {entries : List (κ × α)} (h : key ∉ keys entries) (value : α) :
    put key value entries = entries ++ [(key, value)] := by
  induction entries with
  | nil => rfl
  | cons e rest ih =>
    obtain ⟨k, v⟩ := e
    rw [keys, List.map_cons, List.mem_cons, not_or] at h
    simp [put, Ne.symm h.1, ih h.2]

theorem put_put (key : κ) (value other : α) (entries : List (κ × α)) :
    put key other (put key value entries) = put key other entries := by
  induction entries with
  | nil => simp [put]
  | cons e rest ih => by_cases hk : e.1 == key <;> simp [put, hk, ih]

theorem mem_of_mem_putAll {e : κ × α} {entries news : List (κ × α)} (h : e ∈ putAll entries news) :
    e ∈ entries ∨ e ∈ news := by
  have hput : ∀ {key : κ} {value : α} {entries : List (κ × α)}, e ∈ put key value entries →
      e ∈ entries ∨ e = (key, value) := by
    intro key value entries h
    induction entries with
    | nil => exact .inr (List.mem_singleton.1 h)
    | cons first rest ih =>
      obtain ⟨k, v⟩ := first
      rw [put] at h
      split at h
      · rename_i hk
        rw [eq_of_beq hk, List.mem_cons] at h
        exact h.symm.imp_left (List.mem_cons_of_mem _)
      · rw [List.mem_cons] at h
        rcases h with rfl | h
        · exact .inl List.mem_cons_self
        · exact (ih h).imp_left (List.mem_cons_of_mem _)
  induction news generalizing entries with
  | nil => exact .inl h
  | cons first rest ih =>
    rw [List.mem_cons]
    rcases ih h with h | h
    · exact (hput h).imp_right .inl
    · exact .inr (.inr h)

/-- What is entered is one of the entries. -/
theorem mem_of_mem_ofList {e : κ × α} {entries : List (κ × α)} (h : e ∈ ofList entries) :
    e ∈ entries :=
  (mem_of_mem_putAll h).resolve_left List.not_mem_nil

theorem putAll_eq_append {entries news : List (κ × α)} (h : (keys (entries ++ news)).Nodup) :
    putAll entries news = entries ++ news := by
  induction news generalizing entries with
  | nil => exact (List.append_nil entries).symm
  | cons e rest ih =>
    have hsplit : entries ++ e :: rest = (entries ++ [e]) ++ rest := by simp
    have hnew : e.1 ∉ keys entries := by
      rw [keys, List.map_append, List.map_cons, List.nodup_append] at h
      intro hmem
      exact h.2.2 e.1 hmem e.1 List.mem_cons_self rfl
    rw [hsplit] at h ⊢
    rw [← ih h, putAll, List.foldl_cons, put_of_notMem hnew]
    rfl

theorem mem_keys_putAll {key : κ} {entries news : List (κ × α)} :
    key ∈ keys (putAll entries news) ↔ key ∈ keys entries ∨ key ∈ keys news := by
  rw [← isSome_get?, get?_putAll, Option.isSome_or, Bool.or_eq_true, isSome_get?, isSome_get?,
    keys, keys, List.map_reverse, List.mem_reverse]
  exact or_comm

/-- Entries with distinct keys make up the list that they are. -/
theorem ofList_eq_self {entries : List (κ × α)} (h : (keys entries).Nodup) :
    ofList entries = entries :=
  putAll_eq_append h

/-- Of two elements the one that occurs first comes first. -/
theorem pairwise_distinct (xs : List κ) :
    (distinct xs).Pairwise fun a b => xs.idxOf a < xs.idxOf b := by
  induction xs using List.reverseRecOn with
  | nil => exact .nil
  | append_singleton xs x ih =>
    -- More elements behind leave the first occurrences where they are.
    have hidx : ∀ a ∈ distinct xs, (xs ++ [x]).idxOf a = xs.idxOf a := by
      intro a ha
      rw [List.idxOf_append, if_pos (mem_distinct.1 ha)]
    have hold : (distinct xs).Pairwise fun a b => (xs ++ [x]).idxOf a < (xs ++ [x]).idxOf b := by
      refine ih.imp_of_mem ?_
      intro a b ha hb hab
      rwa [hidx a ha, hidx b hb]
    rw [distinct_concat, addNew]
    split
    · exact hold
    · rename_i hnew
      have hx : x ∉ xs := by
        intro hmem
        exact hnew (List.any_eq_true.2 ⟨x, mem_distinct.2 hmem, beq_self_eq_true x⟩)
      refine List.pairwise_append.2 ⟨hold, List.pairwise_singleton _ _, ?_⟩
      intro a ha b hb
      rw [List.mem_singleton.1 hb, hidx a ha, List.idxOf_append, if_neg hx]
      have hlt : xs.idxOf a < xs.length := List.idxOf_lt_length_of_mem (mem_distinct.1 ha)
      omega

end PercentTemplate.Keyed

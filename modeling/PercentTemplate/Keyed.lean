/-!
# Keyed lists

Entries under distinct keys in the order in which the keys were first set. Setting a key again
replaces its value and keeps its place.

## Main definitions

- `Keyed.get?` — the value under a key
- `Keyed.put` — an entry set or replaced
- `Keyed.ofList` — the entries of a list, of several with one key the last
- `Keyed.keys` — the keys in order
- `Keyed.distinct` — the first occurrence of every element of a list

Main statements: looking up after setting sees exactly the entry set (`Keyed.get?_put`), the last
entry for a key counts (`Keyed.get?_putAll`), and keys stay distinct (`Keyed.nodup_keys_ofList`).
-/

namespace PercentTemplate.Keyed

variable {κ α : Type} [BEq κ]

def get? (key : κ) : List (κ × α) → Option α
  | [] => none
  | (k, v) :: rest => if k == key then some v else get? key rest

/-- Set `key` to `value`: in its place if it is present, at the end otherwise. -/
def put (key : κ) (value : α) : List (κ × α) → List (κ × α)
  | [] => [(key, value)]
  | (k, v) :: rest => if k == key then (k, value) :: rest else (k, v) :: put key value rest

def putAll (entries news : List (κ × α)) : List (κ × α) :=
  news.foldl (fun es e => put e.1 e.2 es) entries

/-- The entries of a list as a keyed list: of several entries with one key the last. -/
def ofList (entries : List (κ × α)) : List (κ × α) :=
  putAll [] entries

def keys (entries : List (κ × α)) : List κ := entries.map Prod.fst

/-- The list `seen` with an element added at the end unless it is there. -/
def addNew (seen : List κ) (k : κ) : List κ := if seen.any (· == k) then seen else seen ++ [k]

/-- The first occurrence of every element of a list. -/
def distinct (keys : List κ) : List κ := keys.foldl addNew []

theorem get?_put [LawfulBEq κ] (key other : κ) (value : α) (entries : List (κ × α)) :
    get? other (put key value entries)
      = if key == other then some value else get? other entries := by
  induction entries with
  | nil => simp [put, get?]
  | cons e rest ih =>
    obtain ⟨k, v⟩ := e
    by_cases hk : k == key
    · have hk' : k = key := eq_of_beq hk
      subst hk'
      by_cases ho : k == other <;> simp [put, get?, ho]
    · by_cases ho : k == other
      · have ho' : k = other := eq_of_beq ho
        subst ho'
        have : (key == k) = false := by
          simp only [beq_eq_false_iff_ne]
          intro h
          subst h
          simp at hk
        simp [put, get?, hk, this]
      · simp [put, get?, hk, ho, ih]

theorem get?_append (key : κ) (first second : List (κ × α)) :
    get? key (first ++ second) = (get? key first).or (get? key second) := by
  induction first with
  | nil => rfl
  | cons e rest ih => by_cases h : e.1 == key <;> simp [get?, h, ih]

/-- Of several entries for a key the last one counts. -/
theorem get?_putAll [LawfulBEq κ] (key : κ) (entries news : List (κ × α)) :
    get? key (putAll entries news) = (get? key news.reverse).or (get? key entries) := by
  induction news generalizing entries with
  | nil => rfl
  | cons e rest ih =>
    rw [putAll, List.foldl_cons, ← putAll, ih, get?_put, List.reverse_cons, get?_append,
      Option.or_assoc]
    by_cases h : e.1 == key <;> simp [get?, h]

variable [LawfulBEq κ]

theorem mem_addNew {seen : List κ} {k x : κ} : x ∈ addNew seen k ↔ x ∈ seen ∨ x = k := by
  unfold addNew
  split
  · rename_i h
    obtain ⟨y, hy, hyk⟩ := List.any_eq_true.1 h
    have : k ∈ seen := eq_of_beq hyk ▸ hy
    constructor
    · exact Or.inl
    · rintro (hx | rfl)
      · exact hx
      · exact this
  · simp

theorem nodup_addNew {seen : List κ} (h : seen.Nodup) (k : κ) : (addNew seen k).Nodup := by
  unfold addNew
  split
  · exact h
  · rename_i hany
    refine List.nodup_append.2 ⟨h, by simp, ?_⟩
    intro a ha b hb hab
    rw [List.mem_singleton] at hb
    subst hb hab
    exact hany (List.any_eq_true.2 ⟨a, ha, beq_self_eq_true a⟩)

/-- Setting a key adds it only if it is new. -/
theorem keys_put (key : κ) (value : α) (entries : List (κ × α)) :
    keys (put key value entries) = addNew (keys entries) key := by
  induction entries with
  | nil => rfl
  | cons e rest ih =>
    obtain ⟨k, v⟩ := e
    by_cases hk : k == key
    · simp [put, keys, addNew, hk]
    · have hcons : keys (put key value ((k, v) :: rest)) = k :: keys (put key value rest) := by
        simp [put, keys, hk]
      rw [hcons, ih, addNew, addNew]
      split <;> simp_all [keys]

theorem nodup_keys_put {key : κ} {value : α} {entries : List (κ × α)}
    (h : (keys entries).Nodup) : (keys (put key value entries)).Nodup := by
  rw [keys_put]
  exact nodup_addNew h key

theorem nodup_keys_putAll {entries : List (κ × α)} (news : List (κ × α))
    (h : (keys entries).Nodup) : (keys (putAll entries news)).Nodup := by
  induction news generalizing entries with
  | nil => exact h
  | cons e rest ih => exact ih (nodup_keys_put h)

/-- The keys of a keyed list are distinct. -/
theorem nodup_keys_ofList (entries : List (κ × α)) : (keys (ofList entries)).Nodup :=
  nodup_keys_putAll entries List.nodup_nil

/-- Going on from elements already seen keeps them distinct and misses nothing. -/
theorem foldl_addNew (keys seen : List κ) (h : seen.Nodup) :
    (keys.foldl addNew seen).Nodup ∧ ∀ x, x ∈ keys.foldl addNew seen ↔ x ∈ seen ∨ x ∈ keys := by
  induction keys generalizing seen with
  | nil => exact ⟨h, fun x => by simp⟩
  | cons k rest ih =>
    obtain ⟨hnodup, hmem⟩ := ih (addNew seen k) (nodup_addNew h k)
    refine ⟨hnodup, fun x => ?_⟩
    rw [List.foldl_cons, hmem, mem_addNew, List.mem_cons, or_assoc]

theorem nodup_distinct (keys : List κ) : (distinct keys).Nodup :=
  (foldl_addNew keys [] List.nodup_nil).1

@[simp] theorem mem_distinct {keys : List κ} {x : κ} : x ∈ distinct keys ↔ x ∈ keys := by
  simpa [distinct] using (foldl_addNew keys [] List.nodup_nil).2 x

end PercentTemplate.Keyed

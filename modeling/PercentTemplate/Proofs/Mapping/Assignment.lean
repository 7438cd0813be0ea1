import Mathlib.Data.List.Forall2
import PercentTemplate.Mapping.Assignment
import PercentTemplate.Proofs.Keyed
import PercentTemplate.Proofs.Text.Run

/-!
# Lists of assignments

An assignment is a key without an equals sign, an equals sign and a value (`Assignment.Assigns`),
and every other text is refused (`Assignment.IsRefused`). A list of assignments makes a mapping in
which the last one for a key counts (`Assignment.LastAssigns`, `Assignment.Collects`), and the first
text of the list that is refused is the one that is reported.
-/

namespace PercentTemplate.Assignment

/-- A text assigns a value to a key. The value may hold further equals signs, the key holds none. -/
structure Assigns (s key value : String) : Prop where
  text_eq : s = key ++ "=" ++ value
  key_ne_empty : key ≠ ""
  equals_notMem : '=' ∉ key.toList

/-- A text has no equals sign, or begins with one. -/
def IsRefused (s : String) : Prop := '=' ∉ s.toList ∨ s.toList.head? = some '='

/-- The first of several texts that is refused. -/
def IsFirstRefused (assignments : List String) (a : String) : Prop :=
  ∃ before after, assignments = before ++ a :: after ∧ IsRefused a ∧ ∀ b ∈ before, ¬IsRefused b

/-- The last assignment to a key gives it a value. -/
def LastAssigns (assignments : List String) (key value : String) : Prop :=
  ∃ before a after, assignments = before ++ a :: after ∧ Assigns a key value
    ∧ ∀ b ∈ after, ∀ other, ¬Assigns b key other

/-- A mapping holds what assignments make: each key that is assigned to, once and with its last
value. -/
structure Collects (assignments : List String) (values : Mapping) : Prop where
  nodup_keys : (Keyed.keys values).Nodup
  mem_keys_iff (key : String) :
    key ∈ Keyed.keys values ↔ ∃ a ∈ assignments, ∃ value, Assigns a key value
  value?_eq_some_iff (key value : String) :
    values.value? key = some value ↔ LastAssigns assignments key value

section One

variable {s key value : String}

/-- Every text is refused, or it is taken apart at its first equals sign. -/
theorem isRefused_or_exists_assigns (s : String) :
    IsRefused s ∨ ∃ key value, Assigns s key value := by
  obtain ⟨run, rest, hsplit, hrun, hrest⟩ := Text.exists_run (· != '=') s.toList
  -- The run ends at the first equals sign, or there is none.
  have hnotMem : '=' ∉ run := fun hmem => by simpa using hrun _ hmem
  match run, rest with
  | run, [] =>
    rw [List.append_nil] at hsplit
    exact .inl (.inl (hsplit ▸ hnotMem))
  | [], x :: value =>
    have hx : x = '=' := by simpa using Text.stops_cons.1 hrest
    exact .inl (.inr (by rw [hsplit, hx]; rfl))
  | k :: key, x :: value =>
    have hx : x = '=' := by simpa using Text.stops_cons.1 hrest
    refine .inr ⟨String.ofList (k :: key), String.ofList value, ?_, ?_, ?_⟩
    · rw [← String.toList_inj, hsplit, hx]
      simp
    · simp [← String.toList_inj]
    · rwa [String.toList_ofList]

theorem Assigns.parse_eq (h : Assigns s key value) : parse s = .ok (key, value) := by
  obtain ⟨rfl, hne, hnotMem⟩ := h
  have hchars : (key ++ "=" ++ value).toList = key.toList ++ '=' :: value.toList := by simp
  have hrun : ∀ x ∈ key.toList, (x != '=') = true := by
    intro x hx
    simpa using fun heq : x = '=' => hnotMem (heq ▸ hx)
  have hstops : Text.Stops (· != '=') ('=' :: value.toList) := Text.stops_cons.2 (by decide)
  obtain ⟨k, rest, hkey⟩ := List.exists_cons_of_ne_nil (l := key.toList) (by simpa using hne)
  simp only [parse, hchars, Text.takeWhile_run hrun hstops, Text.dropWhile_run hrun hstops]
  rw [hkey]
  simp only [← hkey, String.ofList_toList]

theorem IsRefused.parse_eq (h : IsRefused s) : parse s = .error ⟨s⟩ := by
  unfold parse
  rcases h with hnone | hhead
  · have hrun : ∀ x ∈ s.toList, (x != '=') = true := by
      intro x hx
      simpa using fun heq : x = '=' => hnone (heq ▸ hx)
    have hdrop : s.toList.dropWhile (· != '=') = [] := by
      simpa using Text.dropWhile_run hrun (Text.stops_nil _)
    rw [hdrop]
    simp
  · obtain ⟨rest, hrest⟩ : ∃ rest, s.toList = '=' :: rest := List.head?_eq_some_iff.1 hhead
    rw [hrest]
    simp

theorem parse_eq_ok_iff : parse s = .ok (key, value) ↔ Assigns s key value := by
  constructor
  · intro h
    rcases isRefused_or_exists_assigns s with hrefused | ⟨key', value', hassigns⟩
    · cases hrefused.parse_eq.symm.trans h
    · cases hassigns.parse_eq.symm.trans h
      exact hassigns
  · exact Assigns.parse_eq

theorem Assigns.unique {key' value' : String} (h : Assigns s key value)
    (h' : Assigns s key' value') : key = key' ∧ value = value' := by
  cases h.parse_eq.symm.trans h'.parse_eq
  exact ⟨rfl, rfl⟩

/-- What is refused assigns nothing. -/
theorem IsRefused.not_assigns (h : IsRefused s) (key value : String) : ¬Assigns s key value := by
  intro hassigns
  cases h.parse_eq.symm.trans hassigns.parse_eq

theorem exists_assigns (h : ¬IsRefused s) : ∃ key value, Assigns s key value :=
  (isRefused_or_exists_assigns s).resolve_left h

end One

section All

variable {assignments : List String} {entries : List (String × String)} {a key value : String}

/-- Assignments have entries one by one, unless one of them is refused. -/
theorem mapM_parse_eq_ok_iff : assignments.mapM parse = .ok entries
    ↔ List.Forall₂ (fun a e => Assigns a e.1 e.2) assignments entries := by
  induction assignments generalizing entries with
  | nil =>
    rw [List.mapM_nil, List.forall₂_nil_left_iff]
    exact ⟨fun h => (Except.ok.inj h).symm, fun h => h ▸ rfl⟩
  | cons a rest ih =>
    rw [List.mapM_cons, List.forall₂_cons_left_iff]
    constructor
    · intro h
      cases hparse : parse a with
      | error f =>
        rw [hparse] at h
        cases h
      | ok e =>
        cases hrest : rest.mapM parse with
        | error f =>
          rw [hparse, hrest] at h
          cases h
        | ok others =>
          rw [hparse, hrest] at h
          cases h
          exact ⟨e, others, parse_eq_ok_iff.1 hparse, ih.1 hrest, rfl⟩
    · rintro ⟨e, others, ha, hrest, rfl⟩
      rw [ha.parse_eq, ih.2 hrest]
      rfl

theorem mapM_parse_of_isFirstRefused (h : IsFirstRefused assignments a) :
    assignments.mapM parse = .error ⟨a⟩ := by
  obtain ⟨before, after, rfl, hrefused, hbefore⟩ := h
  induction before with
  | nil =>
    rw [List.nil_append, List.mapM_cons, hrefused.parse_eq]
    rfl
  | cons b before ih =>
    obtain ⟨hb, hbefore⟩ := List.forall_mem_cons.1 hbefore
    obtain ⟨key, value, hassigns⟩ := exists_assigns hb
    rw [List.cons_append, List.mapM_cons, hassigns.parse_eq, ih hbefore]
    rfl

/-- A list has a first text that is refused, or all of its texts have entries. -/
theorem isFirstRefused_or_exists_entries (assignments : List String) :
    (∃ a, IsFirstRefused assignments a)
      ∨ (∀ a ∈ assignments, ¬IsRefused a) ∧ ∃ entries : List (String × String),
        List.Forall₂ (fun a e => Assigns a e.1 e.2) assignments entries := by
  induction assignments with
  | nil => exact .inr ⟨by simp, [], .nil⟩
  | cons a rest ih =>
    rcases isRefused_or_exists_assigns a with hrefused | ⟨key, value, hassigns⟩
    · exact .inl ⟨a, [], rest, rfl, hrefused, by simp⟩
    · have ha : ¬IsRefused a := fun h => h.not_assigns key value hassigns
      refine ih.imp ?_ ?_
      · rintro ⟨b, before, after, rfl, hrefused, hbefore⟩
        exact ⟨b, a :: before, after, rfl, hrefused, List.forall_mem_cons.2 ⟨ha, hbefore⟩⟩
      · rintro ⟨hrest, entries, hentries⟩
        exact ⟨List.forall_mem_cons.2 ⟨ha, hrest⟩, (key, value) :: entries, .cons hassigns hentries⟩

/-- The last assignment of a list is the last one behind its first text, or that text if none behind
it assigns to the key. -/
theorem lastAssigns_cons {rest : List String} : LastAssigns (a :: rest) key value
    ↔ LastAssigns rest key value
      ∨ Assigns a key value ∧ ∀ b ∈ rest, ∀ other, ¬Assigns b key other := by
  constructor
  · rintro ⟨before, b, after, hsplit, hassigns, hafter⟩
    cases before with
    | nil =>
      cases hsplit
      exact .inr ⟨hassigns, hafter⟩
    | cons first before =>
      cases hsplit
      exact .inl ⟨before, b, after, rfl, hassigns, hafter⟩
  · rintro (⟨before, b, after, rfl, hassigns, hafter⟩ | ⟨hassigns, hafter⟩)
    · exact ⟨a :: before, b, after, rfl, hassigns, hafter⟩
    · exact ⟨[], a, rest, rfl, hassigns, hafter⟩

theorem mem_keys_iff_of_forall₂
    (h : List.Forall₂ (fun a e => Assigns a e.1 e.2) assignments entries) :
    key ∈ Keyed.keys entries ↔ ∃ a ∈ assignments, ∃ value, Assigns a key value := by
  induction h with
  | nil => simp [Keyed.keys]
  | @cons a e rest others ha _ ih =>
    have hhead : key = e.1 ↔ ∃ value, Assigns a key value := by
      constructor
      · rintro rfl
        exact ⟨e.2, ha⟩
      · rintro ⟨value, hassigns⟩
        exact (hassigns.unique ha).1
    rw [Keyed.keys, List.map_cons, List.mem_cons, ← Keyed.keys, ih, hhead]
    simp

/-- Among the entries of assignments the last one for a key is that of its last assignment. -/
theorem get?_reverse_eq_some_iff
    (h : List.Forall₂ (fun a e => Assigns a e.1 e.2) assignments entries) :
    Keyed.get? key entries.reverse = some value ↔ LastAssigns assignments key value := by
  induction h with
  | nil => simp [Keyed.get?, LastAssigns]
  | @cons a e rest others ha hrest ih =>
    -- The first entry counts only if no entry behind it is for the key.
    have hnone : Keyed.get? key others.reverse = none
        ↔ ∀ b ∈ rest, ∀ other, ¬Assigns b key other := by
      have hkeys : key ∈ Keyed.keys others.reverse ↔ key ∈ Keyed.keys others := by
        simp [Keyed.keys]
      rw [← Option.not_isSome_iff_eq_none, Keyed.isSome_get?, hkeys, mem_keys_iff_of_forall₂ hrest]
      push Not
      rfl
    have hone : Keyed.get? key [e] = some value ↔ Assigns a key value := by
      rw [← parse_eq_ok_iff, ha.parse_eq]
      obtain ⟨k, v⟩ := e
      simp [Keyed.get?]
    rw [List.reverse_cons, Keyed.get?_append, Option.or_eq_some_iff, ih, hnone, hone,
      lastAssigns_cons, and_comm]

theorem collects_ofList
    (h : List.Forall₂ (fun a e => Assigns a e.1 e.2) assignments entries) :
    Collects assignments (Keyed.ofList entries) := by
  constructor
  case nodup_keys => exact Keyed.nodup_keys_ofList entries
  case mem_keys_iff =>
    intro key
    rw [Keyed.ofList, Keyed.mem_keys_putAll, mem_keys_iff_of_forall₂ h]
    simp [Keyed.keys]
  case value?_eq_some_iff =>
    intro key value
    rw [Mapping.value?, Keyed.ofList, Keyed.get?_putAll, Keyed.get?, Option.or_none,
      get?_reverse_eq_some_iff h]

/-- Assignments make a mapping, unless one of them is refused: then the first such is reported. -/
theorem parseAll_eq_ok_or_error (assignments : List String) :
    (∃ values, parseAll assignments = .ok values ∧ Collects assignments values
        ∧ ∀ a ∈ assignments, ¬IsRefused a)
      ∨ ∃ a, parseAll assignments = .error ⟨a⟩ ∧ IsFirstRefused assignments a := by
  rcases isFirstRefused_or_exists_entries assignments with ⟨a, ha⟩ | ⟨hall, entries, hentries⟩
  · refine .inr ⟨a, ?_, ha⟩
    rw [parseAll, mapM_parse_of_isFirstRefused ha]
    rfl
  · refine .inl ⟨Keyed.ofList entries, ?_, collects_ofList hentries, hall⟩
    rw [parseAll, mapM_parse_eq_ok_iff.2 hentries]
    rfl

theorem collects_of_parseAll {values : Mapping} (h : parseAll assignments = .ok values) :
    Collects assignments values := by
  rcases parseAll_eq_ok_or_error assignments with ⟨values', hok, hcollects, -⟩ | ⟨a, herror, -⟩
  · cases hok.symm.trans h
    exact hcollects
  · cases herror.symm.trans h

end All

end PercentTemplate.Assignment

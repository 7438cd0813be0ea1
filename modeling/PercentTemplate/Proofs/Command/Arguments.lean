import PercentTemplate.Command.Arguments

/-!
# Options of an invocation

Every option that is taken from an argument list is one that its command has
(`Invocation.isSome_of_sortArguments`), so an invocation that lists keys names no values and assigns
none (`Invocation.values_of_keys`).
-/

namespace PercentTemplate.Invocation

variable {takes : String → Option Bool} {mixed : Bool} {args others : List String}
  {options : List (String × String)}

theorem exists_of_addOption {name value : String} {sorted : Except Fault Sorted}
    (h : addOption name value sorted = .ok (options, others)) :
    ∃ rest, sorted = .ok (rest, others) ∧ options = (name, value) :: rest := by
  cases sorted with
  | error f => cases h
  | ok r =>
    cases h
    exact ⟨r.1, rfl, rfl⟩

/-- An option that there is in front of options that there are. -/
theorem isSome_of_addOption {name value : String} {sorted : Except Fault Sorted}
    (hname : (takes name).isSome = true)
    (hrest : ∀ {options others}, sorted = .ok (options, others) →
      ∀ o ∈ options, (takes o.1).isSome = true)
    (h : addOption name value sorted = .ok (options, others)) :
    ∀ o ∈ options, (takes o.1).isSome = true := by
  obtain ⟨rest, hsorted, rfl⟩ := exists_of_addOption h
  intro o ho
  rcases List.mem_cons.1 ho with rfl | ho
  · exact hname
  · exact hrest hsorted o ho

/-- Every option taken is one that there is. -/
theorem isSome_of_sortArguments (h : sortArguments takes mixed args = .ok (options, others)) :
    ∀ o ∈ options, (takes o.1).isSome = true := by
  fun_induction sortArguments takes mixed args generalizing options others with
  | case1 | case2 | case11 =>
    cases h
    simp
  | case3 | case6 | case7 | case10 => cases h
  | case4 _ _ _ _ _ _ htakes _ ih | case5 _ _ _ _ _ _ htakes _ ih | case8 _ _ _ _ _ htakes _ ih =>
    exact isSome_of_addOption (by rw [htakes]; rfl) ih h
  | case9 _ _ _ _ _ _ _ hsorted ih =>
    cases h
    exact ih hsorted

theorem filter_eq_nil_of_sortArguments {name : String} (hname : takes name = none)
    (h : sortArguments takes mixed args = .ok (options, others)) :
    (options.filter fun o => o.1 == name) = [] := by
  refine List.filter_eq_nil_iff.2 fun o ho hsame => ?_
  have hsome := isSome_of_sortArguments h o ho
  rw [eq_of_beq hsame, hname] at hsome
  cases hsome

theorem ofCommand_of_parse {i : Invocation} (h : parse args = .ok i) :
    ∃ logLevel command rest, ofCommand logLevel command rest = .ok i := by
  unfold parse at h
  split at h
  · cases h
  · cases h
  · split at h
    · cases h
    · exact ⟨_, _, _, h⟩

/-- An invocation that lists keys names no values and assigns none. -/
theorem values_of_keys {i : Invocation} (h : parse args = .ok i) (hcommand : i.command = .keys) :
    i.values = none ∧ i.assignments = [] := by
  obtain ⟨logLevel, command, rest, h⟩ := ofCommand_of_parse h
  unfold ofCommand at h
  split at h
  · cases h
  · rename_i hsorted
    cases h
    obtain rfl := hcommand
    have hvalues : Command.option? .keys "--values" = none := rfl
    have hset : Command.option? .keys "--set" = none := rfl
    constructor
    · simp only [last?, filter_eq_nil_of_sortArguments hvalues hsorted]
      rfl
    · simp only [filter_eq_nil_of_sortArguments hset hsorted]
      rfl
  · cases h

end PercentTemplate.Invocation

import PercentTemplate.Keyed
import PercentTemplate.Text.Point

/-!
# JSON values

The values of JSON documents. Integers are unbounded and kept apart from floating-point numbers;
an object keeps its members in order. What is written has texts of characters, what is read has
texts of code points.

## Main definitions

- `Json` — a JSON value
- `Json.member?` — the member of an object under a name
- `Json.wide` — a value of texts of characters as one of texts of code points
-/

namespace PercentTemplate

/-- A JSON value whose texts are of the type `τ`. -/
inductive Json (τ : Type := String) where
  | null
  | bool (b : Bool)
  | int (n : Int)
  | float (x : Float)
  | str (s : τ)
  | arr (items : List (Json τ))
  | obj (members : List (τ × Json τ))
  deriving Inhabited

namespace Json

variable {τ : Type}

/-- The member `name` of an object; other values have no members. -/
def member? (name : String) : Json → Option Json
  | obj members => Keyed.get? name members
  | _ => none

/-- What holds of a value if it holds of the items or of the values of the members holds of all. -/
@[elab_as_elim, induction_eliminator]
theorem induction {motive : Json τ → Prop} (null : motive null) (bool : ∀ b, motive (bool b))
    (int : ∀ n, motive (int n)) (float : ∀ x, motive (float x)) (str : ∀ s, motive (str s))
    (arr : ∀ items, (∀ v ∈ items, motive v) → motive (arr items))
    (obj : ∀ members, (∀ m ∈ members, motive m.2) → motive (obj members)) (v : Json τ) :
    motive v :=
  match v with
  | .null => null
  | .bool b => bool b
  | .int n => int n
  | .float x => float x
  | .str s => str s
  | .arr items => arr items fun v _ => v.induction null bool int float str arr obj
  | .obj members => obj members fun m _ => m.2.induction null bool int float str arr obj
  termination_by sizeOf v
  decreasing_by
    · have := List.sizeOf_lt_of_mem ‹v ∈ items›
      simp only [Json.arr.sizeOf_spec]
      omega
    · have := List.sizeOf_lt_of_mem ‹m ∈ members›
      obtain ⟨name, v⟩ := m
      simp only [Json.obj.sizeOf_spec, Prod.mk.sizeOf_spec] at *
      omega

mutual

/-- A value with its texts as texts of code points. -/
def wide : Json → Json Text.Points
  | null => null
  | bool b => bool b
  | int n => int n
  | float x => float x
  | str s => str (.ofString s)
  | arr items => arr (wideItems items)
  | obj members => obj (wideMembers members)

def wideItems : List Json → List (Json Text.Points)
  | [] => []
  | v :: rest => wide v :: wideItems rest

def wideMembers : List (String × Json) → List (Text.Points × Json Text.Points)
  | [] => []
  | (name, v) :: rest => (.ofString name, wide v) :: wideMembers rest

end

theorem wide_arr (items : List Json) : wide (arr items) = arr (items.map wide) := by
  have hitems : wideItems items = items.map wide := by
    induction items with
    | nil => rfl
    | cons v rest ih => rw [wideItems, ih, List.map_cons]
  rw [wide, hitems]

/-- A member of an object with its texts as texts of code points. -/
def wideMember (m : String × Json) : Text.Points × Json Text.Points :=
  (.ofString m.1, m.2.wide)

theorem wide_obj (members : List (String × Json)) :
    wide (obj members) = obj (members.map wideMember) := by
  have hmembers : wideMembers members = members.map wideMember := by
    induction members with
    | nil => rfl
    | cons m rest ih => rw [wideMembers, ih, List.map_cons, wideMember]
  rw [wide, hmembers]

end Json

end PercentTemplate

import PercentTemplate.Calendar
import PercentTemplate.Json.Basic
import PercentTemplate.Number.FloatText

/-!
# Documents

The values that data files of either format hold: those of JSON, and bytes, dates, sets and pairs.

## Main definitions

- `Document` — the value of a data file
- `Document.ofJson` — the value of a JSON text
- `Document.depth`, `Document.listDepth` — how deep collections lie inside one another, in all of a
  document and in the lists of a map
- `Document.sameKey` — whether two scalars are one and the same key of a map
-/

namespace PercentTemplate

open Text (Points)

/-- The value of a data file. -/
inductive Document where
  | null
  | bool (b : Bool)
  | int (n : Int)
  | float (x : Float)
  | str (s : Points)
  | bytes (bs : List UInt8)
  | date (d : Calendar.Date)
  | moment (m : Calendar.Moment)
  | list (items : List Document)
  | map (entries : List (Document × Document))
  | set (members : List Document)
  | pair (first second : Document)
  /-- A list or, if `isMap`, a map that contains itself, at the place where it does so. -/
  | again (isMap : Bool)
  deriving Inhabited

namespace Document

mutual

def ofJson : Json Points → Document
  | .null => null
  | .bool b => bool b
  | .int n => int n
  | .float x => float x
  | .str s => str s
  | .arr items => list (ofJsonItems items)
  | .obj members => map (ofJsonMembers members)

/-- The documents that the items of a JSON array are. -/
def ofJsonItems : List (Json Points) → List Document
  | [] => []
  | v :: rest => ofJson v :: ofJsonItems rest

/-- The entries that the members of a JSON object are. -/
def ofJsonMembers : List (Points × Json Points) → List (Document × Document)
  | [] => []
  | (name, v) :: rest => (str name, ofJson v) :: ofJsonMembers rest

end

/-- What holds of a document if it holds of the documents in it holds of all. -/
@[elab_as_elim, induction_eliminator]
theorem induction {motive : Document → Prop} (null : motive null) (bool : ∀ b, motive (bool b))
    (int : ∀ n, motive (int n)) (float : ∀ x, motive (float x)) (str : ∀ s, motive (str s))
    (bytes : ∀ bs, motive (bytes bs)) (date : ∀ d, motive (date d))
    (moment : ∀ m, motive (moment m))
    (list : ∀ items, (∀ d ∈ items, motive d) → motive (list items))
    (map : ∀ entries, (∀ e ∈ entries, motive e.1 ∧ motive e.2) → motive (map entries))
    (set : ∀ members, (∀ d ∈ members, motive d) → motive (set members))
    (pair : ∀ first second, motive first → motive second → motive (pair first second))
    (again : ∀ isMap, motive (again isMap)) (d : Document) : motive d :=
  match d with
  | .null => null
  | .bool b => bool b
  | .int n => int n
  | .float x => float x
  | .str s => str s
  | .bytes bs => bytes bs
  | .date d => date d
  | .moment m => moment m
  | .list items =>
    list items fun d _ =>
      d.induction null bool int float str bytes date moment list map set pair again
  | .map entries =>
    map entries fun e _ =>
      ⟨e.1.induction null bool int float str bytes date moment list map set pair again,
        e.2.induction null bool int float str bytes date moment list map set pair again⟩
  | .set members =>
    set members fun d _ =>
      d.induction null bool int float str bytes date moment list map set pair again
  | .pair first second =>
    pair first second
      (first.induction null bool int float str bytes date moment list map set pair again)
      (second.induction null bool int float str bytes date moment list map set pair again)
  | .again isMap => again isMap
  termination_by sizeOf d
  decreasing_by
    · have := List.sizeOf_lt_of_mem ‹d ∈ items›
      simp only [Document.list.sizeOf_spec]
      omega
    · have := List.sizeOf_lt_of_mem ‹e ∈ entries›
      obtain ⟨k, v⟩ := e
      simp only [Document.map.sizeOf_spec, Prod.mk.sizeOf_spec] at *
      omega
    · have := List.sizeOf_lt_of_mem ‹e ∈ entries›
      obtain ⟨k, v⟩ := e
      simp only [Document.map.sizeOf_spec, Prod.mk.sizeOf_spec] at *
      omega
    · have := List.sizeOf_lt_of_mem ‹d ∈ members›
      simp only [Document.set.sizeOf_spec]
      omega
    · simp only [Document.pair.sizeOf_spec]
      omega
    · simp only [Document.pair.sizeOf_spec]
      omega

mutual

/-- How deep collections lie inside one another in a document. -/
def depth : Document → Nat
  | list items => depthOfItems items + 1
  | map entries => depthOfEntries entries + 1
  | set members => depthOfItems members + 1
  | pair first second => max first.depth second.depth + 1
  | _ => 0

def depthOfItems : List Document → Nat
  | [] => 0
  | d :: rest => max d.depth (depthOfItems rest)

def depthOfEntries : List (Document × Document) → Nat
  | [] => 0
  | (k, v) :: rest => max (max k.depth v.depth) (depthOfEntries rest)

end

/-- How deep collections lie inside one another in the lists among the values of entries. -/
def depthInLists : List (Document × Document) → Nat
  | [] => 0
  | (_, list items) :: rest => max (depthOfItems items) (depthInLists rest)
  | _ :: rest => depthInLists rest

/-- How deep collections lie inside one another in the lists among the values of a map. -/
def listDepth : Document → Nat
  | map entries => depthInLists entries
  | _ => 0

/-- The integer that a number or truth value stands for. -/
def integer? : Document → Option Int
  | bool b => some (if b then 1 else 0)
  | int n => some n
  | float x => FloatText.integer? x
  | _ => none

/-- Whether two scalars are one key of a map: numbers and truth values by their value, everything
else by kind and content. -/
def sameKey (a b : Document) : Bool :=
  match a, b with
  | null, null => true
  | str s, str t => s == t
  | bytes s, bytes t => s == t
  | date d, date e => d = e
  | moment m, moment n => m = n
  | float x, float y => x == y
  | a, b =>
    match a.integer?, b.integer? with
    | some m, some n => m = n
    | _, _ => false

/-- Entries of a map with one more set: in the place of an equal key, or at the end. -/
def setEntry (key value : Document) : List (Document × Document) → List (Document × Document)
  | [] => [(key, value)]
  | (k, v) :: rest =>
    if k.sameKey key then (k, value) :: rest else (k, v) :: setEntry key value rest

end Document

end PercentTemplate

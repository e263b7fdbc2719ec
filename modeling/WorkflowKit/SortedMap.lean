namespace WorkflowKit

/-- Entries with keys in strictly ascending order. -/
structure SortedMap (α : Type) where
  entries : List (String × α)
  ascending : entries.Pairwise (fun a b => a.1 < b.1)
  deriving DecidableEq

namespace SortedMap

variable {α : Type}

/-- A map is its entries: that they are in order adds nothing to them. -/
theorem ext {a b : SortedMap α} (same : a.entries = b.entries) : a = b := by
  cases a
  cases b
  cases same
  rfl

/-- Puts an entry in its place, in the stead of an entry with that key. -/
def placed (key : String) (value : α) : List (String × α) → List (String × α)
  | [] => [(key, value)]
  | entry :: rest =>
    if key < entry.1 then (key, value) :: entry :: rest
    else if entry.1 < key then entry :: placed key value rest
    else (key, value) :: rest

theorem mem_placed {key : String} {value : α} {entries : List (String × α)} {x : String × α}
    (member : x ∈ placed key value entries) : x = (key, value) ∨ x ∈ entries := by
  induction entries with
  | nil => simpa [placed] using member
  | cons entry rest ih =>
    simp only [placed] at member
    split at member
    · simpa using member
    · split at member
      · rcases List.mem_cons.mp member with same | inside
        · exact Or.inr (same ▸ List.mem_cons_self)
        · exact (ih inside).imp id (List.mem_cons_of_mem _)
      · rcases List.mem_cons.mp member with same | inside
        · exact Or.inl same
        · exact Or.inr (List.mem_cons_of_mem _ inside)

/-- An entry that is put in its place keeps the keys ascending. One with the same key gives way. -/
theorem placed_ascending (key : String) (value : α) {entries : List (String × α)}
    (sorted : entries.Pairwise (fun a b => a.1 < b.1)) :
    (placed key value entries).Pairwise (fun a b => a.1 < b.1) := by
  induction entries with
  | nil => simp [placed]
  | cons entry rest ih =>
    obtain ⟨first, others⟩ := List.pairwise_cons.mp sorted
    simp only [placed]
    split
    · rename_i before
      refine List.pairwise_cons.mpr ⟨fun x member => ?_, sorted⟩
      rcases List.mem_cons.mp member with rfl | inside
      · exact before
      · exact String.lt_trans before (first x inside)
    · split
      · rename_i after
        refine List.pairwise_cons.mpr ⟨fun x member => ?_, ih others⟩
        rcases mem_placed member with rfl | inside
        · exact after
        · exact first x inside
      · rename_i notBefore notAfter
        have same : key = entry.1 := String.le_antisymm notAfter notBefore
        exact List.pairwise_cons.mpr ⟨fun x inside => same ▸ first x inside, others⟩

def empty : SortedMap α := ⟨[], .nil⟩

instance : Inhabited (SortedMap α) := ⟨empty⟩

def insert (map : SortedMap α) (key : String) (value : α) : SortedMap α :=
  ⟨placed key value map.entries, placed_ascending key value map.ascending⟩

/-- The map with the given entries. Of two entries with one key the later counts. -/
def ofList (entries : List (String × α)) : SortedMap α :=
  entries.foldl (fun map entry => map.insert entry.1 entry.2) empty

def get? (map : SortedMap α) (key : String) : Option α :=
  map.entries.lookup key

def keys (map : SortedMap α) : List String :=
  map.entries.map (·.1)

def size (map : SortedMap α) : Nat :=
  map.entries.length

def isEmpty (map : SortedMap α) : Bool :=
  map.entries.isEmpty

end SortedMap

/-- The texts of a list in ascending order, each once. -/
def sortedDistinct (texts : List String) : List String :=
  (SortedMap.ofList (texts.map fun text => (text, ()))).keys

end WorkflowKit

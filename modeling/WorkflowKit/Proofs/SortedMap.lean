import WorkflowKit.SortedMap
import Mathlib.Data.List.Sort

namespace WorkflowKit

namespace SortedMap

variable {α : Type}

theorem lookup_cons_of_ne {key name : String} (different : key ≠ name) (value : α)
    (rest : List (String × α)) : ((name, value) :: rest).lookup key = rest.lookup key := by
  rw [List.lookup_cons, beq_false_of_ne different]

theorem lookup_placed (key other : String) (value : α) (entries : List (String × α)) :
    (placed key value entries).lookup other =
      if other = key then some value else entries.lookup other := by
  induction entries with
  | nil =>
    by_cases found : other = key
    · simp [placed, found]
    · simp [placed, lookup_cons_of_ne found, found]
  | cons entry rest ih =>
    obtain ⟨name, old⟩ := entry
    simp only [placed]
    split
    · by_cases found : other = key
      · simp [found]
      · simp [lookup_cons_of_ne found, found]
    · split
      · rename_i after
        by_cases found : other = name
        · have different : name ≠ key := fun same => String.lt_irrefl key (same ▸ after)
          simp [found, different]
        · simp [lookup_cons_of_ne found, ih]
      · rename_i notBefore notAfter
        have same : key = name := String.le_antisymm notAfter notBefore
        subst same
        by_cases found : other = key
        · simp [found]
        · simp [lookup_cons_of_ne found, found]

@[simp]
theorem get?_empty (key : String) : (empty : SortedMap α).get? key = none := rfl

/-- The last value that is given to a key counts. -/
@[simp]
theorem get?_insert (map : SortedMap α) (key other : String) (value : α) :
    (map.insert key value).get? other = if other = key then some value else map.get? other :=
  lookup_placed key other value map.entries

/-- Each key stands once, so an entry is the one that its key finds. -/
theorem mem_entries_iff (map : SortedMap α) (key : String) (value : α) :
    (key, value) ∈ map.entries ↔ map.get? key = some value := by
  obtain ⟨entries, ascending⟩ := map
  simp only [get?]
  induction entries with
  | nil => simp
  | cons entry rest ih =>
    obtain ⟨name, first⟩ := entry
    obtain ⟨least, others⟩ := List.pairwise_cons.mp ascending
    by_cases found : key = name
    · subst found
      have fresh : (key, value) ∉ rest := fun inside =>
        String.lt_irrefl key (least (key, value) inside)
      simp [fresh, eq_comm]
    · simp [lookup_cons_of_ne found, found, ih others]

theorem keys_ascending (map : SortedMap α) : map.keys.Pairwise (· < ·) :=
  List.pairwise_map.mpr map.ascending

theorem mem_keys_iff (map : SortedMap α) (key : String) :
    key ∈ map.keys ↔ (map.get? key).isSome := by
  rw [keys, List.mem_map, Option.isSome_iff_exists]
  constructor
  · rintro ⟨⟨name, value⟩, member, rfl⟩
    exact ⟨value, (map.mem_entries_iff name value).mp member⟩
  · rintro ⟨value, found⟩
    exact ⟨(key, value), (map.mem_entries_iff key value).mpr found, rfl⟩

theorem placed_of_lt {key : String} {value : α} {entries : List (String × α)}
    (last : ∀ entry ∈ entries, entry.1 < key) : placed key value entries = entries ++ [(key, value)] := by
  induction entries with
  | nil => rfl
  | cons entry rest ih =>
    obtain ⟨before, others⟩ := List.forall_mem_cons.mp last
    rw [placed, if_neg (String.lt_asymm before), if_pos before, ih others, List.cons_append]

theorem entries_foldl_insert {entries : List (String × α)} {map : SortedMap α}
    (ascending : (map.entries ++ entries).Pairwise (fun a b => a.1 < b.1)) :
    (entries.foldl (fun map entry => map.insert entry.1 entry.2) map).entries =
      map.entries ++ entries := by
  induction entries generalizing map with
  | nil => exact (List.append_nil _).symm
  | cons entry rest ih =>
    have last : ∀ earlier ∈ map.entries, earlier.1 < entry.1 := fun earlier member =>
      (List.pairwise_append.mp ascending).2.2 earlier member entry List.mem_cons_self
    have placing : (map.insert entry.1 entry.2).entries = map.entries ++ [entry] :=
      placed_of_lt last
    rw [List.foldl_cons, ih, placing, List.append_assoc, List.singleton_append]
    rwa [placing, List.append_assoc, List.singleton_append]

@[simp]
theorem ofList_entries (map : SortedMap α) : ofList map.entries = map :=
  ext (entries_foldl_insert (by simpa [empty] using map.ascending))

theorem mem_of_mem_foldl_insert {entries : List (String × α)} {map : SortedMap α}
    {entry : String × α}
    (member : entry ∈ (entries.foldl (fun map entry => map.insert entry.1 entry.2) map).entries) :
    entry ∈ map.entries ∨ entry ∈ entries := by
  induction entries generalizing map with
  | nil => exact Or.inl member
  | cons first rest ih =>
    rcases ih member with inside | later
    · rcases mem_placed inside with rfl | earlier
      · exact Or.inr List.mem_cons_self
      · exact Or.inl earlier
    · exact Or.inr (List.mem_cons_of_mem _ later)

/-- The entries of a map that is made of a list come from it. -/
theorem mem_of_mem_ofList {entries : List (String × α)} {entry : String × α}
    (member : entry ∈ (ofList entries).entries) : entry ∈ entries :=
  (mem_of_mem_foldl_insert member).resolve_left List.not_mem_nil

/-- The entries of two maps. Where both have a key, the upper one's value counts. -/
def union (upper lower : SortedMap α) : SortedMap α :=
  upper.entries.foldl (fun map entry => map.insert entry.1 entry.2) lower

theorem get?_foldl_insert (entries : List (String × α)) (lower : SortedMap α) (key : String)
    (distinct : (entries.map (·.1)).Nodup) :
    (entries.foldl (fun map entry => map.insert entry.1 entry.2) lower).get? key =
      (entries.lookup key).or (lower.get? key) := by
  induction entries generalizing lower with
  | nil => simp
  | cons entry rest ih =>
    obtain ⟨name, value⟩ := entry
    obtain ⟨fresh, others⟩ := List.nodup_cons.mp distinct
    rw [List.foldl_cons, ih _ others, get?_insert]
    by_cases found : key = name
    · subst found
      have absent : rest.lookup key = none :=
        List.lookup_eq_none_iff.mpr fun entry member => by
          simpa using fun same : key = entry.1 => fresh (List.mem_map.mpr ⟨entry, member, same.symm⟩)
      simp [absent]
    · simp [lookup_cons_of_ne found, found]

/-- Of entries with distinct keys the map has each under its key, in whatever order they are
given. -/
theorem get?_ofList {entries : List (String × α)} (distinct : (entries.map (·.1)).Nodup)
    (key : String) : (ofList entries).get? key = entries.lookup key := by
  rw [ofList, get?_foldl_insert _ _ _ distinct, get?_empty, Option.or_none]

theorem get?_ofList_of_mem {entries : List (String × α)} (distinct : (entries.map (·.1)).Nodup)
    {key : String} {value : α} (member : (key, value) ∈ entries) :
    (ofList entries).get? key = some value := by
  rw [get?_ofList distinct]
  induction entries with
  | nil => cases member
  | cons entry rest ih =>
    obtain ⟨fresh, others⟩ := List.nodup_cons.mp distinct
    rcases List.mem_cons.mp member with rfl | later
    · simp
    · have different : key ≠ entry.1 := fun same =>
        fresh (List.mem_map.mpr ⟨(key, value), later, same⟩)
      rw [lookup_cons_of_ne different, ih others later]

theorem mem_ofList_iff {entries : List (String × α)} (distinct : (entries.map (·.1)).Nodup)
    {entry : String × α} : entry ∈ (ofList entries).entries ↔ entry ∈ entries :=
  ⟨mem_of_mem_ofList, fun member =>
    (mem_entries_iff _ _ _).mpr (get?_ofList_of_mem distinct member)⟩

/-- The order in which entries are listed does not count if their keys are distinct. -/
theorem ofList_perm {entries moved : List (String × α)} (order : entries.Perm moved)
    (distinct : (entries.map (·.1)).Nodup) : ofList moved = ofList entries := by
  have distinct' : (moved.map (·.1)).Nodup := (order.map _).nodup_iff.mp distinct
  have irrefl : Std.Irrefl fun a b : String × α => a.1 < b.1 := ⟨fun a => String.lt_irrefl a.1⟩
  have antisymm : Std.Antisymm fun a b : String × α => a.1 < b.1 :=
    ⟨fun a b before after => absurd after (String.lt_asymm before)⟩
  refine ext ((ofList moved).ascending.eq_of_mem_iff (ofList entries).ascending fun entry => ?_)
  rw [mem_ofList_iff distinct', mem_ofList_iff distinct, order.mem_iff]

theorem nodup_keys (map : SortedMap α) : map.keys.Nodup := by
  refine List.Pairwise.imp ?_ map.keys_ascending
  rintro a b before rfl
  exact String.lt_irrefl a before

/-- The upper map hides the lower one. -/
@[simp]
theorem get?_union (upper lower : SortedMap α) (key : String) :
    (upper.union lower).get? key = (upper.get? key).or (lower.get? key) :=
  get?_foldl_insert upper.entries lower key upper.nodup_keys

/-- In a pile of maps the first that has a key decides. -/
theorem get?_foldr_union (layers : List (SortedMap α)) (key : String) :
    (layers.foldr union empty).get? key = layers.findSome? (·.get? key) := by
  induction layers with
  | nil => rfl
  | cons layer rest ih =>
    rw [List.foldr_cons, get?_union, ih, List.findSome?_cons]
    cases layer.get? key <;> rfl

theorem mem_keys_foldl_insert (entries : List (String × α)) (map : SortedMap α) (key : String) :
    key ∈ (entries.foldl (fun map entry => map.insert entry.1 entry.2) map).keys ↔
      key ∈ map.keys ∨ ∃ entry ∈ entries, entry.1 = key := by
  induction entries generalizing map with
  | nil => simp
  | cons entry rest ih =>
    rw [List.foldl_cons, ih, mem_keys_iff, mem_keys_iff, get?_insert]
    by_cases found : key = entry.1
    · simp [found]
    · have different : entry.1 ≠ key := fun same => found same.symm
      simp [found, different]

end SortedMap

theorem sortedDistinct_ascending (texts : List String) : (sortedDistinct texts).Pairwise (· < ·) :=
  SortedMap.keys_ascending _

@[simp]
theorem mem_sortedDistinct (texts : List String) (text : String) :
    text ∈ sortedDistinct texts ↔ text ∈ texts := by
  rw [sortedDistinct, SortedMap.ofList, SortedMap.mem_keys_foldl_insert]
  simp [SortedMap.mem_keys_iff]

/-- Only the members of a list count, neither their order nor how often they stand there. -/
theorem sortedDistinct_congr {a b : List String} (same : ∀ x, x ∈ a ↔ x ∈ b) :
    sortedDistinct a = sortedDistinct b :=
  (sortedDistinct_ascending a).eq_of_mem_iff (sortedDistinct_ascending b) (by simp [same])

end WorkflowKit

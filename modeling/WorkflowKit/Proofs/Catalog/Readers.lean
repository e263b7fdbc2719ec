import WorkflowKit.Catalog.Reading
import WorkflowKit.Proofs.Except

namespace WorkflowKit.Catalog

open Yaml (Value Fault)

variable {α β : Type}

theorem readText_eq_ok_iff {value : Value} {text : String} :
    readText value = .ok text ↔ value = .scalar (.text text) := by
  constructor
  · intro read
    unfold readText at read
    split at read
    · cases read
      rfl
    · cases read
  · rintro rfl
    rfl

section

variable {read : Value → Except Fault α}

/-- Holds of an entry of a mapping and what is read of it. -/
def Gives (read : Value → Except Fault α) (entry : Value × Value) (pair : String × α) : Prop :=
  entry.1 = .scalar (.text pair.1) ∧ read entry.2 = .ok pair.2

/-- A mapping is read entry by entry, and of entries with the same key the last counts. -/
theorem readMap_mapping_eq_ok_iff {entries : List (Value × Value)} {map : SortedMap α} :
    readMap read (.mapping entries) = .ok map ↔
      ∃ pairs, List.Forall₂ (Gives read) entries pairs ∧ .ofList pairs = map := by
  have gives_iff (entry : Value × Value) (pair : String × α) :
      (do return (← readText entry.1, ← read entry.2) : Except Fault (String × α)) = .ok pair ↔
        Gives read entry pair := by
    simp only [Except.bind_eq_ok_iff, readText_eq_ok_iff]
    constructor
    · rintro ⟨name, written, a, here, same⟩
      cases same
      exact ⟨written, here⟩
    · rintro ⟨written, here⟩
      exact ⟨_, written, _, here, rfl⟩
  simp only [readMap, Except.map_eq_ok_iff, Except.mapM_eq_ok_iff, gives_iff]

theorem Gives.keys {entries : List (Value × Value)} {pairs : List (String × α)}
    (gives : List.Forall₂ (Gives read) entries pairs) :
    entries.map (·.1) = (pairs.map (·.1)).map fun name => .scalar (.text name) := by
  induction gives with
  | nil => rfl
  | cons first _ ih => rw [List.map_cons, List.map_cons, List.map_cons, first.1, ih]

end

/-- An entry gives one of the two fields, which had no value before. -/
theorem readFields_cons_eq_ok_iff {first second : String} {readFirst : Value → Except Fault α}
    {readSecond : Value → Except Fault β} {entries : List (Value × Value)} {entry : Value × Value}
    {a : Option α} {b : Option β} {found : Option α × Option β} :
    readFields first second readFirst readSecond (entry :: entries) a b = .ok found ↔
      (readField first second entry.1 = .ok true ∧ a = none ∧ ∃ new, readFirst entry.2 = .ok new ∧
        readFields first second readFirst readSecond entries (some new) b = .ok found) ∨
      (readField first second entry.1 = .ok false ∧ b = none ∧ ∃ new, readSecond entry.2 = .ok new ∧
        readFields first second readFirst readSecond entries a (some new) = .ok found) := by
  obtain ⟨key, value⟩ := entry
  rw [readFields]
  cases readField first second key with
  | error fault => simp [Except.bind_eq_ok_iff]
  | ok side =>
    simp only [Except.bind_eq_ok_iff]
    cases side with
    | true => cases a <;> simp [Except.bind_eq_ok_iff, Yaml.misfit]
    | false => cases b <;> simp [Except.bind_eq_ok_iff, Yaml.misfit]

end WorkflowKit.Catalog

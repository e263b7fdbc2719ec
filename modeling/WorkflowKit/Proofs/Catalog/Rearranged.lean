import WorkflowKit.Proofs.Catalog.Readers
import WorkflowKit.Proofs.List
import WorkflowKit.Proofs.SortedMap
import Mathlib.Data.List.Perm.Basic

namespace WorkflowKit

namespace Yaml

/-- Holds of values that differ at most in the order in which mappings list their entries. No key
stands twice in a mapping. -/
inductive Value.Rearranged : Value → Value → Prop
  | scalar (meaning : Scalar) : Rearranged (.scalar meaning) (.scalar meaning)
  | sequence {items items' : List Value} : List.Forall₂ Rearranged items items' →
      Rearranged (.sequence items) (.sequence items')
  | mapping {entries moved entries' : List (Value × Value)} : (entries.map (·.1)).Nodup →
      moved.Perm entries → moved.map (·.1) = entries'.map (·.1) →
      List.Forall₂ Rearranged (moved.map (·.2)) (entries'.map (·.2)) →
      Rearranged (.mapping entries) (.mapping entries')

/-- The entries of rearranged values, once they are in one order. -/
theorem Value.forall₂_entries {moved entries' : List (Value × Value)}
    (keys : moved.map (·.1) = entries'.map (·.1))
    (values : List.Forall₂ Rearranged (moved.map (·.2)) (entries'.map (·.2))) :
    List.Forall₂ (fun a b => a.1 = b.1 ∧ a.2.Rearranged b.2) moved entries' := by
  induction moved generalizing entries' with
  | nil =>
    obtain rfl := List.map_eq_nil_iff.mp keys.symm
    exact .nil
  | cons entry moved ih =>
    obtain ⟨other, others, rfl, key, keys⟩ := List.map_eq_cons_iff.mp keys.symm
    cases values with
    | cons value values => exact .cons ⟨key.symm, value⟩ (ih keys.symm values)

end Yaml

namespace Catalog

open Yaml (Value Fault)

variable {α β : Type} {read : Value → Except Fault α}

/-- Holds of a reader to which the order of entries does not matter. -/
def Orderless (read : Value → Except Fault α) : Prop :=
  ∀ value moved a, value.Rearranged moved → read value = .ok a → read moved = .ok a

theorem orderless_readText : Orderless readText := by
  intro value moved text same read
  cases same with
  | scalar => exact read
  | sequence => cases read
  | mapping => cases read

theorem Orderless.mapM (orderless : Orderless read) {items items' : List Value} {values : List α}
    (same : List.Forall₂ Value.Rearranged items items') (found : items.mapM read = .ok values) :
    items'.mapM read = .ok values := by
  rw [Except.mapM_eq_ok_iff] at found ⊢
  induction same generalizing values with
  | nil => exact found
  | cons first _ ih =>
    cases found with
    | cons here others => exact .cons (orderless _ _ _ first here) (ih others)

theorem orderless_readSetting : Orderless readSetting := by
  intro value moved setting same read
  cases same with
  | scalar => exact read
  | sequence items =>
    rw [readSetting] at read ⊢
    split at read
    · rename_i entries found
      rw [orderless_readText.mapM items found]
      exact read
    · cases read
  | mapping => cases read

theorem Orderless.readOptional (orderless : Orderless read) : Orderless (readOptional read) := by
  intro value moved a same found
  have present {value moved : Value} (same : value.Rearranged moved)
      (found : (read value).map some = .ok a) : (read moved).map some = .ok a := by
    obtain ⟨b, here, rfl⟩ := Except.map_eq_ok_iff.mp found
    exact Except.map_eq_ok_iff.mpr ⟨b, orderless _ _ _ same here, rfl⟩
  cases same with
  | scalar => exact found
  | sequence items => exact present (.sequence items) found
  | mapping distinct order keys values =>
    exact present (.mapping distinct order keys values) found

/-- Entries are put in the order of their keys, so their order in the document is lost. -/
theorem Orderless.readMap (orderless : Orderless read) : Orderless (readMap read) := by
  intro value moved map same found
  cases same with
  | scalar => exact found
  | sequence => cases found
  | @mapping entries moved entries' distinct order keys values =>
    obtain ⟨pairs, gives, rfl⟩ := readMap_mapping_eq_ok_iff.mp found
    obtain ⟨pairs', gives', order'⟩ := List.perm_comp_forall₂ order gives
    have names : (pairs.map (·.1)).Nodup := by
      rw [Gives.keys gives] at distinct
      exact distinct.of_map _
    refine readMap_mapping_eq_ok_iff.mpr ⟨pairs', ?_, SortedMap.ofList_perm order'.symm names⟩
    refine (Value.forall₂_entries keys values).flip.through gives' ?_
    rintro entry _ other pair ⟨key, value⟩ ⟨written, here⟩
    exact ⟨key ▸ written, orderless _ _ _ value here⟩

section

variable {first second : String} {readFirst : Value → Except Fault α}
  {readSecond : Value → Except Fault β} {entries : List (Value × Value)} {a : Option α} {b : Option β}
  {found : Option α × Option β}

/-- Fields are found by their names, wherever they stand. A field that is given twice fails either
way. -/
theorem readFields_perm {moved : List (Value × Value)} (order : entries.Perm moved)
    (read : readFields first second readFirst readSecond entries a b = .ok found) :
    readFields first second readFirst readSecond moved a b = .ok found := by
  induction order generalizing a b with
  | nil => exact read
  | cons entry _ ih =>
    rw [readFields_cons_eq_ok_iff] at read ⊢
    rcases read with ⟨field, none, new, here, rest⟩ | ⟨field, none, new, here, rest⟩
    · exact Or.inl ⟨field, none, new, here, ih rest⟩
    · exact Or.inr ⟨field, none, new, here, ih rest⟩
  | swap x y rest =>
    -- Two entries that are both read give different fields.
    simp only [readFields_cons_eq_ok_iff] at read ⊢
    grind
  | trans _ _ ih ih' => exact ih' (ih read)

theorem readFields_forall₂ {entries' : List (Value × Value)}
    (orderlessFirst : Orderless readFirst) (orderlessSecond : Orderless readSecond)
    (same : List.Forall₂ (fun x y => x.1 = y.1 ∧ x.2.Rearranged y.2) entries entries')
    (read : readFields first second readFirst readSecond entries a b = .ok found) :
    readFields first second readFirst readSecond entries' a b = .ok found := by
  induction same generalizing a b with
  | nil => exact read
  | cons entry _ ih =>
    obtain ⟨key, value⟩ := entry
    rw [readFields_cons_eq_ok_iff] at read ⊢
    rw [← key]
    rcases read with ⟨field, none, new, here, rest⟩ | ⟨field, none, new, here, rest⟩
    · exact Or.inl ⟨field, none, new, orderlessFirst _ _ _ value here, ih rest⟩
    · exact Or.inr ⟨field, none, new, orderlessSecond _ _ _ value here, ih rest⟩

theorem Orderless.mapM_getElem? (orderless : Orderless read) {items items' : List Value}
    (same : List.Forall₂ Value.Rearranged items items') {n : Nat}
    (found : items[n]?.mapM read = .ok a) : items'[n]?.mapM read = .ok a := by
  induction same generalizing n with
  | nil => exact found
  | cons first _ ih =>
    cases n with
    | zero =>
      obtain ⟨new, here, rest⟩ := Except.bind_eq_ok_iff.mp found
      exact Except.bind_eq_ok_iff.mpr ⟨new, orderless _ _ _ first here, rest⟩
    | succ n => exact ih found

/-- A structure of two fields may also be given as a list, in which the order of the items
counts. -/
theorem Orderless.readPair {type : String} (orderlessFirst : Orderless readFirst)
    (orderlessSecond : Orderless readSecond) :
    Orderless (readPair type first second readFirst readSecond) := by
  intro value moved pair same found
  cases same with
  | scalar => exact found
  | sequence items =>
    obtain ⟨a, first, found⟩ := Except.bind_eq_ok_iff.mp found
    obtain ⟨b, second, found⟩ := Except.bind_eq_ok_iff.mp found
    refine Except.bind_eq_ok_iff.mpr ⟨a, orderlessFirst.mapM_getElem? items first, ?_⟩
    refine Except.bind_eq_ok_iff.mpr ⟨b, orderlessSecond.mapM_getElem? items second, ?_⟩
    rwa [← items.length_eq]
  | mapping distinct order keys values =>
    exact readFields_forall₂ orderlessFirst orderlessSecond (Value.forall₂_entries keys values)
      (readFields_perm order.symm found)

end

theorem orderless_readBlock : Orderless readBlock := by
  intro value moved block same found
  obtain ⟨pair, read, rest⟩ := Except.bind_eq_ok_iff.mp found
  have settings := orderless_readSetting.readMap
  exact Except.bind_eq_ok_iff.mpr
    ⟨pair, settings.readPair settings.readOptional _ _ _ same read, rest⟩

theorem orderless_readWorkflow : Orderless readWorkflow := by
  intro value moved workflow same found
  obtain ⟨pair, read, rest⟩ := Except.bind_eq_ok_iff.mp found
  have block := orderless_readBlock.readOptional
  exact Except.bind_eq_ok_iff.mpr ⟨pair, block.readPair block _ _ _ same read, rest⟩

end Catalog

end WorkflowKit

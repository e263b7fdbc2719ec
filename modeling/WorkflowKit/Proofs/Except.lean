import Mathlib.Data.List.Forall2

namespace Except

variable {ε ε' α β : Type}

theorem bind_eq_ok_iff {first : Except ε α} {next : α → Except ε β} {b : β} :
    first >>= next = .ok b ↔ ∃ a, first = .ok a ∧ next a = .ok b := by
  cases first with
  | error failure => simp [Bind.bind, Except.bind]
  | ok a => simp [Bind.bind, Except.bind]

theorem map_eq_ok_iff {first : Except ε α} {make : α → β} {b : β} :
    first.map make = .ok b ↔ ∃ a, first = .ok a ∧ make a = b := by
  cases first with
  | error failure => simp [Except.map]
  | ok a => simp [Except.map]

@[simp]
theorem mapError_eq_ok_iff {first : Except ε α} {change : ε → ε'} {a : α} :
    first.mapError change = .ok a ↔ first = .ok a := by
  cases first with
  | error failure => simp [Except.mapError]
  | ok a => simp [Except.mapError]

theorem eq_ok_of_toOption {result : Except ε α} {value : α}
    (found : result.toOption = some value) : result = .ok value := by
  cases result with
  | error failure => cases found
  | ok first => exact congrArg Except.ok (Option.some.inj found)

/-- A list is read when each of its items is. -/
theorem mapM_eq_ok_iff {read : α → Except ε β} {items : List α} {values : List β} :
    items.mapM read = .ok values ↔
      List.Forall₂ (fun item value => read item = .ok value) items values := by
  induction items generalizing values with
  | nil =>
    rw [List.mapM_nil, List.forall₂_nil_left_iff]
    exact ⟨fun same => (Except.ok.inj same).symm, fun same => same ▸ rfl⟩
  | cons item items ih =>
    rw [List.mapM_cons, bind_eq_ok_iff, List.forall₂_cons_left_iff]
    constructor
    · rintro ⟨value, first, rest⟩
      obtain ⟨others, later, same⟩ := bind_eq_ok_iff.mp rest
      exact ⟨value, others, first, ih.mp later, (Except.ok.inj same).symm⟩
    · rintro ⟨value, others, first, later, rfl⟩
      exact ⟨value, first, bind_eq_ok_iff.mpr ⟨others, ih.mpr later, rfl⟩⟩

end Except

import Mathlib.Data.List.Forall2

namespace List

variable {α β γ : Type} {R : α → β → Prop} {items : List α} {values : List β}

/-- The numbers of the items do not matter to what is said of the items alone. -/
theorem forall₂_zipIdx_iff :
    Forall₂ (fun item value => R item.1 value) items.zipIdx values ↔ Forall₂ R items values := by
  conv_rhs => rw [← zipIdx_map_fst 0 items]
  rw [forall₂_map_left_iff]

theorem Forall₂.exists_value (related : Forall₂ R items values) {item : α} (member : item ∈ items) :
    ∃ value ∈ values, R item value := by
  induction related with
  | nil => cases member
  | cons first _ ih =>
    rcases mem_cons.mp member with rfl | later
    · exact ⟨_, mem_cons_self, first⟩
    · obtain ⟨value, inside, fits⟩ := ih later
      exact ⟨value, mem_cons_of_mem _ inside, fits⟩

theorem Forall₂.exists_item (related : Forall₂ R items values) {value : β}
    (member : value ∈ values) : ∃ item ∈ items, R item value :=
  related.flip.exists_value member

/-- Relations between items and values, and between values and results, are taken in one pass. -/
theorem Forall₂.through {S : β → γ → Prop} {T : α → γ → Prop} {results : List γ}
    (first : Forall₂ R items values) (second : Forall₂ S values results)
    (both : ∀ item ∈ items, ∀ value result, R item value → S value result → T item result) :
    Forall₂ T items results := by
  induction first generalizing results with
  | nil =>
    cases second
    exact .nil
  | cons head _ ih =>
    cases second with
    | cons next later =>
      obtain ⟨here, others⟩ := forall_mem_cons.mp both
      exact .cons (here _ _ head next) (ih later others)

/-- Where the items of a kind at the start end can be told from the whole. -/
theorem eq_of_runs {p : α → Bool} {run run' rest rest' : List α} (inside : ∀ a ∈ run, p a)
    (inside' : ∀ a ∈ run', p a) (outside : ∀ a ∈ rest.head?, p a = false)
    (outside' : ∀ a ∈ rest'.head?, p a = false) (same : run ++ rest = run' ++ rest') :
    run = run' ∧ rest = rest' := by
  have whole {run rest : List α} (inside : ∀ a ∈ run, p a)
      (outside : ∀ a ∈ rest.head?, p a = false) : (run ++ rest).takeWhile p = run := by
    rw [takeWhile_append_of_pos inside]
    cases rest with
    | nil => exact append_nil _
    | cons a rest =>
      have other := outside a rfl
      rw [takeWhile_cons_of_neg (by rw [other]; exact Bool.false_ne_true), append_nil]
  obtain rfl : run = run' := by rw [← whole inside outside, same, whole inside' outside']
  exact ⟨rfl, append_cancel_left same⟩

/-- What stands before and after the first separator can be told from the whole. -/
theorem eq_of_append_cons_eq {separator : α} {before before' after after' : List α}
    (free : separator ∉ before) (free' : separator ∉ before')
    (same : before ++ separator :: after = before' ++ separator :: after') :
    before = before' ∧ after = after' := by
  induction before generalizing before' with
  | nil =>
    cases before' with
    | nil => exact ⟨rfl, (cons.inj same).2⟩
    | cons c before' => exact absurd ((cons.inj same).1 ▸ mem_cons_self) free'
  | cons c before ih =>
    cases before' with
    | nil => exact absurd ((cons.inj same).1 ▸ mem_cons_self) free
    | cons d before' =>
      obtain ⟨rfl, others⟩ := cons.inj same
      obtain ⟨rfl, rfl⟩ := ih (fun member => free (mem_cons_of_mem _ member))
        (fun member => free' (mem_cons_of_mem _ member)) others
      exact ⟨rfl, rfl⟩

section

variable [BEq α] [LawfulBEq α]

/-- Without repetitions, items stand in the order in which each of them occurs first. -/
theorem eraseDups_pairwise (items : List α) :
    items.eraseDups.Pairwise fun a b =>
      ∃ first rest, items = first ++ rest ∧ a ∈ first ∧ b ∉ first := by
  -- The tail is gone through without the repetitions of the first item, so it is its length that falls.
  cases items with
  | nil => exact .nil
  | cons item items =>
    rw [eraseDups_cons, pairwise_cons]
    refine ⟨fun b later => ?_, ?_⟩
    · have other := (mem_filter.mp (mem_eraseDups.mp later)).2
      exact ⟨[item], items, rfl, mem_cons_self, by simpa using other⟩
    · refine (eraseDups_pairwise (items.filter fun b => !b == item)).imp_of_mem ?_
      rintro a b _ later ⟨first, rest, parts, inside, outside⟩
      obtain ⟨first', rest', rfl, rfl, rfl⟩ := filter_eq_append_iff.mp parts
      have other := (mem_filter.mp (mem_eraseDups.mp later)).2
      refine ⟨item :: first', rest', rfl, mem_cons_of_mem _ (mem_filter.mp inside).1, ?_⟩
      rintro (_ | ⟨_, member⟩)
      · simp at other
      · exact outside (mem_filter.mpr ⟨member, other⟩)
termination_by items.length
decreasing_by exact Nat.lt_succ_of_le (length_filter_le _ _)

theorem eraseDups_nodup (items : List α) : items.eraseDups.Nodup :=
  (eraseDups_pairwise items).imp fun ⟨_, _, _, inside, outside⟩ same => outside (same ▸ inside)

theorem eraseDups_of_nodup {items : List α} (distinct : items.Nodup) : items.eraseDups = items := by
  induction items with
  | nil => rfl
  | cons item items ih =>
    obtain ⟨new, others⟩ := nodup_cons.mp distinct
    have kept : items.filter (fun b => !b == item) = items :=
      filter_eq_self.mpr fun b member => by
        simpa using fun same : b = item => new (same ▸ member)
    rw [eraseDups_cons, kept, ih others]

end

end List

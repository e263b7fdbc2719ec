import WorkflowKit.Text.Blank
import Mathlib.Data.List.DropRight

namespace WorkflowKit.Text

theorem trimmed_eq (cs : List Char) : trimmed cs = (cs.dropWhile isBlank).rdropWhile isBlank := rfl

/-- What a text begins with stays its beginning when its end is cut off. -/
theorem dropWhile_prefix {p : Char → Bool} {cs ds : List Char} (start : ds <+: cs)
    (kept : cs.dropWhile p = cs) : ds.dropWhile p = ds := by
  cases ds with
  | nil => rfl
  | cons d ds =>
    obtain ⟨others, rfl⟩ := start
    rw [List.cons_append, List.dropWhile_eq_self_iff] at kept
    exact List.dropWhile_cons_of_neg (kept (Nat.zero_lt_succ _))

@[simp]
theorem trimmed_trimmed (cs : List Char) : trimmed (trimmed cs) = trimmed cs := by
  have start : (trimmed cs).dropWhile isBlank = trimmed cs :=
    dropWhile_prefix (List.rdropWhile_prefix isBlank _) (List.dropWhile_idempotent isBlank _)
  rw [trimmed_eq (trimmed cs), start, trimmed_eq, List.rdropWhile_idempotent]

@[simp]
theorem trim_trim (s : String) : trim (trim s) = trim s := by
  rw [trim, trim, String.toList_ofList, trimmed_trimmed]

/-- Holds of a text without blanks at its ends. -/
def IsTrimmed (s : String) : Prop :=
  (∀ c ∈ s.toList.head?, ¬ isBlank c) ∧ ∀ c ∈ s.toList.getLast?, ¬ isBlank c

theorem trimmed_of_blank {cs : List Char} (blank : ∀ c ∈ cs, isBlank c) : trimmed cs = [] := by
  rw [trimmed_eq, List.dropWhile_eq_nil_iff.mpr blank, List.rdropWhile_nil]

/-- Blanks around a text without blanks at its ends are all that trimming takes away. -/
theorem trimmed_around {before cs after : List Char} (blank : ∀ c ∈ before ++ after, isBlank c)
    (first : ∀ c ∈ cs.head?, ¬ isBlank c) (last : ∀ c ∈ cs.getLast?, ¬ isBlank c) :
    trimmed (before ++ cs ++ after) = cs := by
  obtain ⟨blankBefore, blankAfter⟩ := List.forall_mem_append.mp blank
  cases cs with
  | nil => exact trimmed_of_blank (by simpa using blank)
  | cons c cs =>
    have kept : ((c :: cs) ++ after).dropWhile isBlank = (c :: cs) ++ after :=
      List.dropWhile_cons_of_neg (first c rfl)
    have ended : ((c :: cs).reverse).dropWhile isBlank = (c :: cs).reverse := by
      rw [← List.head?_reverse] at last
      cases backwards : (c :: cs).reverse with
      | nil => rfl
      | cons d rest => exact List.dropWhile_cons_of_neg (last d (by rw [backwards]; rfl))
    rw [trimmed, List.append_assoc, List.dropWhile_append_of_pos blankBefore, kept,
      List.reverse_append, List.dropWhile_append_of_pos (by simpa using blankAfter), ended,
      List.reverse_reverse]

/-- Only blanks are taken away. -/
theorem exists_around_trimmed (cs : List Char) :
    ∃ before after, (∀ c ∈ before ++ after, isBlank c) ∧ cs = before ++ trimmed cs ++ after := by
  refine ⟨cs.takeWhile isBlank, (cs.dropWhile isBlank).rtakeWhile isBlank, ?_, ?_⟩
  · refine List.forall_mem_append.mpr ⟨fun c => List.mem_takeWhile_imp, fun c => ?_⟩
    exact List.mem_rtakeWhile_imp
  · rw [trimmed_eq, List.append_assoc, List.rdropWhile_append_rtakeWhile,
      List.takeWhile_append_dropWhile]

theorem isTrimmed_trim (s : String) : IsTrimmed (trim s) := by
  rw [IsTrimmed, trim, String.toList_ofList, trimmed_eq]
  refine ⟨fun c first => ?_, fun c last => ?_⟩
  · obtain ⟨rest, parts⟩ := List.rdropWhile_prefix isBlank (s.toList.dropWhile isBlank)
    have head := List.head?_dropWhile_not isBlank s.toList
    rw [← parts, List.head?_append, Option.mem_def.mp first] at head
    simpa using head
  · obtain ⟨nonempty, rfl⟩ := List.mem_getLast?_eq_getLast last
    exact List.rdropWhile_last_not isBlank _ nonempty

/-- What is left of a text when it is trimmed. -/
theorem trim_eq_iff {s t : String} :
    trim s = t ↔ IsTrimmed t ∧ ∃ before after, (∀ c ∈ before ++ after, isBlank c) ∧
      s.toList = before ++ t.toList ++ after := by
  constructor
  · rintro rfl
    refine ⟨isTrimmed_trim s, ?_⟩
    rw [trim, String.toList_ofList]
    exact exists_around_trimmed s.toList
  · rintro ⟨⟨first, last⟩, before, after, blank, parts⟩
    rw [trim, parts, trimmed_around blank first last, String.ofList_toList]

/-- Trimming changes a text exactly if there is a blank at one of its ends. -/
theorem trim_eq_self_iff {s : String} : trim s = s ↔ IsTrimmed s :=
  ⟨fun same => same ▸ isTrimmed_trim s, fun trimmed => trim_eq_iff.mpr ⟨trimmed, [], [], by simp⟩⟩

theorem trim_append_blank {cs : List Char} {c : Char} (blank : isBlank c) :
    trim (String.ofList (cs ++ [c])) = trim (String.ofList cs) := by
  generalize shown : trim (String.ofList cs) = t
  obtain ⟨trimmed, before, after, blanks, parts⟩ := trim_eq_iff.mp shown
  refine trim_eq_iff.mpr ⟨trimmed, before, after ++ [c], ?_, ?_⟩
  · simpa [or_imp, forall_and, blank] using blanks
  · rw [String.toList_ofList] at parts ⊢
    simp only [parts, List.append_assoc]

end WorkflowKit.Text

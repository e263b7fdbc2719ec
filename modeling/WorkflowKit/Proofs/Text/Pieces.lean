import WorkflowKit.Text.Pieces

namespace WorkflowKit.Text

theorem not_mem_of_mem_splitOn {separator : Char} {cs piece : List Char}
    (member : piece ∈ cs.splitOn separator) : separator ∉ piece := by
  induction cs generalizing piece with
  | nil => simp_all
  | cons c cs ih =>
    rw [List.splitOn_cons_eq_if_modifyHead] at member
    split at member
    · rcases List.mem_cons.mp member with rfl | later
      · exact List.not_mem_nil
      · exact ih later
    · rename_i different
      obtain ⟨first, rest, parts⟩ := List.exists_cons_of_ne_nil (List.splitOn_ne_nil separator cs)
      rw [parts] at ih member
      rcases List.mem_cons.mp member with rfl | later
      · have notFirst := ih List.mem_cons_self
        have notHead : separator ≠ c := fun same => different (beq_iff_eq.mpr same.symm)
        simp [notFirst, notHead]
      · exact ih (List.mem_cons_of_mem _ later)

theorem not_mem_of_mem_pieces {separator : Char} {s piece : String}
    (member : piece ∈ pieces separator s) : separator ∉ piece.toList := by
  obtain ⟨cs, inside, rfl⟩ := List.mem_map.mp member
  simpa using not_mem_of_mem_splitOn inside

@[simp]
theorem joined_pieces (separator : Char) (s : String) :
    joined separator (pieces separator s) = s := by
  simp [joined, pieces, Function.comp_def]

/-- Texts without the separator are found again. The empty list looks like that of the empty text. -/
theorem pieces_joined {separator : Char} {parts : List String}
    (free : ∀ part ∈ parts, separator ∉ part.toList) (nonempty : parts ≠ []) :
    pieces separator (joined separator parts) = parts := by
  have free' : ∀ l ∈ parts.map String.toList, separator ∉ l := by simpa using free
  have split := List.splitOn_intercalate separator free' (by simpa using nonempty)
  simp [pieces, joined, split, Function.comp_def]

/-- Joining no pieces is the one case that is not undone: the empty text has one piece. -/
@[simp]
theorem pieces_joined_nil (separator : Char) : pieces separator (joined separator []) = [""] := rfl

/-- Only the list of one empty text is put together to the empty text. -/
theorem joined_ne_empty {separator : Char} {parts : List String}
    (free : ∀ part ∈ parts, separator ∉ part.toList) (nonempty : parts ≠ [])
    (visible : parts ≠ [""]) : joined separator parts ≠ "" := by
  intro empty
  refine visible ?_
  rw [← pieces_joined free nonempty, empty]
  rfl

/-- The pieces of a text are the only ones without the separator that make up the text. -/
theorem pieces_eq_iff {separator : Char} {s : String} {parts : List String} :
    pieces separator s = parts ↔
      parts ≠ [] ∧ (∀ part ∈ parts, separator ∉ part.toList) ∧ joined separator parts = s := by
  constructor
  · rintro rfl
    refine ⟨fun none => List.splitOn_ne_nil separator s.toList ?_,
      fun part => not_mem_of_mem_pieces, joined_pieces separator s⟩
    exact List.map_eq_nil_iff.mp none
  · rintro ⟨nonempty, free, rfl⟩
    exact pieces_joined free nonempty

theorem mem_intercalate {separator c : Char} {parts : List (List Char)}
    (member : c ∈ [separator].intercalate parts) : c = separator ∨ ∃ part ∈ parts, c ∈ part := by
  induction parts with
  | nil => cases member
  | cons first rest ih =>
    cases rest with
    | nil => exact Or.inr ⟨first, List.mem_cons_self, by simpa using member⟩
    | cons second rest =>
      rw [List.intercalate_cons_cons, List.append_assoc, List.mem_append, List.mem_append,
        List.mem_singleton] at member
      rcases member with inside | same | later
      · exact Or.inr ⟨first, List.mem_cons_self, inside⟩
      · exact Or.inl same
      · exact (ih later).imp_right fun ⟨part, member, inside⟩ =>
          ⟨part, List.mem_cons_of_mem _ member, inside⟩

/-- Nothing comes into a text that is put together but the separator. -/
theorem mem_joined {separator c : Char} {parts : List String}
    (member : c ∈ (joined separator parts).toList) :
    c = separator ∨ ∃ part ∈ parts, c ∈ part.toList := by
  rw [joined, String.toList_ofList] at member
  rcases mem_intercalate member with same | ⟨_, part, inside⟩
  · exact Or.inl same
  · obtain ⟨text, among, rfl⟩ := List.mem_map.mp part
    exact Or.inr ⟨text, among, inside⟩

theorem head?_splitOn (separator : Char) (cs : List Char) :
    (cs.splitOn separator).head? = some (cs.takeWhile (· ≠ separator)) := by
  induction cs with
  | nil => simp
  | cons c cs ih =>
    rw [List.splitOn_cons_eq_if_modifyHead, List.takeWhile_cons]
    by_cases same : c = separator
    · simp [same]
    · simp [same, List.head?_modifyHead, ih]

/-- The first piece of a text is all that stands before the first separator. -/
theorem head?_pieces (separator : Char) (s : String) :
    (pieces separator s).head? = some (String.ofList (s.toList.takeWhile (· ≠ separator))) := by
  rw [pieces, List.head?_map, head?_splitOn, Option.map_some]

end WorkflowKit.Text

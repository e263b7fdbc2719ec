import WorkflowKit.Changes.Platforms
import Mathlib.Data.List.Infix
import Mathlib.Tactic.SplitIfs

namespace WorkflowKit

theorem Text.occursIn_iff {needle cs : List Char} : occursIn needle cs ↔ needle <:+: cs := by
  induction cs with
  | nil => simp [occursIn]
  | cons c rest ih =>
    rw [occursIn, Bool.or_eq_true, List.isPrefixOf_iff_prefix, ih, List.infix_cons_iff]

namespace Changes

/-- Holds of a path in which a text occurs. -/
def Contains (text path : String) : Prop :=
  text.toList <:+: path.toList

instance (text path : String) : Decidable (Contains text path) :=
  decidable_of_iff _ Text.occursIn_iff

/-- Holds of a path in which a text of small letters occurs in letters of either case. -/
def ContainsAnyCase (text path : String) : Prop :=
  ∃ before found after, path.toList = before ++ found ++ after ∧
    found.map Char.toLower = text.toList

/-- Holds of a path in which a separator stands before the three letters, in either case, and
another one after them. The long form of the last letter counts as the letter. -/
def ContainsIosWord (path : String) : Prop :=
  ∃ before first i o s last after,
    path.toList = before ++ [first, i, o, s, last] ++ after ∧
      first ∈ ['_', '.', '/'] ∧ last ∈ ['_', '.', '/'] ∧
      i.toLower = 'i' ∧ o.toLower = 'o' ∧ (s.toLower = 's' ∨ s = '\u017F')

theorem isSeparator_iff (c : Char) : isSeparator c ↔ c ∈ ['_', '.', '/'] := by
  simp [isSeparator, or_assoc]

/-- Only two characters outside of ASCII are compared as letters, and each as another one. -/
theorem folded_eq_iff {c letter : Char} (ascii : letter.toNat < 0x80) :
    folded c = letter ↔ c.toLower = letter ∨ c = '\u017F' ∧ letter = 's' ∨
      c = '\u212A' ∧ letter = 'k' := by
  unfold folded
  split_ifs with long kelvin
  · have other : letter ≠ '\u017F' := by
      rintro rfl
      exact absurd ascii (by decide)
    simp [long, other.symm, eq_comm]
  · have other : letter ≠ '\u212A' := by
      rintro rfl
      exact absurd ascii (by decide)
    simp [kelvin, other.symm, eq_comm]
  · simp [long, kelvin]

/-- A text without the two letters that have forms outside of ASCII is compared in ASCII only. -/
theorem map_folded_eq_iff {letters : List Char}
    (plain : ∀ letter ∈ letters, letter.toNat < 0x80 ∧ letter ≠ 's' ∧ letter ≠ 'k')
    (cs : List Char) : cs.map folded = letters ↔ cs.map Char.toLower = letters := by
  induction letters generalizing cs with
  | nil => simp
  | cons letter letters ih =>
    obtain ⟨⟨ascii, notS, notK⟩, others⟩ := List.forall_mem_cons.mp plain
    cases cs with
    | nil => simp
    | cons c cs =>
      rw [List.map_cons, List.map_cons, List.cons.injEq, List.cons.injEq, ih others,
        folded_eq_iff ascii]
      simp [notS, notK]

theorem infix_map_iff {α : Type} {needle cs : List α} {change : α → α} :
    needle <:+: cs.map change ↔
      ∃ before found after, cs = before ++ found ++ after ∧ found.map change = needle := by
  constructor
  · rintro ⟨before, after, parts⟩
    obtain ⟨start, after', rfl, changed, rfl⟩ := List.append_eq_map_iff.mp parts
    obtain ⟨before', found, rfl, rfl, same⟩ := List.append_eq_map_iff.mp changed.symm
    exact ⟨before', found, after', rfl, same⟩
  · rintro ⟨before, found, after, rfl, rfl⟩
    exact ⟨before.map change, after.map change, by simp⟩

/-- A word is found where it stands between two separators. -/
theorem hasWord_iff {word cs : List Char} :
    hasWord word cs ↔ ∃ before first found last after,
      cs = before ++ first :: found ++ last :: after ∧ isSeparator first ∧ isSeparator last ∧
        found.map folded = word := by
  induction cs with
  | nil => simp [hasWord]
  | cons c rest ih =>
    have here : (isSeparator c && word.isPrefixOf (rest.map folded) &&
        (rest.drop word.length).head?.any isSeparator) = true ↔
        ∃ found last after, rest = found ++ last :: after ∧ isSeparator c ∧ isSeparator last ∧
          found.map folded = word := by
      rw [Bool.and_eq_true, Bool.and_eq_true, List.isPrefixOf_iff_prefix]
      constructor
      · rintro ⟨⟨separator, start, parts⟩, ends⟩
        obtain ⟨found, others, rfl, rfl, rfl⟩ := List.append_eq_map_iff.mp parts
        rw [List.length_map, List.drop_left] at ends
        cases others with
        | nil => simp at ends
        | cons last after => exact ⟨found, last, after, rfl, separator, by simpa using ends, rfl⟩
      · rintro ⟨found, last, after, rfl, separator, ends, rfl⟩
        refine ⟨⟨separator, (last :: after).map folded, by simp⟩, ?_⟩
        simpa [List.length_map, List.drop_left] using ends
    rw [hasWord, Bool.or_eq_true, here, ih]
    constructor
    · rintro (⟨found, last, after, rfl, others⟩ | ⟨before, first, found, last, after, rfl, others⟩)
      · exact ⟨[], c, found, last, after, rfl, others⟩
      · exact ⟨c :: before, first, found, last, after, rfl, others⟩
    · rintro ⟨before, first, found, last, after, parts, others⟩
      cases before with
      | nil =>
        obtain ⟨rfl, rfl⟩ := List.cons.inj parts
        exact Or.inl ⟨found, last, after, rfl, others⟩
      | cons _ before =>
        obtain ⟨rfl, rfl⟩ := List.cons.inj parts
        exact Or.inr ⟨before, first, found, last, after, rfl, others⟩

namespace PathMark

theorem found_start_iff {text path : String} :
    found path.toList (.start text) ↔ text.toList <+: path.toList :=
  List.isPrefixOf_iff_prefix

theorem found_ending_iff {text path : String} :
    found path.toList (.ending text) ↔ text.toList <:+ path.toList :=
  List.isSuffixOf_iff_suffix

theorem found_within_iff {text path : String} :
    found path.toList (.within text) ↔ Contains text path :=
  Text.occursIn_iff

/-- Letters without special case forms are found in either case. -/
theorem found_withinAnyCase_iff (text : String) {path : String}
    (plain : ∀ letter ∈ text.toList, letter.toNat < 0x80 ∧ letter ≠ 's' ∧ letter ≠ 'k') :
    found path.toList (.withinAnyCase text) ↔ ContainsAnyCase text path := by
  rw [found, Text.occursIn_iff, infix_map_iff, ContainsAnyCase]
  simp only [map_folded_eq_iff plain]

/-- The word stands between separators. One of its letters has a third form, which counts as
well. -/
theorem found_ios_iff {path : String} :
    found path.toList (.wordAnyCase "ios") ↔ ContainsIosWord path := by
  have word : ("ios" : String).toList = ['i', 'o', 's'] := rfl
  rw [found, hasWord_iff, word]
  simp only [isSeparator_iff]
  constructor
  · rintro ⟨before, first, found, last, after, parts, starts, ends, letters⟩
    obtain ⟨i, tail, rfl, atI, letters⟩ := List.map_eq_cons_iff.mp letters
    obtain ⟨o, tail, rfl, atO, letters⟩ := List.map_eq_cons_iff.mp letters
    obtain ⟨s, tail, rfl, atS, letters⟩ := List.map_eq_cons_iff.mp letters
    obtain rfl := List.map_eq_nil_iff.mp letters
    refine ⟨before, first, i, o, s, last, after, by simpa using parts, starts, ends, ?_, ?_, ?_⟩
    · simpa using (folded_eq_iff (by decide)).mp atI
    · simpa using (folded_eq_iff (by decide)).mp atO
    · simpa using (folded_eq_iff (by decide)).mp atS
  · rintro ⟨before, first, i, o, s, last, after, parts, starts, ends, atI, atO, atS⟩
    refine ⟨before, first, [i, o, s], last, after, by simpa using parts, starts, ends, ?_⟩
    have letterI : folded i = 'i' := (folded_eq_iff (by decide)).mpr (Or.inl atI)
    have letterO : folded o = 'o' := (folded_eq_iff (by decide)).mpr (Or.inl atO)
    have letterS : folded s = 's' := (folded_eq_iff (by decide)).mpr (by simpa using atS)
    simp [letterI, letterO, letterS]

end PathMark

end Changes

end WorkflowKit

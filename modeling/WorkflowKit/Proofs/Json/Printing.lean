import WorkflowKit.Proofs.Json.Decoding
import WorkflowKit.Proofs.Json.Writing
import WorkflowKit.Proofs.SortedMap

namespace WorkflowKit.Json

theorem hexForm_of_control {n : Nat} (control : n < 0x20) :
    HexForm ['0', '0', Nat.digitChar (n / 16), Nat.digitChar (n % 16)] n := by
  have each : ∀ n < 0x20,
      "0123456789abcdef".toList[n / 16]? = some (Nat.digitChar (n / 16)).toLower ∧
        "0123456789abcdef".toList[n % 16]? = some (Nat.digitChar (n % 16)).toLower := by decide
  obtain ⟨third, fourth⟩ := each n control
  have zero : "0123456789abcdef".toList[0]? = some '0'.toLower := by decide
  have form := HexForm.digits zero zero third fourth
  have number : 0 * 0x1000 + 0 * 0x100 + n / 16 * 0x10 + n % 16 = n := by omega
  rwa [number] at form

/-- The form that is chosen for a character writes it. -/
theorem spells_escaped (c : Char) : Spells (escaped c) c := by
  have one : ∀ n < 0x10, ['0', '0', '0'] ++ Nat.toDigits 16 n =
      ['0', '0', Nat.digitChar (n / 16), Nat.digitChar (n % 16)] := by decide
  have two : ∀ n < 0x20, 0x10 ≤ n → ['0', '0'] ++ Nat.toDigits 16 n =
      ['0', '0', Nat.digitChar (n / 16), Nat.digitChar (n % 16)] := by decide
  unfold escaped
  split_ifs with quote backslash back form feed carriage tab small control
  · subst quote
    exact .short (by decide)
  · subst backslash
    exact .short (by decide)
  · subst back
    exact .short (by decide)
  · subst form
    exact .short (by decide)
  · subst feed
    exact .short (by decide)
  · subst carriage
    exact .short (by decide)
  · subst tab
    exact .short (by decide)
  · have digits := one c.toNat small
    have number := hexForm_of_control (Nat.lt_trans small (by decide))
    rw [← digits] at number
    exact .number number
  · have digits := two c.toNat control (Nat.le_of_not_lt small)
    have number := hexForm_of_control control
    rw [← digits] at number
    exact .number number
  · exact .plain (Nat.le_of_not_lt control) quote backslash

/-- Every character is written in one of the ways in which it may be spelled. -/
theorem spellsAll_escaped (cs : List Char) : SpellsAll (cs.flatMap escaped) cs := by
  induction cs with
  | nil => exact .nil
  | cons c cs ih => exact List.flatMap_cons ▸ .cons (spells_escaped c) ih

theorem quotes_quotedChars (s : String) : Quotes s (quotedChars s.toList) :=
  .quoted (spellsAll_escaped s.toList)

theorem integral_decimalInt {n : Int} (least : -2 ^ 63 ≤ n) (most : n < 2 ^ 64) :
    Integral (decimalInt n) (.integer n) := by
  have value := digitsValue_decimalDigits n.natAbs
  unfold decimalInt
  split
  · rename_i negative
    have writes : Integral _ _ := .negative (whole_decimalDigits n.natAbs) (by omega) (by omega)
    have number : -(Text.digitsValue (decimalDigits n.natAbs) : Int) = n := by omega
    rwa [number] at writes
  · have writes : Integral _ _ := .natural (whole_decimalDigits n.natAbs) (by omega)
    have number : (Text.digitsValue (decimalDigits n.natAbs) : Int) = n := by omega
    rwa [number] at writes

theorem integral_numberChars {n : JsonNumber} (integer : IsInteger n) :
    Integral (numberChars n) n := by
  cases n with
  | integer => exact integral_decimalInt integer.1 integer.2
  | float => exact integer.elim

theorem ofMembers_of_ascending {members : List (String × Json)}
    (ascending : members.Pairwise fun a b => a.1 < b.1) : ofMembers members = .object members := by
  have same := SortedMap.ofList_entries ⟨members, ascending⟩
  exact congrArg (fun map => Json.object map.entries) same

theorem ofMembers_pair {a b : String × Json} (before : b.1 < a.1) :
    ofMembers [a, b] = .object [b, a] := by
  simp [ofMembers, SortedMap.ofList, SortedMap.insert, SortedMap.placed, SortedMap.empty, before]

/-- Of members with the same name the last counts. -/
theorem ofMembers_repeated (name : String) (first last : Json) :
    ofMembers [(name, first), (name, last)] = .object [(name, last)] := by
  simp [ofMembers, SortedMap.ofList, SortedMap.insert, SortedMap.placed, SortedMap.empty]

/-- The text that is written for a value spells it, if it does so for the numbers. -/
theorem Ordered.spelled {kind : JsonNumber → Prop} {numbers : List Char → JsonNumber → Prop}
    (each : ∀ n, kind n → numbers (numberChars n) n) {depth : Nat} {v : Json}
    (ordered : Ordered kind depth v) : Spelled numbers depth v.chars v := by
  induction ordered with
  | null => exact .null
  | bool value =>
    cases value with
    | true => exact .true
    | false => exact .false
  | number holds => exact .number (each _ holds)
  | text s => exact .text (quotes_quotedChars s)
  | @array depth items _ ih =>
    rcases eq_or_ne items [] with rfl | nonempty
    · exact Spelled.emptyList (List.forall_mem_nil _ : Blanks [])
    · have spelled : Spelled numbers (depth + 1) _ _ := .list (items.map fun item => (item.chars, item))
        (by simpa using nonempty) (List.forall_mem_map.mpr ih)
      simpa [bracketed, chars_array, Function.comp_def] using spelled
  | @object depth members ascending _ ih =>
    rcases eq_or_ne members [] with rfl | nonempty
    · exact Spelled.emptyObject (List.forall_mem_nil _ : Blanks [])
    · have spelled : Spelled numbers (depth + 1) _ _ := .object
        (members.map fun member =>
          ⟨[], quotedChars member.1.toList, [], member.2.chars, member.1, member.2⟩)
        (by simpa using nonempty)
        (List.forall_mem_map.mpr fun member _ =>
          ⟨List.forall_mem_nil _, quotes_quotedChars member.1, List.forall_mem_nil _⟩)
        (List.forall_mem_map.mpr ih)
      -- The members as they are written are members of the grammar without blanks around their
      -- names.
      have entries : members.map (fun member => (member.1, member.2)) = members :=
        List.map_id members
      have texts : members.map (fun member => Member.chars
          ⟨[], quotedChars member.1.toList, [], member.2.chars, member.1, member.2⟩) =
            members.map entryChars :=
        List.map_congr_left fun member _ => by
          obtain ⟨name, value⟩ := member
          simp [Member.chars, entryChars]
      simp only [List.map_map, Function.comp_def, entries, texts, ofMembers_of_ascending ascending]
        at spelled
      rw [chars_object]
      exact spelled

/-- The text that is written for a value encodes it. -/
theorem Admitted.encodes {depth : Nat} {v : Json} (admitted : Admitted depth v) :
    Encodes depth v.chars v :=
  encodes_iff_spelled.mpr ((admitted_iff_ordered.mp admitted).spelled fun _ => integral_numberChars)

/-- The values that texts encode are the admitted ones. -/
theorem Encodes.admitted {depth : Nat} {cs : List Char} {v : Json}
    (encodes : Encodes depth cs v) : Admitted depth v :=
  admitted_iff_ordered.mpr
    ((encodes_iff_spelled.mp encodes).ordered fun _ _ => Integral.isInteger)

/-- The values whose numbers are integers are written as they are read. -/
theorem Admitted.read_octets {depth : Nat} {v : Json} (admitted : Admitted depth v)
    (deep : depth < usualDepth) : Json.read v.octets = .ok v :=
  admitted.encodes.read deep

end WorkflowKit.Json

import WorkflowKit.Json.Record
import WorkflowKit.Proofs.Json.Passing
import WorkflowKit.Proofs.Json.Printing
import WorkflowKit.Proofs.SortedMap
import Mathlib.Algebra.BigOperators.Group.List.Basic

namespace WorkflowKit.Json

/-- The texts of objects that have a list as their only member of some name. The other members may be
nested to any depth. -/
inductive HoldsList (name : String) (depth : Nat) : List Char → List Json → Prop
  | object {start finish : List Char} (before after : List Member) (member : Member)
      {items : List Json} :
      Blanks start → Blanks finish → (∀ other ∈ before ++ member :: after, other.IsNamed) →
        (∀ other ∈ before ++ after, other.name ≠ name ∧
          ∃ depth, Encodes depth other.text other.value) →
        member.name = name → Encodes depth member.text (.array items) →
          HoldsList name depth
            (start ++ bracketed '\x7b' '\x7d' ((before ++ member :: after).map Member.chars) ++ finish)
            items

theorem HoldsList.admitted {name : String} {depth : Nat} {cs : List Char} {items : List Json}
    (holds : HoldsList name depth cs items) : Admitted depth (.array items) := by
  cases holds with
  | object _ _ _ _ _ _ _ _ encodes => exact encodes.admitted

variable {depth : Nat} {cs : List Char} {items : List Json}

/-- A text that encodes a list begins with its bracket. -/
theorem Encodes.start_list (encodes : Encodes depth cs (.array items)) : StartsWith (octet '[') cs := by
  generalize same : Json.array items = v at encodes
  induction encodes with
  | blanks first _ _ ih => exact (ih same).blanks first _
  | emptyList => exact startsWith_cons (by decide) _
  | list => exact startsWith_cons (by decide) _
  | _ => cases same

theorem field_list (encodes : Encodes depth cs (.array items)) {fuel allowed : Nat} {rest : Octets}
    (enough : 2 * cs.length ≤ fuel) (deep : depth < allowed) (closed : Closed rest) :
    ∃ after, Blanks after ∧ field fuel allowed .list (Octets.ofChars cs ++ rest) =
      .ok (.array items, Octets.ofChars after ++ rest) := by
  obtain ⟨after, blanks, inside⟩ := encodes.reads _ _ enough deep closed
  obtain ⟨others, input⟩ := encodes.start_list.afterSpace (by decide) rest
  have visible := encodes.begins.length_pos
  obtain ⟨fuel, rfl⟩ : ∃ n, fuel = n + 1 := ⟨fuel - 1, by omega⟩
  rw [← value_afterSpace, input] at inside
  have noObject : ¬ octet '[' = octet '\x7b' := by decide
  refine ⟨after, blanks, ?_⟩
  rw [field, input]
  simp [noObject, inside, bind, Except.bind, check]

section Members

variable {shape : Shape} {allowed : Nat} {member : Member} {more : Octets}
  {given : List (String × Json)}

theorem fieldMembers_congr {fuel : Nat} {first first' : Bool} {input input' : Octets}
    (same : memberName first input = memberName first' input') :
    fieldMembers shape allowed (fuel + 1) first given input =
      fieldMembers shape allowed (fuel + 1) first' given input' := by
  rw [fieldMembers, fieldMembers, same]

/-- A member that is no field is passed over. -/
theorem fieldMembers_other (named : member.IsNamed) (unknown : shape.fields.lookup member.name = none)
    (encodes : Encodes depth member.text member.value) {first : Bool} {input : Octets}
    (next : memberName first input = .ok (some member.name, Octets.ofChars member.afterName ++ more))
    (closed : Closed more) (allowed fuel : Nat) (given : List (String × Json)) :
    ∃ after, Blanks after ∧ fieldMembers shape allowed (fuel + 1) first given input =
      fieldMembers shape allowed fuel false given (Octets.ofChars after ++ more) := by
  obtain ⟨after, blanks, passed⟩ := encodes.passValue closed
  refine ⟨after, blanks, ?_⟩
  simp only [fieldMembers, next, unknown, bind, Except.bind, named.colon, passed, Except.mapError]

/-- A member that is a field is kept, if it was not there before. -/
theorem fieldMembers_list (named : member.IsNamed)
    (known : shape.fields.lookup member.name = some .list) (given : List (String × Json))
    (fresh : given.lookup member.name = none)
    (encodes : Encodes depth member.text (.array items)) {first : Bool} {input : Octets}
    (next : memberName first input = .ok (some member.name, Octets.ofChars member.afterName ++ more))
    (closed : Closed more) (fuel : Nat) (enough : 2 * member.text.length ≤ fuel)
    (deep : depth < allowed) :
    ∃ after, Blanks after ∧ fieldMembers shape allowed (fuel + 1) first given input =
      fieldMembers shape allowed fuel false (given ++ [(member.name, .array items)])
        (Octets.ofChars after ++ more) := by
  obtain ⟨after, blanks, inside⟩ := field_list encodes enough deep closed
  refine ⟨after, blanks, ?_⟩
  simp only [fieldMembers, next, known, fresh, Option.isSome_none, Bool.false_eq_true, if_false, bind,
    Except.bind, named.colon, inside, Except.mapError]

/-- Members that the record does not name are passed over. -/
theorem fieldMembers_others {others : List Member} (named : ∀ other ∈ others, other.IsNamed)
    (unknown : ∀ other ∈ others, shape.fields.lookup other.name = none ∧
      ∃ depth, Encodes depth other.text other.value) {before : List Char} (blanks : Blanks before)
    {fuel : Nat} (enough : others.length < fuel) (rest : Octets) :
    fieldMembers shape allowed fuel false given
        (Octets.ofChars before ++
          (Octets.ofChars (commaTail '\x7d' (others.map Member.chars)) ++ rest)) =
      .ok (given, rest) := by
  induction others generalizing before fuel with
  | nil =>
    obtain ⟨fuel, rfl⟩ := Nat.exists_eq_succ_of_ne_zero (Nat.ne_zero_of_lt enough)
    have last : Octets.ofChars ['\x7d'] = [octet '\x7d'] := rfl
    rw [List.map_nil, commaTail, last, List.singleton_append, fieldMembers, memberName_end blanks]
    rfl
  | cons other others ih =>
    obtain ⟨first, named⟩ := List.forall_mem_cons.mp named
    obtain ⟨⟨unknownFirst, _, encodes⟩, unknown⟩ := List.forall_mem_cons.mp unknown
    rw [List.length_cons] at enough
    obtain ⟨fuel, rfl⟩ := Nat.exists_eq_succ_of_ne_zero (Nat.ne_zero_of_lt enough)
    rw [List.map_cons, ofChars_commaTail_cons]
    obtain ⟨after, blanks', inside⟩ := fieldMembers_other first unknownFirst encodes
      (first.memberName_comma blanks _) (closed_commaTail (.inr rfl) (others.map Member.chars) rest)
      allowed fuel given
    rw [inside, ih named unknown blanks' (by omega)]

/-- The members of an object are read up to its end. Only the one that is a field is kept. -/
theorem fieldMembers_commaTail {before after : List Member}
    (named : ∀ other ∈ before ++ member :: after, other.IsNamed)
    (unknown : ∀ other ∈ before ++ after, shape.fields.lookup other.name = none ∧
      ∃ depth, Encodes depth other.text other.value)
    (known : shape.fields.lookup member.name = some .list)
    (encodes : Encodes depth member.text (.array items)) (deep : depth < allowed)
    {start : List Char} (blanks : Blanks start) {fuel : Nat}
    (enough : (before ++ after).length + 2 * member.text.length + 1 < fuel) (rest : Octets) :
    fieldMembers shape allowed fuel false []
        (Octets.ofChars start ++
          (Octets.ofChars (commaTail '\x7d' ((before ++ member :: after).map Member.chars)) ++ rest)) =
      .ok ([(member.name, .array items)], rest) := by
  -- The members before the list are passed over one by one, and so are those after it.
  induction before generalizing start fuel with
  | nil =>
    obtain ⟨fuel, rfl⟩ := Nat.exists_eq_succ_of_ne_zero (Nat.ne_zero_of_lt enough)
    obtain ⟨first, named⟩ := List.forall_mem_cons.mp named
    rw [List.nil_append] at unknown enough ⊢
    rw [List.map_cons, ofChars_commaTail_cons]
    obtain ⟨left, blanks', inside⟩ := fieldMembers_list first known [] rfl encodes
      (first.memberName_comma blanks _) (closed_commaTail (.inr rfl) (after.map Member.chars) rest)
      fuel (by omega) deep
    rw [inside, fieldMembers_others named unknown blanks' (by omega)]
    rfl
  | cons other before ih =>
    obtain ⟨first, named⟩ := List.forall_mem_cons.mp named
    obtain ⟨⟨unknownFirst, _, encodesFirst⟩, unknown⟩ := List.forall_mem_cons.mp unknown
    rw [List.cons_append, List.length_cons] at enough
    obtain ⟨fuel, rfl⟩ := Nat.exists_eq_succ_of_ne_zero (Nat.ne_zero_of_lt enough)
    rw [List.cons_append, List.map_cons, ofChars_commaTail_cons]
    obtain ⟨left, blanks', inside⟩ := fieldMembers_other first unknownFirst encodesFirst
      (first.memberName_comma blanks _)
      (closed_commaTail (.inr rfl) ((before ++ member :: after).map Member.chars) rest) allowed fuel []
    rw [inside, ih named unknown blanks' (by omega)]

/-- What stands after the opening bracket of an object is read as its members. -/
theorem fieldMembers_object {before after : List Member}
    (named : ∀ other ∈ before ++ member :: after, other.IsNamed)
    (unknown : ∀ other ∈ before ++ after, shape.fields.lookup other.name = none ∧
      ∃ depth, Encodes depth other.text other.value)
    (known : shape.fields.lookup member.name = some .list)
    (encodes : Encodes depth member.text (.array items)) (deep : depth < allowed) {fuel : Nat}
    (enough : (before ++ after).length + 2 * member.text.length + 1 < fuel) (rest : Octets) :
    ∃ inside, Octets.ofChars
        (bracketed '\x7b' '\x7d' ((before ++ member :: after).map Member.chars)) ++ rest =
          octet '\x7b' :: inside ∧
      fieldMembers shape allowed fuel true [] inside = .ok ([(member.name, .array items)], rest) := by
  have all := fieldMembers_commaTail named unknown known encodes deep (List.forall_mem_nil _) enough
    rest
  obtain ⟨fuel, rfl⟩ := Nat.exists_eq_succ_of_ne_zero (Nat.ne_zero_of_lt enough)
  obtain ⟨first, others, split⟩ := List.exists_cons_of_ne_nil
    (List.append_ne_nil_of_right_ne_nil before (List.cons_ne_nil member after))
  rw [split] at named all ⊢
  have namedFirst := named first List.mem_cons_self
  rw [List.map_cons, ofChars_commaTail_cons] at all
  refine ⟨Octets.ofChars first.chars ++
    (Octets.ofChars (commaTail '\x7d' (others.map Member.chars)) ++ rest), ?_, ?_⟩
  · rw [List.map_cons, bracketed_cons, ofChars_cons_of_ascii (by decide), Octets.ofChars_append,
      List.cons_append, List.append_assoc]
  · rw [← all]
    refine fieldMembers_congr ?_
    rw [namedFirst.memberName, namedFirst.memberName_comma (List.forall_mem_nil _)]

end Members

theorem length_commaTail (closing : Char) (parts : List (List Char)) :
    (commaTail closing parts).length = (parts.map (·.length + 1)).sum + 1 := by
  induction parts with
  | nil => rfl
  | cons part parts ih =>
    rw [commaTail, List.length_append, List.length_cons, ih, List.map_cons, List.sum_cons]
    omega

theorem length_bracketed (opening closing : Char) {parts : List (List Char)} (nonempty : parts ≠ []) :
    (bracketed opening closing parts).length = (parts.map (·.length + 1)).sum + 1 := by
  cases parts with
  | nil => exact absurd rfl nonempty
  | cons part parts =>
    rw [bracketed_cons, List.length_cons, List.length_append, length_commaTail, List.map_cons,
      List.sum_cons]
    omega

/-- The text of an object is longer than the text in one of its members, and has a character more
for each of the others. -/
theorem length_members_lt (before after : List Member) (member : Member) :
    (before ++ after).length + member.text.length <
      (bracketed '\x7b' '\x7d' ((before ++ member :: after).map Member.chars)).length := by
  have count (members : List Member) :
      members.length ≤ ((members.map Member.chars).map (·.length + 1)).sum := by
    have each := List.length_le_sum_of_one_le ((members.map Member.chars).map (·.length + 1))
      (List.forall_mem_map.mpr fun part _ => Nat.succ_pos part.length)
    rwa [List.length_map, List.length_map] at each
  have countBefore := count before
  have countAfter := count after
  have shorter := member.length_text_lt
  rw [length_bracketed _ _ (by simp), List.map_append, List.map_append, List.sum_append, List.map_cons,
    List.map_cons, List.sum_cons, List.length_append]
  omega

theorem ordered_list {name : String} {shape : Shape} (fields : shape.fields = [(name, .list)])
    (value : Json) (rest : Octets) : ordered shape [(name, value)] rest = .ok [value] := by
  simp [ordered, fields, bind, Except.bind, pure, Except.pure]

theorem record_of_fieldMembers {shape : Shape} {fuel allowed : Nat} {input inside rest : Octets}
    {given : List (String × Json)} {fields : List Json}
    (start : afterSpace input = octet '\x7b' :: inside) (deep : 1 < allowed)
    (members : fieldMembers shape (allowed - 1) fuel true [] inside = .ok (given, rest))
    (order : ordered shape given rest = .ok fields) :
    record shape fuel allowed input = .ok (fields, rest) := by
  rw [record, start]
  simp only [if_true, if_neg (Nat.not_le.mpr deep), members, bind, Except.bind, order]

/-- An object that holds a list is read as a record of this list. -/
theorem HoldsList.readRecord {name : String} (holds : HoldsList name depth cs items)
    (deep : depth + 1 < usualDepth) {shape : Shape} (fields : shape.fields = [(name, .list)]) :
    readRecord shape (Octets.ofChars cs) = .ok [.array items] := by
  cases holds with
  | @object start finish before after member _ blanks blanks' named others found encodes =>
    generalize chars : bracketed '\x7b' '\x7d' ((before ++ member :: after).map Member.chars) = object
    have known : shape.fields.lookup member.name = some .list := by simp [fields, found]
    have unknown : ∀ other ∈ before ++ after, shape.fields.lookup other.name = none ∧
        ∃ depth, Encodes depth other.text other.value := by
      intro other listed
      obtain ⟨different, encodes⟩ := others other listed
      refine ⟨?_, encodes⟩
      rw [fields, SortedMap.lookup_cons_of_ne different, List.lookup_nil]
    have shorter := length_members_lt before after member
    rw [chars] at shorter
    have longer := Octets.length_le_length_ofChars (start ++ object ++ finish)
    rw [List.length_append, List.length_append] at longer
    have enough : (before ++ after).length + 2 * member.text.length + 1 <
        fuelFor (Octets.ofChars (start ++ object ++ finish)) := by
      rw [fuelFor]
      omega
    obtain ⟨inside, same, all⟩ := fieldMembers_object named unknown known encodes
      (show depth < usualDepth - 1 by omega) enough (Octets.ofChars finish)
    rw [chars] at same
    have input : afterSpace (Octets.ofChars (start ++ object ++ finish)) = octet '\x7b' :: inside := by
      rw [Octets.ofChars_append, Octets.ofChars_append, List.append_assoc, same,
        afterSpace_blanks_cons blanks (by decide)]
    rw [Json.readRecord, record_of_fieldMembers input (by decide) all (found ▸ ordered_list fields _ _)]
    rfl

end WorkflowKit.Json

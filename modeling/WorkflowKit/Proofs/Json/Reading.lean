import WorkflowKit.Json.Record
import WorkflowKit.Proofs.Except
import WorkflowKit.Proofs.Json.Writing
import WorkflowKit.Proofs.SortedMap

namespace WorkflowKit.Json

variable {negative : Bool} {significand : Nat} {n : JsonNumber} {input rest : Octets}

/-- Scaling by powers of ten stays within the format, or fails. -/
theorem fits_of_scaled {steps : Nat} {x y : Binary64} {exponent : Int} (fits : x.Fits)
    (reached : scaled steps x exponent = some y) : y.Fits := by
  induction steps generalizing x exponent with
  | zero => cases reached
  | succ steps ih =>
    rw [scaled] at reached
    split at reached
    · dsimp only at reached
      split at reached
      · exact Binary64.fits_of_mul reached
      · exact Binary64.fits_of_div reached
    · split at reached
      · exact Option.some.inj reached ▸ fits
      · split at reached
        · cases reached
        · obtain ⟨smaller, divided, others⟩ := Option.bind_eq_some_iff.mp reached
          exact ih (Binary64.fits_of_div divided) others

theorem fits_of_floatNumber {power : Int}
    (read : floatNumber negative significand power input = .ok (n, rest)) :
    (number n).Fits := by
  unfold floatNumber at read
  split at read
  · rename_i x reached
    cases read
    exact .float ((fits_of_scaled (Binary64.fits_ofNat significand) reached).withSign negative)
  · cases read

theorem fits_of_exponent {start : Int}
    (read : exponent negative significand start input = .ok (n, rest)) : (number n).Fits := by
  unfold exponent at read
  dsimp only at read
  split at read
  · cases read
  · split at read
    · split at read
      · exact fits_of_floatNumber read
      · split at read
        · cases read
        · cases read
          exact .float (Binary64.fits_zero negative)
    · cases read

theorem fits_of_afterDigits {power : Int}
    (read : afterDigits negative significand power input = .ok (n, rest)) : (number n).Fits := by
  unfold afterDigits at read
  split at read
  · exact fits_of_floatNumber read
  · split at read
    · exact fits_of_exponent read
    · exact fits_of_floatNumber read

theorem fits_of_fraction {power : Int}
    (read : fraction negative significand power input = .ok (n, rest)) : (number n).Fits := by
  unfold fraction at read
  dsimp only at read
  split at read
  · split at read <;> cases read
  · exact fits_of_afterDigits read

theorem fits_wholeNumber (negative : Bool) (significand : Nat) :
    (number (wholeNumber negative significand)).Fits := by
  unfold wholeNumber
  split
  · split
    · exact .float ((Binary64.fits_ofNat significand).withSign true)
    · exact .integer _
  · exact .integer _

/-- A number that is read is an integer, or a float of the format. -/
theorem fits_of_unsigned (read : unsigned negative input = .ok (n, rest)) : (number n).Fits := by
  unfold unsigned at read
  split at read
  · cases read
  · split at read
    · cases read
    · split at read
      · cases read
      · dsimp only at read
        split at read
        · split at read
          · cases read
            exact fits_wholeNumber _ _
          · exact fits_of_floatNumber read
        · split at read
          · exact fits_of_fraction read
          · split at read
            · exact fits_of_exponent read
            · split at read
              · cases read
                exact fits_wholeNumber _ _
              · exact fits_of_floatNumber read

theorem fits_of_word {value read : Json} (fits : value.Fits) {cs : List Char}
    (found : word value cs input = .ok (read, rest)) : read.Fits := by
  induction cs generalizing input with
  | nil =>
    cases found
    exact fits
  | cons c cs ih =>
    cases input with
    | nil => cases found
    | cons b input =>
      rw [word] at found
      split at found
      · exact ih found
      · cases found

theorem fits_ofMembers {members : List (String × Json)} (fits : ∀ member ∈ members, member.2.Fits) :
    (ofMembers members).Fits :=
  .object fun _ member => fits _ (SortedMap.mem_of_mem_ofList member)

/-- What holds of the values that the readers return, with so much fuel. -/
structure ReadsFit (fuel : Nat) : Prop where
  value : ∀ {depth input read rest}, value fuel depth input = .ok (read, rest) → read.Fits
  items : ∀ {depth index input read rest},
    items fuel depth index input = .ok (read, rest) → ∀ item ∈ read, item.Fits
  members : ∀ {depth first input read rest},
    members fuel depth first input = .ok (read, rest) → ∀ member ∈ read, member.2.Fits

theorem readsFit_zero : ReadsFit 0 where
  value found := by
    rw [Json.value] at found
    cases found
  items found := by
    rw [Json.items] at found
    cases found
  members found := by
    rw [Json.members] at found
    cases found

/-- One more level: values have numbers of the format if their parts do. -/
theorem ReadsFit.succ {fuel : Nat} (reads : ReadsFit fuel) : ReadsFit (fuel + 1) where
  value := by
    intro depth input read rest found
    rw [Json.value] at found
    split at found
    · cases found
    · split_ifs at found
      -- One case for each character with which a value may begin, in the order of the reader.
      · exact fits_of_word .null found
      · exact fits_of_word (.bool true) found
      · exact fits_of_word (.bool false) found
      · obtain ⟨⟨n, after⟩, number, same⟩ := Except.map_eq_ok_iff.mp found
        cases same
        exact fits_of_unsigned number
      · obtain ⟨⟨n, after⟩, number, same⟩ := Except.map_eq_ok_iff.mp found
        cases same
        exact fits_of_unsigned number
      · obtain ⟨⟨s, after⟩, text, same⟩ := Except.map_eq_ok_iff.mp found
        cases same
        exact .text s
      · cases found
      · obtain ⟨⟨values, after⟩, inside, same⟩ := Except.map_eq_ok_iff.mp found
        cases same
        exact .array (reads.items inside)
      · cases found
      · obtain ⟨⟨entries, after⟩, inside, same⟩ := Except.map_eq_ok_iff.mp found
        cases same
        exact fits_ofMembers (reads.members inside)
      · cases found
  items := by
    intro depth index input read rest found
    rw [Json.items] at found
    obtain ⟨⟨more, after⟩, _, found⟩ := Except.bind_eq_ok_iff.mp found
    dsimp only at found
    split at found
    · obtain ⟨⟨item, after⟩, first, found⟩ := Except.bind_eq_ok_iff.mp found
      obtain ⟨⟨others, after⟩, later, found⟩ := Except.bind_eq_ok_iff.mp found
      cases found
      exact List.forall_mem_cons.mpr
        ⟨reads.value (Except.mapError_eq_ok_iff.mp first), reads.items later⟩
    · cases found
      exact List.forall_mem_nil _
  members := by
    intro depth first input read rest found
    rw [Json.members] at found
    obtain ⟨⟨name, after⟩, _, found⟩ := Except.bind_eq_ok_iff.mp found
    dsimp only at found
    split at found
    · obtain ⟨⟨item, after⟩, first, found⟩ := Except.bind_eq_ok_iff.mp found
      obtain ⟨⟨others, after⟩, later, found⟩ := Except.bind_eq_ok_iff.mp found
      obtain ⟨_, _, first⟩ := Except.bind_eq_ok_iff.mp (Except.mapError_eq_ok_iff.mp first)
      cases found
      exact List.forall_mem_cons.mpr ⟨reads.value first, reads.members later⟩
    · cases found
      exact List.forall_mem_nil _

/-- All numbers that are read are of the format, by induction on what is left to read. -/
theorem readsFit (fuel : Nat) : ReadsFit fuel := by
  induction fuel with
  | zero => exact readsFit_zero
  | succ fuel ih => exact ih.succ

theorem fits_of_readFirst {read : Json} (found : readFirst input = .ok read) : read.Fits := by
  obtain ⟨⟨value, rest⟩, inside, same⟩ :=
    Except.map_eq_ok_iff.mp (Except.mapError_eq_ok_iff.mp found)
  cases same
  exact (readsFit _).value inside

/-- A check of a type lets a value pass or refuses it, and never changes it. -/
theorem check_eq_ok {type : FieldType} {value checked : Json}
    (found : check type value = .ok checked) : checked = value := by
  unfold check at found
  split at found
  all_goals try exact (Except.ok.inj found).symm
  · split at found
    · exact (Except.ok.inj found).symm
    · cases found
  · split at found
    · exact (Except.ok.inj found).symm
    · cases found
  · cases found

theorem fits_of_field {fuel depth : Nat} {type : FieldType} {read : Json}
    (found : field fuel depth type input = .ok (read, rest)) : read.Fits := by
  unfold field at found
  dsimp only at found
  split at found
  · cases found
  · obtain ⟨⟨value, after⟩, inside, found⟩ := Except.bind_eq_ok_iff.mp found
    dsimp only at found
    split at found
    · rename_i checked same
      cases found
      exact check_eq_ok same ▸ (readsFit fuel).value inside
    · cases found

theorem fits_of_fieldMembers {shape : Shape} {depth fuel : Nat} {first : Bool}
    {given read : List (String × Json)} (fits : ∀ member ∈ given, member.2.Fits)
    (found : fieldMembers shape depth fuel first given input = .ok (read, rest)) :
    ∀ member ∈ read, member.2.Fits := by
  induction fuel generalizing first given input with
  | zero => cases found
  | succ fuel ih =>
    rw [fieldMembers] at found
    obtain ⟨⟨name, after⟩, _, found⟩ := Except.bind_eq_ok_iff.mp found
    dsimp only at found
    split at found
    · cases found
      exact fits
    · split at found
      · obtain ⟨after, _, found⟩ := Except.bind_eq_ok_iff.mp found
        exact ih fits found
      · split at found
        · cases found
        · obtain ⟨⟨value, after⟩, inside, found⟩ := Except.bind_eq_ok_iff.mp found
          obtain ⟨_, _, inside⟩ := Except.bind_eq_ok_iff.mp (Except.mapError_eq_ok_iff.mp inside)
          refine ih (List.forall_mem_append.mpr ⟨fits, ?_⟩) found
          simpa using fits_of_field inside

theorem FieldType.eq_null_of_missing? {type : FieldType} {value : Json}
    (missing : type.missing? = some value) : value = .null := by
  unfold missing? at missing
  split at missing
  · exact (Option.some.inj missing).symm
  · exact (Option.some.inj missing).symm
  · cases missing

theorem fits_of_ordered {shape : Shape} {given : List (String × Json)} {fields : List Json}
    (fits : ∀ member ∈ given, member.2.Fits) (found : ordered shape given input = .ok fields) :
    ∀ field ∈ fields, field.Fits := by
  have each := Except.mapM_eq_ok_iff.mp found
  clear found
  generalize shape.fields = expected at each
  induction each with
  | nil => exact List.forall_mem_nil _
  | @cons field value _ _ taken _ ih =>
    refine List.forall_mem_cons.mpr ⟨?_, ih⟩
    dsimp only at taken
    split at taken
    · rename_i value' given'
      cases taken
      obtain ⟨before, after, rfl, _⟩ := List.lookup_eq_some_iff.mp given'
      exact fits (field.1, value) (by simp)
    · split at taken
      · rename_i value' missing
        cases taken
        rw [FieldType.eq_null_of_missing? missing]
        exact .null
      · cases taken

theorem fits_of_fieldItems {shape : Shape} {depth fuel index : Nat}
    {fields : List (String × FieldType)} {read : List Json}
    (found : fieldItems shape depth fuel index fields input = .ok (read, rest)) :
    ∀ item ∈ read, item.Fits := by
  induction fields generalizing index input read with
  | nil =>
    obtain ⟨_, _, same⟩ := Except.map_eq_ok_iff.mp found
    cases same
    exact List.forall_mem_nil _
  | cons field fields ih =>
    rw [fieldItems] at found
    obtain ⟨⟨more, after⟩, _, found⟩ := Except.bind_eq_ok_iff.mp found
    dsimp only at found
    split at found
    · obtain ⟨⟨value, after⟩, first, found⟩ := Except.bind_eq_ok_iff.mp found
      obtain ⟨⟨others, after⟩, later, found⟩ := Except.bind_eq_ok_iff.mp found
      cases found
      exact List.forall_mem_cons.mpr
        ⟨fits_of_field (Except.mapError_eq_ok_iff.mp first), ih later⟩
    · cases found

/-- The fields of a record have numbers of the format, those that are missing included. -/
theorem fits_of_readRecord {shape : Shape} {fields : List Json}
    (found : readRecord shape input = .ok fields) : ∀ field ∈ fields, field.Fits := by
  obtain ⟨⟨read, rest⟩, inside, same⟩ :=
    Except.map_eq_ok_iff.mp (Except.mapError_eq_ok_iff.mp found)
  cases same
  unfold record at inside
  dsimp only at inside
  split at inside
  · cases inside
  · split at inside
    · split at inside
      · cases inside
      · obtain ⟨⟨given, after⟩, members, inside⟩ := Except.bind_eq_ok_iff.mp inside
        obtain ⟨fields, order, inside⟩ := Except.bind_eq_ok_iff.mp inside
        cases inside
        exact fits_of_ordered (fits_of_fieldMembers (List.forall_mem_nil _) members) order
    · split at inside
      · split at inside
        · cases inside
        · exact fits_of_fieldItems inside
      · obtain ⟨_, _, inside⟩ := Except.bind_eq_ok_iff.mp inside
        cases inside

end WorkflowKit.Json

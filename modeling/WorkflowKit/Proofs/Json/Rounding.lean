import WorkflowKit.Proofs.Json.Printing
import WorkflowKit.Proofs.Json.Unambiguous

namespace WorkflowKit.Json

/-- The exact value of a number without its sign. -/
def Literal.magnitude (literal : Literal) : ℚ :=
  Text.digitsValue (literal.whole ++ literal.fraction) *
    10 ^ (literal.exponent.getD 0 - literal.fraction.length)

/-- Holds of the text of a number and the number that it stands for: an integer of 64 bits is exact, and
all others are rounded to the nearest number of the format. -/
inductive Rounded : List Char → JsonNumber → Prop
  | integer {cs : List Char} {n : JsonNumber} : Integral cs n → Rounded cs n
  | float {literal : Literal} {cs : List Char} {x : Binary64} :
      literal.Writes cs → (∀ n, ¬ Integral cs n) → x.Canonical → x.negative = literal.negative →
        x.IsNearest literal.magnitude → Rounded cs (.float x)

theorem ExponentText.head {exponent : Option Int} {text : List Char}
    (writes : ExponentText exponent text) : ∀ c ∈ text.head?, c = 'e' ∨ c = 'E' := by
  cases writes with
  | none => exact nofun
  | some marks => exact fun c first => Option.some.inj first ▸ marks

theorem ExponentText.not_digit {exponent : Option Int} {text : List Char}
    (writes : ExponentText exponent text) : ∀ c ∈ text.head?, c.isDigit = false := by
  intro c first
  rcases writes.head c first with rfl | rfl <;> decide

/-- A text tells its exponent, and whether it has one. -/
theorem ExponentText.unique {exponent exponent' : Option Int} {text : List Char}
    (writes : ExponentText exponent text) (writes' : ExponentText exponent' text) :
    exponent = exponent' := by
  have signs : ∀ sign ∈ exponentSigns, ∀ c ∈ sign.1, (!c.isDigit) = true := by
    simp [exponentSigns]
  have signed_inj : ∀ sign ∈ exponentSigns, ∀ sign' ∈ exponentSigns, sign.1 = sign'.1 →
      sign = sign' := by decide
  have digit {ds : List Char} (digits : Digits ds) : ∀ c ∈ ds.head?, (!c.isDigit) = false :=
    fun c first => by rw [digits.all c (List.mem_of_head? first), Bool.not_true]
  cases writes with
  | none =>
    cases writes' with
    | none => rfl
  | @some mark sign ds below _ signed digits =>
    generalize written : mark :: (sign ++ ds) = text at writes'
    cases writes' with
    | none => cases written
    | @some mark' sign' ds' below' _ signed' digits' =>
      obtain ⟨same, rfl⟩ := List.eq_of_runs (signs _ signed) (signs _ signed') (digit digits)
        (digit digits') (List.cons.inj written).2
      obtain ⟨rfl, rfl⟩ := Prod.mk.inj (signed_inj _ signed _ signed' same)
      rfl

/-- A fraction and an exponent can be told from the text after the whole digits. -/
theorem fraction_unique {fs fs' fraction fraction' text text' : List Char}
    {exponent exponent' : Option Int} (fractional : FractionText fs fraction)
    (fractional' : FractionText fs' fraction') (exponential : ExponentText exponent text)
    (exponential' : ExponentText exponent' text') (same : fraction ++ text = fraction' ++ text') :
    fs = fs' ∧ exponent = exponent' := by
  have noPoint {exponent : Option Int} {text rest : List Char}
      (exponential : ExponentText exponent text) : text ≠ '.' :: rest := by
    rintro rfl
    exact absurd (exponential.head '.' rfl) (by decide)
  cases fractional with
  | none =>
    cases fractional' with
    | none =>
      obtain rfl : text = text' := same
      exact ⟨rfl, exponential.unique exponential'⟩
    | some => exact absurd same (noPoint exponential)
  | some digits =>
    cases fractional' with
    | none => exact absurd same.symm (noPoint exponential')
    | some digits' =>
      obtain ⟨rfl, rfl⟩ := List.eq_of_runs digits.all digits'.all exponential.not_digit
        exponential'.not_digit (List.cons.inj same).2
      exact ⟨rfl, exponential.unique exponential'⟩

namespace Literal

/-- The digits of a literal can be told from its text: the point and the mark of the exponent part
them. -/
theorem WritesMagnitude.unique {literal literal' : Literal} {cs : List Char}
    (sign : literal.negative = literal'.negative) (writes : literal.WritesMagnitude cs)
    (writes' : literal'.WritesMagnitude cs) : literal = literal' := by
  obtain ⟨negative, ds, fs, e⟩ := literal
  obtain ⟨negative', ds', fs', e'⟩ := literal'
  have noDigit {fs fraction text : List Char} {exponent : Option Int}
      (fractional : FractionText fs fraction) (exponential : ExponentText exponent text) :
      ∀ c ∈ (fraction ++ text).head?, c.isDigit = false := by
    cases fractional with
    | none => exact exponential.not_digit
    | some => exact fun c first => Option.some.inj first ▸ by decide
  cases writes with
  | @parts fraction text whole fractional exponential =>
    generalize written : ds ++ (fraction ++ text) = cs at writes'
    cases writes' with
    | @parts fraction' text' whole' fractional' exponential' =>
      obtain rfl : negative = negative' := sign
      obtain ⟨rfl, tail⟩ := List.eq_of_runs whole.all whole'.all (noDigit fractional exponential)
        (noDigit fractional' exponential') written
      obtain ⟨rfl, rfl⟩ := fraction_unique fractional fractional' exponential exponential' tail
      rfl

theorem WritesMagnitude.head {literal : Literal} {cs : List Char}
    (writes : literal.WritesMagnitude cs) : ∃ d ds, cs = d :: ds ∧ d.isDigit := by
  cases writes with
  | parts whole =>
    obtain ⟨d, ds, same⟩ := List.exists_cons_of_ne_nil whole.nonempty
    exact ⟨d, _, by rw [same]; rfl, whole.all d (same ▸ List.mem_cons_self)⟩

/-- The parts of a number can be told from its text. -/
theorem Writes.unique {literal literal' : Literal} {cs : List Char}
    (writes : literal.Writes cs) (writes' : literal'.Writes cs) : literal = literal' := by
  obtain ⟨magnitude, first, rfl⟩ := writes
  obtain ⟨magnitude', second, same⟩ := writes'
  obtain ⟨d, ds, rfl, digit⟩ := first.head
  obtain ⟨d', ds', rfl, digit'⟩ := second.head
  cases sign : literal.negative <;> cases sign' : literal'.negative <;>
    simp only [sign, sign', if_true, if_false, Bool.false_eq_true] at same
  · exact first.unique (sign.trans sign'.symm) (same ▸ second)
  · exact absurd ((List.cons.inj same).1 ▸ digit) (by decide)
  · exact absurd ((List.cons.inj same).1 ▸ digit') (by decide)
  · exact first.unique (sign.trans sign'.symm) ((List.cons.inj same).2 ▸ second)

end Literal

theorem isStop_eq_false {c : Char} (plain : c.isDigit ∨ c ∈ ['-', '+', '.', 'e', 'E']) :
    isStop c = false := by
  have each : ∀ d ∈ [' ', '\n', '\t', '\r', ',', ']', '\x7d'], d.isDigit = false ∧
      d ∉ ['-', '+', '.', 'e', 'E'] := by simp
  refine Bool.eq_false_of_not_eq_true fun stop => ?_
  have listed : c ∈ [' ', '\n', '\t', '\r'] ++ [',', ']', '\x7d'] := by
    rw [isStop, isBlank, Bool.or_eq_true, List.contains_iff_mem, List.contains_iff_mem] at stop
    exact List.mem_append.mpr stop
  obtain ⟨notDigit, notListed⟩ := each c listed
  rcases plain with digit | listed'
  · exact Bool.false_ne_true (notDigit.symm.trans digit)
  · exact notListed listed'

namespace Literal

theorem WritesMagnitude.plain {literal : Literal} {cs : List Char}
    (writes : literal.WritesMagnitude cs) :
    ∀ c ∈ cs, c.isDigit ∨ c ∈ ['-', '+', '.', 'e', 'E'] := by
  obtain ⟨negative, ds, fs, e⟩ := literal
  have digits {ds : List Char} (digits : ∀ d ∈ ds, d.isDigit) :
      ∀ c ∈ ds, c.isDigit ∨ c ∈ ['-', '+', '.', 'e', 'E'] := fun c member => Or.inl (digits c member)
  cases writes with
  | @parts fraction text whole fractional exponential =>
    refine List.forall_mem_append.mpr ⟨digits whole.all, List.forall_mem_append.mpr ⟨?_, ?_⟩⟩
    · cases fractional with
      | none => exact List.forall_mem_nil _
      | some inside => exact List.forall_mem_cons.mpr ⟨Or.inr (by decide), digits inside.all⟩
    · cases exponential with
      | none => exact List.forall_mem_nil _
      | some marks signed inside =>
        have signs : ∀ sign ∈ exponentSigns, ∀ c ∈ sign.1, c ∈ ['-', '+', '.', 'e', 'E'] := by
          simp [exponentSigns]
        refine List.forall_mem_cons.mpr ⟨Or.inr ?_, List.forall_mem_append.mpr
          ⟨fun c member => Or.inr (signs _ signed c member), digits inside.all⟩⟩
        rcases marks with rfl | rfl <;> decide

theorem Writes.plain {literal : Literal} {cs : List Char} (writes : literal.Writes cs) :
    ∀ c ∈ cs, c.isDigit ∨ c ∈ ['-', '+', '.', 'e', 'E'] := by
  obtain ⟨magnitude, writes, rfl⟩ := writes
  split
  · exact List.forall_mem_cons.mpr ⟨Or.inr (by decide), writes.plain⟩
  · exact writes.plain

theorem Writes.head {literal : Literal} {cs : List Char} (writes : literal.Writes cs) :
    ∃ c rest, cs = c :: rest ∧ (c = '-' ∨ c.isDigit) := by
  obtain ⟨magnitude, writes, rfl⟩ := writes
  split
  · exact ⟨'-', magnitude, rfl, Or.inl rfl⟩
  · obtain ⟨d, ds, same, digit⟩ := writes.head
    exact ⟨d, ds, same, Or.inr digit⟩

end Literal

namespace Rounded

variable {cs : List Char} {n m : JsonNumber}

theorem writes (rounded : Rounded cs n) : ∃ literal : Literal, literal.Writes cs := by
  cases rounded with
  | integer integral => exact integral.numeral.imp fun _ => And.left
  | float writes => exact ⟨_, writes⟩

/-- A text stands for one number. -/
theorem unique (rounded : Rounded cs n) (rounded' : Rounded cs m) : n = m := by
  cases rounded with
  | integer integral =>
    cases rounded' with
    | integer integral' =>
      have encodes {n : JsonNumber} (integral : Integral cs n) : Encodes 0 cs (.number n) :=
        encodes_iff_spelled.mpr (.number integral)
      exact Json.number.inj ((encodes integral).unique (encodes integral'))
    | float _ other => exact absurd integral (other _)
  | @float literal _ x writes other canonical sign nearest =>
    cases rounded' with
    | integer integral => exact absurd integral (other _)
    | @float literal' _ y writes' _ canonical' sign' nearest' =>
      obtain rfl := writes.unique writes'
      obtain ⟨significand, exponent⟩ := nearest.unique canonical canonical' nearest'
      obtain ⟨negative, _, _⟩ := x
      obtain ⟨negative', _, _⟩ := y
      obtain rfl : negative = negative' := sign.trans sign'.symm
      obtain rfl := significand
      obtain rfl := exponent
      rfl

/-- No text of a number is rounded to two numbers, as no two are nearest to it. -/
theorem distinct : Distinct Rounded where
  begins rounded := by
    obtain ⟨literal, writes⟩ := rounded.writes
    exact writes.head
  inside rounded := by
    obtain ⟨literal, writes⟩ := rounded.writes
    exact fun c member => isStop_eq_false (writes.plain c member)
  unique := unique

end Rounded

/-- Holds of the numbers that are read: integers of 64 bits and numbers of the format. -/
def IsStored : JsonNumber → Prop
  | .integer n => -2 ^ 63 ≤ n ∧ n < 2 ^ 64
  | .float x => x.Canonical

theorem powerOfTen_ne_zero : ∀ n ≤ 308, (powerOfTen n).significand ≠ 0 := by
  decide +kernel

theorem canonical_of_scaled {steps : Nat} {x y : Binary64} {exponent : Int}
    (canonical : x.Canonical) (reached : scaled steps x exponent = some y) : y.Canonical := by
  induction steps generalizing x exponent with
  | zero => cases reached
  | succ steps ih =>
    rw [scaled] at reached
    split at reached
    · rename_i within
      dsimp only at reached
      split at reached
      · exact Binary64.canonical_of_mul reached
      · exact Binary64.canonical_of_div (powerOfTen_ne_zero _ within) reached
    · split at reached
      · exact Option.some.inj reached ▸ canonical
      · split at reached
        · cases reached
        · obtain ⟨smaller, divided, others⟩ := Option.bind_eq_some_iff.mp reached
          exact ih (Binary64.canonical_of_div (powerOfTen_ne_zero _ (le_refl _)) divided) others

theorem canonical_of_shifted {significand : Nat} {start : Int} {exponent : Option Int} {x : Binary64}
    (reached : Literal.shifted significand start exponent = some x) : x.Canonical := by
  unfold Literal.shifted at reached
  dsimp only at reached
  split at reached
  · exact canonical_of_scaled (Binary64.canonical_ofNat significand) reached
  · split at reached
    · cases reached
    · exact Option.some.inj reached ▸ Binary64.canonical_zero false

theorem isStored_wholeNumber {negative : Bool} {significand : Nat} (small : significand < 2 ^ 64) :
    IsStored (wholeNumber negative significand) := by
  unfold wholeNumber
  have limit : Nat.pow 2 63 = 2 ^ 63 := rfl
  split
  · split
    · exact (Binary64.canonical_ofNat significand).withSign true
    · exact ⟨by omega, by omega⟩
  · exact ⟨by omega, by omega⟩

theorem Numeral.isStored {cs : List Char} {n : JsonNumber} (numeral : Numeral cs n) : IsStored n := by
  obtain ⟨literal, _, found⟩ := numeral
  unfold Literal.number? at found
  split at found
  · rename_i whole
    exact Option.some.inj found ▸ isStored_wholeNumber whole.2
  · obtain ⟨x, read, rfl⟩ := Option.map_eq_some_iff.mp found
    exact (canonical_of_shifted read).withSign literal.negative

theorem exponentText_writes (d : Decimal) : ExponentText (some (d.point - 1)) d.exponentText := by
  have value := digitsValue_decimalDigits (d.point - 1).natAbs
  unfold Decimal.exponentText
  split
  · rename_i below
    have text : ExponentText _ ('e' :: (['-'] ++ decimalDigits (d.point - 1).natAbs)) :=
      .some (Or.inl rfl) (by decide : (['-'], true) ∈ exponentSigns) (digits_decimalDigits _)
    have number : (if true then -(Text.digitsValue (decimalDigits (d.point - 1).natAbs) : Int)
        else Text.digitsValue (decimalDigits (d.point - 1).natAbs)) = d.point - 1 := by
      rw [value, if_pos rfl]
      omega
    rwa [number] at text
  · rename_i above
    have text : ExponentText _ ('e' :: (['+'] ++ decimalDigits (d.point - 1).natAbs)) :=
      .some (Or.inl rfl) (by decide : (['+'], false) ∈ exponentSigns) (digits_decimalDigits _)
    have number : (if false then -(Text.digitsValue (decimalDigits (d.point - 1).natAbs) : Int)
        else Text.digitsValue (decimalDigits (d.point - 1).natAbs)) = d.point - 1 := by
      rw [value, if_neg Bool.false_ne_true]
      omega
    rwa [number] at text

theorem Integral.plain {cs : List Char} {n : JsonNumber} (integral : Integral cs n) :
    ∀ c ∈ cs, c.isDigit ∨ c = '-' := by
  cases integral with
  | natural whole => exact fun c member => Or.inl (whole.all c member)
  | negative whole =>
    exact List.forall_mem_cons.mpr ⟨Or.inr rfl, fun c member => Or.inl (whole.all c member)⟩

namespace Literal

/-- A number with a point or an exponent is no integer. -/
theorem Writes.not_integral {literal : Literal} {cs : List Char} (writes : literal.Writes cs)
    (part : ¬ literal.IsWhole) (n : JsonNumber) : ¬ Integral cs n := by
  intro integral
  obtain ⟨magnitude, parts, rfl⟩ := writes
  have plain : ∀ c ∈ magnitude, c.isDigit ∨ c = '-' := by
    intro c member
    refine integral.plain c ?_
    split
    · exact List.mem_cons_of_mem _ member
    · exact member
  obtain ⟨negative, ds, fs, e⟩ := literal
  cases parts with
  | @parts fraction exponent whole fractional exponential =>
    dsimp only at whole fractional exponential plain
    cases fractional with
    | some digits => exact absurd (plain '.' (by simp)) (by decide)
    | none =>
      cases exponential with
      | none => exact part ⟨rfl, rfl⟩
      | @some mark _ _ _ marks =>
        have member := plain mark (by simp)
        rcases marks with rfl | rfl <;> exact absurd member (by decide)

end Literal

/-- The parts of the shortest decimal of a number, as it is laid out. -/
theorem written_magnitude {x : Binary64} (fits : x.Fits) (negative : Bool) :
    ∃ whole fraction exponent, let literal : Literal := ⟨negative, whole, fraction, exponent⟩
      literal.WritesMagnitude (if -5 < x.shortest.point ∧ x.shortest.point ≤ 16
          then x.shortest.positional else x.shortest.scientific) ∧
        ¬ literal.IsWhole ∧ literal.magnitude = x.shortest.value := by
  split
  · obtain ⟨whole, fraction, parts, text⟩ :=
      Decimal.positional_parts (Binary64.shortest_normal fits)
    refine ⟨whole, fraction, none, ?_, fun both => parts.fraction.nonempty both.1, ?_⟩
    · rw [text]
      simpa using @Literal.WritesMagnitude.parts ⟨negative, whole, fraction, none⟩ _ _ parts.whole
        (.some parts.fraction) .none
    · rw [← parts.magnitude]
      simp [Literal.magnitude]
  · obtain ⟨whole, fraction, text, first, second, written, value⟩ :=
      Decimal.scientific_parts x.shortest
    refine ⟨whole, fraction, some (x.shortest.point - 1), ?_, nofun, ?_⟩
    · rw [written]
      exact .parts first second (exponentText_writes _)
    · rw [← value]
      rfl

/-- The shortest decimal of a number is rounded to this number. -/
theorem rounded_written {x : Binary64} (canonical : x.Canonical) : Rounded x.written (.float x) := by
  obtain ⟨whole, fraction, exponent, magnitude, part, value⟩ :=
    written_magnitude canonical.toFits x.negative
  have writes : (⟨x.negative, whole, fraction, exponent⟩ : Literal).Writes x.written :=
    ⟨_, magnitude, rfl⟩
  exact .float writes (writes.not_integral part) canonical rfl
    (value ▸ Binary64.isNearest_shortest canonical)

theorem rounded_numberChars {n : JsonNumber} (stored : IsStored n) : Rounded (numberChars n) n := by
  cases n with
  | integer => exact .integer (integral_decimalInt stored.1 stored.2)
  | float => exact rounded_written stored

/-- Holds of a text and the value that it stands for. -/
def StandsFor (cs : List Char) (v : Json) : Prop :=
  ∃ depth, Spelled Rounded depth cs v

/-- The text that is written for a value that was read stands for this value alone. -/
theorem IsText.standsFor_iff {cs : List Char} {v : Json} (isText : IsText cs v) (w : Json) :
    StandsFor v.chars w ↔ w = v := by
  obtain ⟨depth, _, spelled⟩ := isText
  have ordered : Ordered IsStored depth v := spelled.ordered fun _ _ => Numeral.isStored
  have written : Spelled Rounded depth v.chars v := ordered.spelled fun _ => rounded_numberChars
  refine ⟨fun ⟨_, spelled'⟩ => spelled'.unique Rounded.distinct written, ?_⟩
  rintro rfl
  exact ⟨depth, written⟩

end WorkflowKit.Json

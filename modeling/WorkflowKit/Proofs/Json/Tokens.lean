import WorkflowKit.Proofs.Json.Spelling
import WorkflowKit.Proofs.Json.Texts
import Mathlib.Data.Bool.AllAny
import Mathlib.Data.List.DropRight

namespace WorkflowKit.Json

theorem isSpace_of_blank {c : Char} (blank : c ∈ [' ', '\n', '\t', '\r']) :
    c.toNat < 0x80 ∧ isSpace (octet c) := by
  have each : ∀ c ∈ [' ', '\n', '\t', '\r'], c.toNat < 0x80 ∧ isSpace (octet c) :=
    List.all_iff_forall_prop.mp (by decide)
  exact each c blank

theorem Blanks.append {cs ds : List Char} (first : Blanks cs) (second : Blanks ds) :
    Blanks (cs ++ ds) :=
  List.forall_mem_append.mpr ⟨first, second⟩

theorem afterSpace_blanks {before : List Char} (blanks : Blanks before) (rest : Octets) :
    afterSpace (Octets.ofChars before ++ rest) = afterSpace rest := by
  induction before with
  | nil => rfl
  | cons c cs ih =>
    obtain ⟨blank, others⟩ := List.forall_mem_cons.mp blanks
    obtain ⟨ascii, space⟩ := isSpace_of_blank blank
    rw [ofChars_cons_of_ascii ascii, List.cons_append, ← ih others, afterSpace,
      List.dropWhile_cons_of_pos space]
    rfl

theorem afterSpace_of_not_isSpace {b : UInt8} (visible : ¬ isSpace b) (rest : Octets) :
    afterSpace (b :: rest) = b :: rest :=
  List.dropWhile_cons_of_neg visible

/-- Blanks before a visible octet are skipped. -/
theorem afterSpace_blanks_cons {before : List Char} (blanks : Blanks before) {b : UInt8}
    (visible : ¬ isSpace b) (rest : Octets) :
    afterSpace (Octets.ofChars before ++ b :: rest) = b :: rest := by
  rw [afterSpace_blanks blanks, afterSpace_of_not_isSpace visible]

theorem afterSpace_ofChars {blanks : List Char} (blank : Blanks blanks) :
    afterSpace (Octets.ofChars blanks) = [] := by
  rw [← List.append_nil (Octets.ofChars blanks), afterSpace_blanks blank]
  rfl

theorem afterSpace_afterSpace (input : Octets) : afterSpace (afterSpace input) = afterSpace input :=
  List.dropWhile_idempotent _ _

/-- A value is read from its first octet that is no blank. -/
theorem value_afterSpace (fuel depth : Nat) (input : Octets) :
    value (fuel + 1) depth (afterSpace input) = value (fuel + 1) depth input := by
  rw [value, value, afterSpace_afterSpace]

/-- Holds of the octets that may follow a value: they do not go on with a number. -/
def Closed (rest : Octets) : Prop :=
  ∀ b ∈ rest.head?, ¬ isDigit b ∧ b ≠ octet '.' ∧ ¬ startsExponent b

theorem closed_nil : Closed [] := by
  intro b first
  cases first

theorem closed_cons {b : UInt8} (notDigit : ¬ isDigit b) (notPoint : b ≠ octet '.')
    (notExponent : ¬ startsExponent b) (rest : Octets) : Closed (b :: rest) := by
  intro c first
  cases first
  exact ⟨notDigit, notPoint, notExponent⟩

theorem digit_bounds {c : Char} (digit : c.isDigit) : 48 ≤ c.toNat ∧ c.toNat ≤ 57 := by
  simp only [Char.isDigit, Bool.and_eq_true, decide_eq_true_eq] at digit
  exact digit

theorem isDigit_of_digit {c : Char} (digit : c.isDigit) :
    c.toNat < 0x80 ∧ isDigit (octet c) ∧ digitValue (octet c) = c.toNat - 0x30 := by
  obtain ⟨least, most⟩ := digit_bounds digit
  have each : ∀ n < 0x80, 48 ≤ n → n ≤ 57 → isDigit (octet (Char.ofNat n)) ∧
      digitValue (octet (Char.ofNat n)) = n - 0x30 := by decide
  have found := each c.toNat (by omega) least most
  rw [Char.ofNat_toNat] at found
  exact ⟨by omega, found⟩

theorem ofChars_digits {ds : List Char} (digits : ∀ d ∈ ds, d.isDigit) :
    Octets.ofChars ds = ds.map octet := by
  induction ds with
  | nil => rfl
  | cons d ds ih =>
    obtain ⟨digit, others⟩ := List.forall_mem_cons.mp digits
    rw [ofChars_cons_of_ascii (isDigit_of_digit digit).1, ih others, List.map_cons]

theorem isDigit_of_mem_map {ds : List Char} (digits : ∀ d ∈ ds, d.isDigit) :
    ∀ b ∈ ds.map octet, isDigit b :=
  List.forall_mem_map.mpr fun d member => (isDigit_of_digit (digits d member)).2.1

/-- Holds of the octets that do not go on with digits. -/
def NoDigit (rest : Octets) : Prop :=
  ∀ b ∈ rest.head?, ¬ isDigit b

theorem Closed.noDigit {rest : Octets} (closed : Closed rest) : NoDigit rest :=
  fun b first => (closed b first).1

/-- A run of digits ends where the first other octet is. -/
theorem span_digits {ds : List Char} (digits : ∀ d ∈ ds, d.isDigit) {rest : Octets}
    (other : NoDigit rest) :
    (ds.map octet ++ rest).takeWhile isDigit = ds.map octet ∧
      (ds.map octet ++ rest).dropWhile isDigit = rest := by
  have each := isDigit_of_mem_map digits
  rw [List.takeWhile_append_of_pos each, List.dropWhile_append_of_pos each]
  cases rest with
  | nil => exact ⟨List.append_nil _, rfl⟩
  | cons b rest =>
    have notDigit := other b rfl
    rw [List.takeWhile_cons_of_neg notDigit, List.dropWhile_cons_of_neg notDigit, List.append_nil]
    exact ⟨rfl, rfl⟩

/-- No digit follows a zero at the start of a number. -/
theorem Whole.no_digit_after_zero {d : Char} {ds : List Char} (whole : Whole (d :: ds))
    {rest : Octets} (other : NoDigit rest) :
    ¬ (octet d = octet '0' ∧ ((ds.map octet ++ rest).head?.map isDigit).getD false = true) := by
  rintro ⟨zero, more⟩
  have isZero : d = '0' :=
    octet_inj (isDigit_of_digit (whole.all d List.mem_cons_self)).1 (by decide) zero
  have alone : ds = [] := List.tail_eq_of_cons_eq (whole.leading (isZero ▸ rfl))
  subst alone
  cases rest with
  | nil => cases more
  | cons b rest => exact other b rfl more

/-- The octets that a value may begin with. -/
def Opening (b : UInt8) : Prop :=
  b ∈ ['n', 't', 'f', '-', '"', '[', '\x7b'].map octet ∨ isDigit b

theorem special_of_isDigit {b : UInt8} (digit : isDigit b) :
    ¬ isSpace b ∧
      ∀ c ∈ ['n', 't', 'f', '-', '"', '[', ']', '\x7b', '\x7d', ','].map octet, b ≠ c := by
  have each : ∀ n < 0x100, isDigit (UInt8.ofNat n) → ¬ isSpace (UInt8.ofNat n) ∧
      ∀ c ∈ ['n', 't', 'f', '-', '"', '[', ']', '\x7b', '\x7d', ','].map octet,
        UInt8.ofNat n ≠ c := by
    decide +kernel
  have found := each b.toNat b.toNat_lt
  rw [UInt8.ofNat_toNat] at found
  exact found digit

theorem Opening.visible {b : UInt8} (opening : Opening b) :
    ¬ isSpace b ∧ b ≠ octet ']' ∧ b ≠ octet '\x7d' ∧ b ≠ octet ',' := by
  rcases opening with listed | digit
  · have each : ∀ b ∈ ['n', 't', 'f', '-', '"', '[', '\x7b'].map octet,
        ¬ isSpace b ∧ b ≠ octet ']' ∧ b ≠ octet '\x7d' ∧ b ≠ octet ',' :=
      List.all_iff_forall_prop.mp (by decide)
    exact each b listed
  · obtain ⟨visible, other⟩ := special_of_isDigit digit
    exact ⟨visible, other _ (by decide), other _ (by decide), other _ (by decide)⟩

/-- Holds of a text that begins with an octet, blanks apart. -/
def StartsWith (b : UInt8) (cs : List Char) : Prop :=
  ∃ before others, Blanks before ∧ Octets.ofChars cs = Octets.ofChars before ++ b :: others

theorem startsWith_cons {c : Char} (ascii : c.toNat < 0x80) (cs : List Char) :
    StartsWith (octet c) (c :: cs) :=
  ⟨[], Octets.ofChars cs, List.forall_mem_nil _, ofChars_cons_of_ascii ascii cs⟩

namespace StartsWith

variable {b : UInt8} {cs : List Char}

theorem blanks (starts : StartsWith b cs) {before : List Char} (first : Blanks before)
    (after : List Char) : StartsWith b (before ++ cs ++ after) := by
  obtain ⟨more, others, blanks, same⟩ := starts
  refine ⟨before ++ more, others ++ Octets.ofChars after, first.append blanks, ?_⟩
  rw [Octets.ofChars_append, Octets.ofChars_append, same, Octets.ofChars_append]
  simp only [List.append_assoc, List.cons_append]

theorem afterSpace (starts : StartsWith b cs) (visible : ¬ isSpace b) (rest : Octets) :
    ∃ others, afterSpace (Octets.ofChars cs ++ rest) = b :: others := by
  obtain ⟨before, others, blanks, same⟩ := starts
  refine ⟨others ++ rest, ?_⟩
  rw [same, List.append_assoc, List.cons_append, afterSpace_blanks_cons blanks visible]

theorem length_pos (starts : StartsWith b cs) : 0 < cs.length := by
  obtain ⟨before, others, _, same⟩ := starts
  refine List.length_pos_iff.mpr fun none => ?_
  rw [none, Octets.ofChars_nil] at same
  exact List.cons_ne_nil _ _ (List.append_eq_nil_iff.mp same.symm).2

end StartsWith

/-- Holds of a text that begins as a value does, blanks apart. -/
def Begins (cs : List Char) : Prop :=
  ∃ b, Opening b ∧ StartsWith b cs

namespace Begins

variable {cs : List Char}

theorem afterSpace (begins : Begins cs) (rest : Octets) :
    ∃ b others, Opening b ∧ afterSpace (Octets.ofChars cs ++ rest) = b :: others := by
  obtain ⟨b, opening, starts⟩ := begins
  obtain ⟨others, start⟩ := starts.afterSpace opening.visible.1 rest
  exact ⟨b, others, opening, start⟩

theorem length_pos (begins : Begins cs) : 0 < cs.length := by
  obtain ⟨b, _, starts⟩ := begins
  exact starts.length_pos

end Begins

theorem begins_digit {d : Char} (digit : d.isDigit) (others : List Char) : Begins (d :: others) := by
  obtain ⟨ascii, digit, _⟩ := isDigit_of_digit digit
  exact ⟨octet d, .inr digit, startsWith_cons ascii others⟩

theorem begins_listed {c : Char} (listed : c ∈ ['n', 't', 'f', '-', '"', '[', '\x7b'])
    (others : List Char) : Begins (c :: others) := by
  have each : ∀ c ∈ ['n', 't', 'f', '-', '"', '[', '\x7b'], c.toNat < 0x80 := by simp
  exact ⟨octet c, .inl (List.mem_map_of_mem listed), startsWith_cons (each c listed) others⟩

variable {numbers : List Char → JsonNumber → Prop} {depth : Nat} {cs : List Char} {v : Json}

/-- A spelled value begins with an opening octet if its numbers do. -/
theorem Spelled.begins (spelled : Spelled numbers depth cs v)
    (each : ∀ cs n, numbers cs n → Begins cs) : Begins cs := by
  induction spelled with
  | null => exact begins_listed (by decide) _
  | true => exact begins_listed (by decide) _
  | false => exact begins_listed (by decide) _
  | number stands => exact each _ _ stands
  | text quotes =>
    obtain ⟨body, rfl, _⟩ := quotes.read
    exact begins_listed (by decide) _
  | blanks first _ _ ih =>
    obtain ⟨b, opening, starts⟩ := ih
    exact ⟨b, opening, starts.blanks first _⟩
  | emptyList => exact begins_listed (by decide) _
  | list => exact begins_listed (by decide) _
  | emptyObject => exact begins_listed (by decide) _
  | object => exact begins_listed (by decide) _

end WorkflowKit.Json

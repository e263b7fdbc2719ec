import Mathlib.Data.List.Basic

namespace WorkflowKit.Json

structure Digits (ds : List Char) : Prop where
  nonempty : ds ≠ []
  all : ∀ d ∈ ds, d.isDigit

/-- The digits before a point: no zero stands before others. -/
structure Whole (ds : List Char) : Prop extends Digits ds where
  leading : ds.head? = some '0' → ds = ['0']

inductive Fraction : List Char → Prop
  | none : Fraction []
  | some {ds : List Char} : Digits ds → Fraction ('.' :: ds)

inductive Exponent : List Char → Prop
  | none : Exponent []
  | some {sign ds : List Char} :
      sign = [] ∨ sign = ['+'] ∨ sign = ['-'] → Digits ds → Exponent ('e' :: sign ++ ds)

inductive Magnitude : List Char → Prop
  | parts {whole fraction exponent : List Char} :
      Whole whole → Fraction fraction → Exponent exponent →
        Magnitude (whole ++ fraction ++ exponent)

inductive NumberForm : List Char → Prop
  | unsigned {cs : List Char} : Magnitude cs → NumberForm cs
  | negative {cs : List Char} : Magnitude cs → NumberForm ('-' :: cs)

/-- A character of a text as it is, or an escape. -/
inductive TextPart : List Char → Prop
  | plain {c : Char} : 0x20 ≤ c.toNat → c ≠ '"' → c ≠ '\\' → TextPart [c]
  | short {c : Char} : c ∈ ['"', '\\', '/', 'b', 'f', 'n', 'r', 't'] → TextPart ['\\', c]
  | number {ds : List Char} :
      ds.length = 4 → (∀ d ∈ ds, d ∈ "0123456789abcdefABCDEF".toList) →
        TextPart ('\\' :: 'u' :: ds)

inductive QuotedForm : List Char → Prop
  | parts (parts : List (List Char)) :
      (∀ part ∈ parts, TextPart part) → QuotedForm ('"' :: parts.flatten ++ ['"'])

inductive Compact : List Char → Prop
  | null : Compact ['n', 'u', 'l', 'l']
  | true : Compact ['t', 'r', 'u', 'e']
  | false : Compact ['f', 'a', 'l', 's', 'e']
  | number {cs : List Char} : NumberForm cs → Compact cs
  | text {cs : List Char} : QuotedForm cs → Compact cs
  | array (items : List (List Char)) :
      (∀ item ∈ items, Compact item) → Compact ('[' :: [','].intercalate items ++ [']'])
  | object (members : List (List Char × List Char)) :
      (∀ member ∈ members, QuotedForm member.1) → (∀ member ∈ members, Compact member.2) →
        Compact ('\x7b' ::
          [','].intercalate (members.map fun member => member.1 ++ ':' :: member.2) ++ ['\x7d'])

/-- Holds of texts without control characters of ASCII. -/
def Printable (cs : List Char) : Prop :=
  ∀ c ∈ cs, 0x20 ≤ c.toNat

theorem Printable.append {cs ds : List Char} (first : Printable cs) (second : Printable ds) :
    Printable (cs ++ ds) :=
  List.forall_mem_append.mpr ⟨first, second⟩

theorem Printable.cons {c : Char} {cs : List Char} (first : 0x20 ≤ c.toNat)
    (others : Printable cs) : Printable (c :: cs) :=
  List.forall_mem_cons.mpr ⟨first, others⟩

theorem Digits.printable {ds : List Char} (digits : Digits ds) : Printable ds := by
  intro d member
  have digit := digits.all d member
  simp only [Char.isDigit, Bool.and_eq_true, decide_eq_true_eq] at digit
  have least : 48 ≤ d.toNat := digit.1
  omega

theorem Fraction.printable {cs : List Char} (fraction : Fraction cs) : Printable cs := by
  cases fraction with
  | none => exact List.forall_mem_nil _
  | some digits => exact .cons (by decide) digits.printable

theorem Exponent.printable {cs : List Char} (exponent : Exponent cs) : Printable cs := by
  cases exponent with
  | none => exact List.forall_mem_nil _
  | some sign digits =>
    refine .cons (by decide) (.append ?_ digits.printable)
    rcases sign with rfl | rfl | rfl <;> simp [Printable]

theorem Magnitude.printable {cs : List Char} (magnitude : Magnitude cs) : Printable cs := by
  cases magnitude with
  | parts whole fraction exponent =>
    exact (whole.printable.append fraction.printable).append exponent.printable

theorem NumberForm.printable {cs : List Char} (form : NumberForm cs) : Printable cs := by
  cases form with
  | unsigned magnitude => exact magnitude.printable
  | negative magnitude => exact .cons (by decide) magnitude.printable

theorem TextPart.printable {cs : List Char} (part : TextPart cs) : Printable cs := by
  have short : Printable ['"', '\\', '/', 'b', 'f', 'n', 'r', 't'] := by simp [Printable]
  have hexadecimal : Printable "0123456789abcdefABCDEF".toList := by simp [Printable]
  cases part with
  | plain least => exact .cons least (List.forall_mem_nil _)
  | short letter => exact .cons (by decide) (.cons (short _ letter) (List.forall_mem_nil _))
  | number _ digits =>
    exact .cons (by decide) (.cons (by decide) fun d member => hexadecimal d (digits d member))

theorem QuotedForm.printable {cs : List Char} (form : QuotedForm cs) : Printable cs := by
  cases form with
  | parts parts each =>
    refine .cons (by decide) (.append (fun c member => ?_) (.cons (by decide) (List.forall_mem_nil _)))
    obtain ⟨part, member, inside⟩ := List.mem_flatten.mp member
    exact (each part member).printable c inside

theorem printable_intercalate {parts : List (List Char)} (each : ∀ part ∈ parts, Printable part) :
    Printable ([','].intercalate parts) := by
  induction parts with
  | nil => exact List.forall_mem_nil _
  | cons part parts ih =>
    obtain ⟨first, others⟩ := List.forall_mem_cons.mp each
    cases parts with
    | nil => simpa using first
    | cons next parts =>
      rw [List.intercalate_cons_cons]
      exact (first.append (.cons (by decide) (List.forall_mem_nil _))).append (ih others)

/-- A text without blanks between its parts has no control characters, as those in texts are
escaped. -/
theorem Compact.printable {cs : List Char} (compact : Compact cs) : Printable cs := by
  induction compact with
  | null => simp [Printable]
  | true => simp [Printable]
  | false => simp [Printable]
  | number form => exact form.printable
  | text form => exact form.printable
  | array items _ ih =>
    exact .cons (by decide) ((printable_intercalate ih).append (by simp [Printable]))
  | object members names _ ih =>
    refine .cons (by decide) (.append (printable_intercalate ?_) (by simp [Printable]))
    rw [List.forall_mem_map]
    intro member inside
    exact (names member inside).printable.append (.cons (by decide) (ih member inside))

end WorkflowKit.Json

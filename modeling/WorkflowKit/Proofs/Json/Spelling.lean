import WorkflowKit.Proofs.Json.Encoding
import WorkflowKit.Proofs.SortedMap

namespace WorkflowKit.Json

/-- The texts of integers of 64 bits. -/
inductive Integral : List Char → JsonNumber → Prop
  | natural {ds : List Char} :
      Whole ds → Text.digitsValue ds < 2 ^ 64 → Integral ds (.integer (Text.digitsValue ds))
  | negative {ds : List Char} :
      Whole ds → 0 < Text.digitsValue ds → Text.digitsValue ds ≤ 2 ^ 63 →
        Integral ('-' :: ds) (.integer (-Text.digitsValue ds))

/-- Holds of the integers of 64 bits. -/
def IsInteger : JsonNumber → Prop
  | .integer n => -2 ^ 63 ≤ n ∧ n < 2 ^ 64
  | .float _ => False

theorem Integral.isInteger {cs : List Char} {n : JsonNumber} (integral : Integral cs n) :
    IsInteger n := by
  cases integral with
  | natural whole small => exact ⟨by omega, by omega⟩
  | negative whole positive small => exact ⟨by omega, by omega⟩

/-- The digits after a point, if there is one. -/
inductive FractionText : List Char → List Char → Prop
  | none : FractionText [] []
  | some {ds : List Char} : Digits ds → FractionText ds ('.' :: ds)

/-- The signs of an exponent, and whether it is below zero. -/
def exponentSigns : List (List Char × Bool) :=
  [([], false), (['+'], false), (['-'], true)]

/-- An exponent, if there is one. -/
inductive ExponentText : Option Int → List Char → Prop
  | none : ExponentText none []
  | some {mark : Char} {sign ds : List Char} {below : Bool} :
      mark = 'e' ∨ mark = 'E' → (sign, below) ∈ exponentSigns → Digits ds →
        ExponentText (some (if below then -Text.digitsValue ds else Text.digitsValue ds))
          (mark :: (sign ++ ds))

/-- A number by the parts of its text. -/
structure Literal where
  negative : Bool
  whole : List Char
  fraction : List Char
  exponent : Option Int

namespace Literal

/-- Holds of the text of a number without its sign. -/
inductive WritesMagnitude (literal : Literal) : List Char → Prop
  | parts {fraction exponent : List Char} :
      Whole literal.whole → FractionText literal.fraction fraction →
        ExponentText literal.exponent exponent →
          WritesMagnitude literal (literal.whole ++ (fraction ++ exponent))

/-- Holds of the text of a number. -/
def Writes (literal : Literal) (cs : List Char) : Prop :=
  ∃ magnitude, literal.WritesMagnitude magnitude ∧
    cs = if literal.negative then '-' :: magnitude else magnitude

/-- Holds of numbers without a point and an exponent. -/
def IsWhole (literal : Literal) : Prop :=
  literal.fraction = [] ∧ literal.exponent = none

instance (literal : Literal) : Decidable literal.IsWhole :=
  inferInstanceAs (Decidable (_ ∧ _))

end Literal

/-- The texts that spell a value with lists and objects nested to a given depth. -/
inductive Spelled (numbers : List Char → JsonNumber → Prop) : Nat → List Char → Json → Prop
  | null {depth : Nat} : Spelled numbers depth ['n', 'u', 'l', 'l'] .null
  | true {depth : Nat} : Spelled numbers depth ['t', 'r', 'u', 'e'] (.bool true)
  | false {depth : Nat} : Spelled numbers depth ['f', 'a', 'l', 's', 'e'] (.bool false)
  | number {depth : Nat} {cs : List Char} {n : JsonNumber} :
      numbers cs n → Spelled numbers depth cs (.number n)
  | text {depth : Nat} {cs : List Char} {s : String} :
      Quotes s cs → Spelled numbers depth cs (.text s)
  | blanks {depth : Nat} {before cs after : List Char} {value : Json} :
      Blanks before → Spelled numbers depth cs value → Blanks after →
        Spelled numbers depth (before ++ cs ++ after) value
  | emptyList {depth : Nat} {inside : List Char} :
      Blanks inside → Spelled numbers (depth + 1) ('[' :: inside ++ [']']) (.array [])
  | list {depth : Nat} (items : List (List Char × Json)) :
      items ≠ [] → (∀ item ∈ items, Spelled numbers depth item.1 item.2) →
        Spelled numbers (depth + 1) (bracketed '[' ']' (items.map (·.1))) (.array (items.map (·.2)))
  | emptyObject {depth : Nat} {inside : List Char} :
      Blanks inside → Spelled numbers (depth + 1) ('\x7b' :: inside ++ ['\x7d']) (.object [])
  | object {depth : Nat} (members : List Member) :
      members ≠ [] → (∀ member ∈ members, member.IsNamed) →
        (∀ member ∈ members, Spelled numbers depth member.text member.value) →
          Spelled numbers (depth + 1) (bracketed '\x7b' '\x7d' (members.map Member.chars))
            (.ofMembers (members.map fun member => (member.name, member.value)))

/-- Holds of the values that such texts spell: the members of objects stand in ascending order, lists and
objects are nested to a given depth, and the numbers have a property. -/
inductive Ordered (numbers : JsonNumber → Prop) : Nat → Json → Prop
  | null {depth : Nat} : Ordered numbers depth .null
  | bool {depth : Nat} (value : Bool) : Ordered numbers depth (.bool value)
  | number {depth : Nat} {n : JsonNumber} : numbers n → Ordered numbers depth (.number n)
  | text {depth : Nat} (s : String) : Ordered numbers depth (.text s)
  | array {depth : Nat} {items : List Json} :
      (∀ item ∈ items, Ordered numbers depth item) → Ordered numbers (depth + 1) (.array items)
  | object {depth : Nat} {members : List (String × Json)} :
      members.Pairwise (fun a b => a.1 < b.1) →
        (∀ member ∈ members, Ordered numbers depth member.2) →
          Ordered numbers (depth + 1) (.object members)

variable {numbers others : List Char → JsonNumber → Prop} {depth : Nat} {cs : List Char} {v : Json}

namespace Spelled

theorem imp (each : ∀ cs n, numbers cs n → others cs n) (spelled : Spelled numbers depth cs v) :
    Spelled others depth cs v := by
  induction spelled with
  | null => exact .null
  | true => exact .true
  | false => exact .false
  | number stands => exact .number (each _ _ stands)
  | text quotes => exact .text quotes
  | blanks first _ last ih => exact .blanks first ih last
  | emptyList blanks => exact .emptyList blanks
  | list items nonempty _ ih => exact .list items nonempty ih
  | emptyObject blanks => exact .emptyObject blanks
  | object members nonempty named _ ih => exact .object members nonempty named ih

/-- A spelled value is ordered, with numbers that have texts. -/
theorem ordered {kind : JsonNumber → Prop} (each : ∀ cs n, numbers cs n → kind n)
    (spelled : Spelled numbers depth cs v) : Ordered kind depth v := by
  induction spelled with
  | null => exact .null
  | true => exact .bool _
  | false => exact .bool _
  | number stands => exact .number (each _ _ stands)
  | text => exact .text _
  | blanks _ _ _ ih => exact ih
  | emptyList => exact .array (List.forall_mem_nil _)
  | list items _ _ ih => exact .array (List.forall_mem_map.mpr ih)
  | emptyObject => exact .object .nil (List.forall_mem_nil _)
  | object members _ _ _ ih =>
    refine .object (SortedMap.ascending _) fun entry inside => ?_
    obtain ⟨member, listed, rfl⟩ := List.mem_map.mp (SortedMap.mem_of_mem_ofList inside)
    exact ih member listed

end Spelled

/-- The texts that encode a value are those that spell it with integers of 64 bits. -/
theorem encodes_iff_spelled : Encodes depth cs v ↔ Spelled Integral depth cs v := by
  refine ⟨fun encodes => ?_, fun spelled => ?_⟩
  · induction encodes with
    | null => exact .null
    | true => exact .true
    | false => exact .false
    | natural whole small => exact .number (.natural whole small)
    | negative whole positive small => exact .number (.negative whole positive small)
    | text quotes => exact .text quotes
    | blanks first _ last ih => exact .blanks first ih last
    | emptyList blanks => exact .emptyList blanks
    | list items nonempty _ ih => exact .list items nonempty ih
    | emptyObject blanks => exact .emptyObject blanks
    | object members nonempty named _ ih => exact .object members nonempty named ih
  · induction spelled with
    | null => exact .null
    | true => exact .true
    | false => exact .false
    | number stands =>
      cases stands with
      | natural whole small => exact .natural whole small
      | negative whole positive small => exact .negative whole positive small
    | text quotes => exact .text quotes
    | blanks first _ last ih => exact .blanks first ih last
    | emptyList blanks => exact .emptyList blanks
    | list items nonempty _ ih => exact .list items nonempty ih
    | emptyObject blanks => exact .emptyObject blanks
    | object members nonempty named _ ih => exact .object members nonempty named ih

theorem admitted_iff_ordered : Admitted depth v ↔ Ordered IsInteger depth v := by
  refine ⟨fun admitted => ?_, fun ordered => ?_⟩
  · induction admitted with
    | null => exact .null
    | bool value => exact .bool value
    | integer least most => exact .number ⟨least, most⟩
    | text s => exact .text s
    | array _ ih => exact .array ih
    | object ascending _ ih => exact .object ascending ih
  · induction ordered with
    | null => exact .null
    | bool value => exact .bool value
    | @number _ n integral =>
      cases n with
      | integer => exact .integer integral.1 integral.2
      | float => exact integral.elim
    | text s => exact .text s
    | array _ ih => exact .array ih
    | object ascending _ ih => exact .object ascending ih

end WorkflowKit.Json

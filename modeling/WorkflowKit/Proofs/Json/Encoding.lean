import WorkflowKit.Json.Value
import WorkflowKit.Proofs.Json.Grammar
import WorkflowKit.Text.Natural
import Mathlib.Algebra.Group.Int.Defs
import Mathlib.Algebra.Group.Nat.Defs

namespace WorkflowKit.Json

/-- Holds of the characters that may stand between the parts of a text. -/
def Blanks (cs : List Char) : Prop :=
  ∀ c ∈ cs, c ∈ [' ', '\n', '\t', '\r']

/-- Four digits of base sixteen, in letters of either case, and the number that they write. -/
inductive HexForm : List Char → Nat → Prop
  | digits {a b c d : Char} {i j k l : Nat} :
      "0123456789abcdef".toList[i]? = some a.toLower →
      "0123456789abcdef".toList[j]? = some b.toLower →
      "0123456789abcdef".toList[k]? = some c.toLower →
      "0123456789abcdef".toList[l]? = some d.toLower →
        HexForm [a, b, c, d] (i * 0x1000 + j * 0x100 + k * 0x10 + l)

/-- The letters after a backslash and the characters that they stand for. -/
def shortEscapes : List (Char × Char) :=
  [('"', '"'), ('\\', '\\'), ('/', '/'), ('b', '\x08'), ('f', '\x0c'), ('n', '\n'), ('r', '\r'),
   ('t', '\t')]

/-- The ways to write a character of a text. One with a number of more than sixteen bits is escaped as
a pair of surrogates. -/
inductive Spells : List Char → Char → Prop
  | plain {c : Char} : 0x20 ≤ c.toNat → c ≠ '"' → c ≠ '\\' → Spells [c] c
  | short {letter c : Char} : (letter, c) ∈ shortEscapes → Spells ['\\', letter] c
  | number {ds : List Char} {c : Char} : HexForm ds c.toNat → Spells ('\\' :: 'u' :: ds) c
  | pair {high low : List Char} {h l : Nat} {c : Char} :
      HexForm high h → HexForm low l → 0xD800 ≤ h → h < 0xDC00 → 0xDC00 ≤ l → l < 0xE000 →
        c.toNat = 0x10000 + (h - 0xD800) * 0x400 + (l - 0xDC00) →
          Spells ('\\' :: 'u' :: high ++ '\\' :: 'u' :: low) c

inductive SpellsAll : List Char → List Char → Prop
  | nil : SpellsAll [] []
  | cons {part cs ds : List Char} {c : Char} :
      Spells part c → SpellsAll cs ds → SpellsAll (part ++ cs) (c :: ds)

/-- The quoted forms of a text. -/
inductive Quotes (s : String) : List Char → Prop
  | quoted {inside : List Char} : SpellsAll inside s.toList → Quotes s ('"' :: inside ++ ['"'])

/-- A member of an object in a text: its name in quotes and its value, with the blanks around the
name. -/
structure Member where
  before : List Char
  quoted : List Char
  between : List Char
  text : List Char
  name : String
  value : Json

namespace Member

def chars (member : Member) : List Char :=
  member.before ++ member.quoted ++ member.between ++ ':' :: member.text

structure IsNamed (member : Member) : Prop where
  before : Blanks member.before
  quoted : Quotes member.name member.quoted
  between : Blanks member.between

end Member

/-- The texts in brackets with commas between them. -/
def bracketed (opening closing : Char) (parts : List (List Char)) : List Char :=
  opening :: [','].intercalate parts ++ [closing]

/-- The texts that encode a value with lists and objects nested to a given depth. -/
inductive Encodes : Nat → List Char → Json → Prop
  | null {depth : Nat} : Encodes depth ['n', 'u', 'l', 'l'] .null
  | true {depth : Nat} : Encodes depth ['t', 'r', 'u', 'e'] (.bool true)
  | false {depth : Nat} : Encodes depth ['f', 'a', 'l', 's', 'e'] (.bool false)
  | natural {depth : Nat} {ds : List Char} :
      Whole ds → Text.digitsValue ds < 2 ^ 64 →
        Encodes depth ds (.number (.integer (Text.digitsValue ds)))
  | negative {depth : Nat} {ds : List Char} :
      Whole ds → 0 < Text.digitsValue ds → Text.digitsValue ds ≤ 2 ^ 63 →
        Encodes depth ('-' :: ds) (.number (.integer (-Text.digitsValue ds)))
  | text {depth : Nat} {cs : List Char} {s : String} : Quotes s cs → Encodes depth cs (.text s)
  | blanks {depth : Nat} {before cs after : List Char} {value : Json} :
      Blanks before → Encodes depth cs value → Blanks after →
        Encodes depth (before ++ cs ++ after) value
  | emptyList {depth : Nat} {inside : List Char} :
      Blanks inside → Encodes (depth + 1) ('[' :: inside ++ [']']) (.array [])
  | list {depth : Nat} (items : List (List Char × Json)) :
      items ≠ [] → (∀ item ∈ items, Encodes depth item.1 item.2) →
        Encodes (depth + 1) (bracketed '[' ']' (items.map (·.1))) (.array (items.map (·.2)))
  | emptyObject {depth : Nat} {inside : List Char} :
      Blanks inside → Encodes (depth + 1) ('\x7b' :: inside ++ ['\x7d']) (.object [])
  | object {depth : Nat} (members : List Member) :
      members ≠ [] → (∀ member ∈ members, member.IsNamed) →
        (∀ member ∈ members, Encodes depth member.text member.value) →
          Encodes (depth + 1) (bracketed '\x7b' '\x7d' (members.map Member.chars))
            (.ofMembers (members.map fun member => (member.name, member.value)))

/-- Holds of the values that such texts encode: their numbers are integers of 64 bits, the members of
objects stand in ascending order, and lists and objects are nested to a given depth. -/
inductive Admitted : Nat → Json → Prop
  | null {depth : Nat} : Admitted depth .null
  | bool {depth : Nat} (value : Bool) : Admitted depth (.bool value)
  | integer {depth : Nat} {n : Int} : -2 ^ 63 ≤ n → n < 2 ^ 64 → Admitted depth (.number (.integer n))
  | text {depth : Nat} (s : String) : Admitted depth (.text s)
  | array {depth : Nat} {items : List Json} :
      (∀ item ∈ items, Admitted depth item) → Admitted (depth + 1) (.array items)
  | object {depth : Nat} {members : List (String × Json)} :
      members.Pairwise (fun a b => a.1 < b.1) → (∀ member ∈ members, Admitted depth member.2) →
        Admitted (depth + 1) (.object members)

end WorkflowKit.Json

import WorkflowKit.Yaml.Value
import Mathlib.Tactic.SplitIfs

namespace WorkflowKit.Yaml.Scalar

/-- The meanings that a text can have. -/
inductive Means (text : String) : Scalar → Prop
  | null : Means text .null
  | bool (value : Bool) : Means text (.bool value)
  | integer {meaning : Scalar} : integer? text = some meaning → Means text meaning
  | float (value : Float) : Means text (.float value)
  | text : Means text (.text text)

theorem means_ofPlain (text : String) : Means text (ofPlain text) := by
  unfold ofPlain
  split
  · exact .null
  · split
    · exact .bool _
    · split
      · exact .integer ‹_›
      · extract_lets digits
        split
        · exact .float _
        · exact .text

/-- A scalar that is read has a meaning which its text allows, whatever its tag is. -/
theorem means_of_read {tag : Option Octets} {style : Style} {text : String} {meaning : Scalar}
    (found : read tag style text = .ok meaning) : Means text meaning := by
  unfold read at found
  split at found
  · obtain rfl := Except.ok.inj found
    split
    · exact means_ofPlain text
    · exact .text
  · split at found
    · split at found
      · exact Except.ok.inj found ▸ .bool _
      · cases found
    · split at found
      · split at found
        · rename_i integer
          exact Except.ok.inj found ▸ .integer integer
        · cases found
      · split at found
        · split at found
          · exact Except.ok.inj found ▸ .float _
          · cases found
        · split at found
          · split at found
            · exact Except.ok.inj found ▸ .null
            · cases found
          · split at found
            · exact Except.ok.inj found ▸ means_ofPlain text
            · exact Except.ok.inj found ▸ .text

/-- What is read as an integer is not read as a text. -/
theorem integer?_ne_text (text other : String) : integer? text ≠ some (.text other) := by
  intro found
  unfold integer? at found
  split at found
  · obtain ⟨n, _, found⟩ := Option.bind_eq_some_iff.mp found
    split_ifs at found <;> cases found
  · obtain ⟨n, _, found⟩ := Option.bind_eq_some_iff.mp found
    split_ifs at found <;> cases found

theorem Means.eq_text {text other : String} (means : Means text (.text other)) : other = text := by
  cases means with
  | integer found => exact absurd found (integer?_ne_text text other)
  | text => rfl

theorem Means.integer?_eq {text : String} {n : Nat} (means : Means text (.natural n)) :
    integer? text = some (.natural n) := by
  cases means with
  | integer found => exact found

theorem ofPlain_of_isNull {text : String} (null : text.isEmpty || isNull text) :
    ofPlain text = .null := by
  rw [ofPlain, if_pos null]

end WorkflowKit.Yaml.Scalar

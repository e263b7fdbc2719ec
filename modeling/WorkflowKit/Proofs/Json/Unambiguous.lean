import WorkflowKit.Proofs.Json.Acceptance
import WorkflowKit.Proofs.List

namespace WorkflowKit.Json

def isBlank (c : Char) : Bool :=
  [' ', '\n', '\t', '\r'].contains c

/-- A text without the blanks at its start. -/
def skipped (cs : List Char) : List Char :=
  cs.dropWhile isBlank

/-- Holds of the characters that may follow a value. -/
def isStop (c : Char) : Bool :=
  isBlank c || [',', ']', '\x7d'].contains c

/-- Holds of the texts that may follow a value. -/
def Stops (rest : List Char) : Prop :=
  ∀ c ∈ rest.head?, isStop c

theorem skipped_append {before : List Char} (blanks : Blanks before) (rest : List Char) :
    skipped (before ++ rest) = skipped rest :=
  List.dropWhile_append_of_pos fun c member => List.contains_iff_mem.mpr (blanks c member)

theorem skipped_cons {c : Char} (visible : isBlank c = false) (rest : List Char) :
    skipped (c :: rest) = c :: rest :=
  List.dropWhile_cons_of_neg (Bool.not_eq_true _ ▸ visible)

theorem Stops.blanks {after rest : List Char} (blanks : Blanks after) (stops : Stops rest) :
    Stops (after ++ rest) := by
  cases after with
  | nil => exact stops
  | cons c cs =>
    have first := List.contains_iff_mem.mpr (blanks c List.mem_cons_self)
    intro d member
    obtain rfl := Option.some.inj member
    rw [isStop, isBlank, first, Bool.true_or]

theorem stops_nil : Stops [] :=
  nofun

theorem stops_commaTail {closing : Char} (closes : closing = ']' ∨ closing = '\x7d')
    (parts : List (List Char)) (rest : List Char) : Stops (commaTail closing parts ++ rest) := by
  intro c member
  cases parts with
  | nil =>
    obtain rfl := Option.some.inj member
    rcases closes with rfl | rfl <;> decide
  | cons =>
    obtain rfl := Option.some.inj member
    decide

theorem skipped_commaTail {closing : Char} (closes : closing = ']' ∨ closing = '\x7d')
    (parts : List (List Char)) (rest : List Char) :
    skipped (commaTail closing parts ++ rest) = commaTail closing parts ++ rest := by
  cases parts with
  | nil => rcases closes with rfl | rfl <;> exact skipped_cons (by decide) _
  | cons => exact skipped_cons (by decide) _

section Parts

variable {α : Type} (texts : List Char → α → Prop)

/-- Holds of a text and what it stands for, if no other text with something that may follow goes on in the
same way and stands for something else. -/
def Determined (cs : List Char) (a : α) : Prop :=
  ∀ ds b rest rest', texts ds b → Stops rest → Stops rest' →
    skipped (cs ++ rest) = skipped (ds ++ rest') → a = b ∧ skipped rest = skipped rest'

variable {texts} {closing : Char} (closes : closing = ']' ∨ closing = '\x7d')
  {parts others : List (List Char × α)} {rest rest' : List Char}
include closes

/-- A list after its first part is taken apart in one way only, if each of its parts is. -/
theorem commaTail_determined (each : ∀ part ∈ parts, Determined texts part.1 part.2)
    (related : ∀ part ∈ others, texts part.1 part.2)
    (same : commaTail closing (parts.map (·.1)) ++ rest =
      commaTail closing (others.map (·.1)) ++ rest') :
    parts.map (·.2) = others.map (·.2) ∧ rest = rest' := by
  have notComma : closing ≠ ',' := by rcases closes with rfl | rfl <;> decide
  induction parts generalizing others with
  | nil =>
    cases others with
    | nil => exact ⟨rfl, (List.cons.inj same).2⟩
    | cons => exact absurd (List.cons.inj same).1 notComma
  | cons part parts ih =>
    cases others with
    | nil => exact absurd (List.cons.inj same).1.symm notComma
    | cons other others =>
      obtain ⟨first, later⟩ := List.forall_mem_cons.mp each
      obtain ⟨first', later'⟩ := List.forall_mem_cons.mp related
      simp only [List.map_cons, commaTail, List.cons_append, List.append_assoc, List.cons.injEq,
        true_and] at same
      obtain ⟨value, left⟩ := first _ _ _ _ first' (stops_commaTail closes _ _)
        (stops_commaTail closes _ _) (congrArg skipped same)
      rw [skipped_commaTail closes, skipped_commaTail closes] at left
      obtain ⟨values, left⟩ := ih later later' left
      exact ⟨by rw [List.map_cons, List.map_cons, value, values], left⟩

/-- What stands in brackets is determined by its parts, if no part begins with the closing bracket. -/
theorem inBrackets_determined (each : ∀ part ∈ parts, Determined texts part.1 part.2)
    (related : ∀ part ∈ others, texts part.1 part.2)
    (visible : ∀ part ∈ parts, ∀ rest, (skipped (part.1 ++ rest)).head? ≠ some closing)
    (visible' : ∀ part ∈ others, ∀ rest, (skipped (part.1 ++ rest)).head? ≠ some closing)
    (same : skipped (inBrackets closing true (parts.map (·.1)) ++ rest) =
      skipped (inBrackets closing true (others.map (·.1)) ++ rest')) :
    parts.map (·.2) = others.map (·.2) ∧ rest = rest' := by
  -- No part can be mistaken for the closing bracket, so both lists end at the same place.
  have ended (rest : List Char) : skipped (closing :: rest) = closing :: rest := by
    rcases closes with rfl | rfl <;> exact skipped_cons (by decide) rest
  cases parts with
  | nil =>
    cases others with
    | nil =>
      simp only [List.map_nil, inBrackets, commaTail, List.singleton_append, ended] at same
      exact ⟨rfl, (List.cons.inj same).2⟩
    | cons other others =>
      have head := visible' _ List.mem_cons_self
        (commaTail closing (others.map (·.1)) ++ rest')
      rw [← List.append_assoc] at head
      exact absurd (congrArg List.head? (same.symm.trans (ended rest))) head
  | cons part parts =>
    cases others with
    | nil =>
      have head := visible _ List.mem_cons_self
        (commaTail closing (parts.map (·.1)) ++ rest)
      rw [← List.append_assoc] at head
      exact absurd (congrArg List.head? (same.trans (ended rest'))) head
    | cons other others =>
      obtain ⟨first, later⟩ := List.forall_mem_cons.mp each
      obtain ⟨first', later'⟩ := List.forall_mem_cons.mp related
      simp only [List.map_cons, inBrackets, List.append_assoc] at same
      obtain ⟨value, left⟩ := first _ _ _ _ first' (stops_commaTail closes _ _)
        (stops_commaTail closes _ _) same
      rw [skipped_commaTail closes, skipped_commaTail closes] at left
      obtain ⟨values, left⟩ := commaTail_determined closes later later' left
      exact ⟨by rw [List.map_cons, List.map_cons, value, values], left⟩

end Parts

/-- What is asked of the texts of numbers. -/
structure Distinct (numbers : List Char → JsonNumber → Prop) : Prop where
  begins : ∀ {cs n}, numbers cs n → ∃ c rest, cs = c :: rest ∧ (c = '-' ∨ c.isDigit)
  inside : ∀ {cs n}, numbers cs n → ∀ c ∈ cs, isStop c = false
  unique : ∀ {cs n m}, numbers cs n → numbers cs m → n = m

/-- A member of an object in a text, with its name and its value. -/
inductive MemberText (values : List Char → Json → Prop) : List Char → String × Json → Prop
  | named {member : Member} : member.IsNamed → values member.text member.value →
      MemberText values member.chars (member.name, member.value)

/-- The texts that spell a value, without blanks around it, for any texts of the values inside. -/
inductive Bare (numbers : List Char → JsonNumber → Prop) (values : List Char → Json → Prop) :
    List Char → Json → Prop
  | null : Bare numbers values ['n', 'u', 'l', 'l'] .null
  | true : Bare numbers values ['t', 'r', 'u', 'e'] (.bool true)
  | false : Bare numbers values ['f', 'a', 'l', 's', 'e'] (.bool false)
  | number {cs : List Char} {n : JsonNumber} : numbers cs n → Bare numbers values cs (.number n)
  | text {cs : List Char} {s : String} : Quotes s cs → Bare numbers values cs (.text s)
  | list {before : List Char} (items : List (List Char × Json)) :
      Blanks before → (∀ item ∈ items, values item.1 item.2) →
        Bare numbers values ('[' :: (before ++ inBrackets ']' true (items.map (·.1))))
          (.array (items.map (·.2)))
  | object {before : List Char} (members : List (List Char × String × Json)) :
      Blanks before → (∀ member ∈ members, MemberText values member.1 member.2) →
        Bare numbers values ('\x7b' :: (before ++ inBrackets '\x7d' true (members.map (·.1))))
          (.object (SortedMap.ofList (members.map (·.2))).entries)

/-- Holds of the texts that spell a value, nested to less than a depth. -/
def SpelledBelow (numbers : List Char → JsonNumber → Prop) (depth : Nat) (cs : List Char) (v : Json) :
    Prop :=
  ∃ less < depth, Spelled numbers less cs v

variable {numbers : List Char → JsonNumber → Prop} {depth : Nat} {cs : List Char} {v w : Json}

theorem Spelled.bare (spelled : Spelled numbers depth cs v) :
    ∃ before bare after, Blanks before ∧ Blanks after ∧ cs = before ++ (bare ++ after) ∧
      Bare numbers (SpelledBelow numbers depth) bare v := by
  have noBlanks : Blanks [] := List.forall_mem_nil _
  have whole {depth : Nat} {bare : List Char} {v : Json}
      (holds : Bare numbers (SpelledBelow numbers depth) bare v) :
      ∃ before core after, Blanks before ∧ Blanks after ∧ bare = before ++ (core ++ after) ∧
        Bare numbers (SpelledBelow numbers depth) core v :=
    ⟨[], bare, [], noBlanks, noBlanks, by simp, holds⟩
  -- Blanks are gathered on the way in. All other constructors are bare as they are.
  induction spelled with
  | null => exact whole .null
  | true => exact whole .true
  | false => exact whole .false
  | number stands => exact whole (.number stands)
  | text quotes => exact whole (.text quotes)
  | blanks first _ last ih =>
    obtain ⟨before, bare, after, first', last', rfl, holds⟩ := ih
    exact ⟨_ ++ before, bare, after ++ _, first.append first', last'.append last, by simp, holds⟩
  | emptyList blanks => exact whole (.list [] blanks (List.forall_mem_nil _))
  | list items nonempty spelled =>
    cases items with
    | nil => exact absurd rfl nonempty
    | cons item items =>
      rw [List.map_cons, bracketed_cons]
      exact whole (.list (item :: items) noBlanks
        fun item listed => ⟨_, Nat.lt_succ_self _, spelled item listed⟩)
  | emptyObject blanks => exact whole (.object [] blanks (List.forall_mem_nil _))
  | @object depth members nonempty named spelled =>
    cases members with
    | nil => exact absurd rfl nonempty
    | cons member members =>
      have related : ∀ part ∈ (member :: members).map
          (fun member => (member.chars, member.name, member.value)),
          MemberText (SpelledBelow numbers (depth + 1)) part.1 part.2 :=
        List.forall_mem_map.mpr fun member listed =>
          .named (named member listed) ⟨_, Nat.lt_succ_self _, spelled member listed⟩
      have holds := @Bare.object numbers _ [] _ noBlanks related
      rw [List.map_cons, bracketed_cons]
      simpa [ofMembers, inBrackets, Function.comp_def] using whole holds

/-- What a value is, its content apart. -/
def kind : Json → Nat
  | .null => 0
  | .bool true => 1
  | .bool false => 2
  | .number _ => 3
  | .text _ => 4
  | .array _ => 5
  | .object _ => 6

/-- What a value is that begins with a character. -/
def kindOf (c : Char) : Nat :=
  match c with
  | 'n' => 0
  | 't' => 1
  | 'f' => 2
  | '"' => 4
  | '[' => 5
  | '\x7b' => 6
  | _ => 3

/-- Holds of the characters that a value may begin with. -/
def Opens (c : Char) : Prop :=
  c ∈ ['n', 't', 'f', '-', '"', '[', '\x7b'] ∨ c.isDigit

theorem Opens.other {c d : Char} (opens : Opens c) (other : d ∈ [' ', '\n', '\t', '\r', ']', '\x7d']) :
    c ≠ d := by
  have each : ∀ d ∈ [' ', '\n', '\t', '\r', ']', '\x7d'],
      d ∉ ['n', 't', 'f', '-', '"', '[', '\x7b'] ∧ d.isDigit = false := by simp
  rintro rfl
  obtain ⟨notListed, notDigit⟩ := each c other
  rcases opens with listed | digit
  · exact notListed listed
  · exact Bool.false_ne_true (notDigit.symm.trans digit)

theorem Opens.visible {c : Char} (opens : Opens c) : isBlank c = false :=
  Bool.eq_false_of_not_eq_true fun blank =>
    opens.other (List.mem_append_left [']', '\x7d'] (List.contains_iff_mem.mp blank)) rfl

namespace Bare

variable {values : List Char → Json → Prop} {bare : List Char}

/-- The first character of a bare text tells the kind of its value. -/
theorem initial (distinct : Distinct numbers) (holds : Bare numbers values bare v) :
    ∃ c rest, bare = c :: rest ∧ Opens c ∧ kindOf c = v.kind := by
  cases holds with
  | number stands =>
    obtain ⟨c, rest, rfl, start⟩ := distinct.begins stands
    refine ⟨c, rest, rfl, start.imp_left fun sign => by rw [sign]; decide, ?_⟩
    rcases start with rfl | digit
    · rfl
    · unfold kindOf
      split <;> first | rfl | exact absurd digit (by decide)
  | text quotes =>
    obtain ⟨body, rfl, _⟩ := quotes.read
    exact ⟨_, _, rfl, Or.inl (by decide), rfl⟩
  | _ => exact ⟨_, _, rfl, Or.inl (by decide), rfl⟩

theorem skipped (distinct : Distinct numbers) (holds : Bare numbers values bare v)
    (rest : List Char) : skipped (bare ++ rest) = bare ++ rest := by
  obtain ⟨c, others, rfl, opens, _⟩ := holds.initial distinct
  exact skipped_cons opens.visible _

end Bare

/-- Beyond the blanks at its start a text goes on with a value. -/
theorem Spelled.skipped (distinct : Distinct numbers) (spelled : Spelled numbers depth cs v)
    {rest : List Char} (stops : Stops rest) :
    ∃ bare left, Bare numbers (SpelledBelow numbers depth) bare v ∧
      skipped (cs ++ rest) = bare ++ left ∧ Stops left ∧ Json.skipped left = Json.skipped rest := by
  obtain ⟨before, bare, after, blanks, blanks', rfl, holds⟩ := spelled.bare
  refine ⟨bare, after ++ rest, holds, ?_, stops.blanks blanks', skipped_append blanks' rest⟩
  rw [List.append_assoc, List.append_assoc, skipped_append blanks, holds.skipped distinct]

/-- No part begins with a closing bracket, blanks apart. -/
theorem Spelled.visible (distinct : Distinct numbers) (spelled : Spelled numbers depth cs v)
    (rest : List Char) : (Json.skipped (cs ++ rest)).head? ≠ some ']' := by
  obtain ⟨before, bare, after, blanks, _, rfl, holds⟩ := spelled.bare
  obtain ⟨c, others, rfl, opens, _⟩ := holds.initial distinct
  rw [List.append_assoc, List.append_assoc, skipped_append blanks, holds.skipped distinct]
  exact fun first => opens.other (by decide) (Option.some.inj first)

theorem eq_of_number (distinct : Distinct numbers) {ds : List Char} {n m : JsonNumber}
    {rest rest' : List Char} (stands : numbers cs n) (stands' : numbers ds m) (stops : Stops rest)
    (stops' : Stops rest') (same : cs ++ rest = ds ++ rest') : n = m ∧ rest = rest' := by
  have inside {cs : List Char} {n : JsonNumber} (stands : numbers cs n) :
      ∀ c ∈ cs, (!isStop c) = true := fun c member => by
    rw [distinct.inside stands c member, Bool.not_false]
  have outside {rest : List Char} (stops : Stops rest) : ∀ c ∈ rest.head?, (!isStop c) = false :=
    fun c first => by rw [stops c first, Bool.not_true]
  obtain ⟨rfl, left⟩ :=
    List.eq_of_runs (inside stands) (inside stands') (outside stops) (outside stops') same
  exact ⟨distinct.unique stands stands', left⟩

/-- A quoted text ends at the first quote that is not escaped, so it is told from what follows. -/
theorem eq_of_quotes {s t : String} {ds rest rest' : List Char} (quotes : Quotes s cs)
    (quotes' : Quotes t ds) (same : cs ++ rest = ds ++ rest') : s = t ∧ rest = rest' := by
  obtain ⟨body, rfl, read⟩ := quotes.read
  obtain ⟨body', rfl, read'⟩ := quotes'.read
  rw [List.cons_append, List.cons_append] at same
  have octets := congrArg Octets.ofChars (List.cons.inj same).2
  rw [Octets.ofChars_append, Octets.ofChars_append] at octets
  have both := (read _).symm.trans (octets ▸ read' _)
  obtain ⟨text, left⟩ := Prod.mk.inj (Except.ok.inj both)
  have left := congrArg Octets.text? left
  rw [Octets.text?_ofChars, Octets.text?_ofChars] at left
  exact ⟨text, String.ofList_injective (Option.some.inj left)⟩

theorem Member.IsNamed.skipped {member : Member} (isNamed : member.IsNamed) (rest : List Char) :
    skipped (member.chars ++ rest) =
      member.quoted ++ (member.between ++ ':' :: (member.text ++ rest)) := by
  obtain ⟨body, quoted, _⟩ := isNamed.quoted.read
  simp only [Member.chars, List.append_assoc, skipped_append isNamed.before, List.cons_append]
  rw [quoted]
  exact skipped_cons (by decide) _

theorem MemberText.visible {values : List Char → Json → Prop} {entry : String × Json}
    (text : MemberText values cs entry) (rest : List Char) :
    (skipped (cs ++ rest)).head? ≠ some '\x7d' := by
  cases text with
  | named isNamed =>
    obtain ⟨body, quoted, _⟩ := isNamed.quoted.read
    rw [isNamed.skipped, quoted]
    exact fun first => absurd (Option.some.inj first) (by decide)

/-- A member is determined if its value is. -/
theorem MemberText.determined {values others : List Char → Json → Prop} {entry : String × Json}
    (text : MemberText values cs entry)
    (each : ∀ cs v, values cs v → Determined others cs v) :
    Determined (MemberText others) cs entry := by
  obtain ⟨isNamed, value⟩ := text
  rintro _ _ rest rest' ⟨isNamed', related⟩ stops stops' same
  rw [isNamed.skipped, isNamed'.skipped] at same
  obtain ⟨name, left⟩ := eq_of_quotes isNamed.quoted isNamed'.quoted same
  have left := congrArg Json.skipped left
  rw [skipped_append isNamed.between, skipped_append isNamed'.between, skipped_cons (by decide),
    skipped_cons (by decide)] at left
  obtain ⟨value, left⟩ :=
    each _ _ value _ _ _ _ related stops stops' (congrArg Json.skipped (List.cons.inj left).2)
  exact ⟨by rw [name, value], left⟩

/-- Two texts of values without blanks around them that go on in the same way spell one value, if this
holds of the values inside the first one. -/
theorem Bare.eq_of_same {values others : List Char → Json → Prop} (distinct : Distinct numbers)
    (each : ∀ cs v, values cs v → Determined others cs v)
    (visible : ∀ cs v, values cs v → ∀ rest, (Json.skipped (cs ++ rest)).head? ≠ some ']')
    (visible' : ∀ cs v, others cs v → ∀ rest, (Json.skipped (cs ++ rest)).head? ≠ some ']')
    {ds rest rest' : List Char} (holds : Bare numbers values cs v) (holds' : Bare numbers others ds w)
    (stops : Stops rest) (stops' : Stops rest') (same : cs ++ rest = ds ++ rest') :
    v = w ∧ rest = rest' := by
  -- The first characters agree, and they tell the kinds, so only equal constructors are left.
  have kinds : v.kind = w.kind := by
    obtain ⟨c, _, rfl, _, kind⟩ := holds.initial distinct
    obtain ⟨c', _, rfl, _, kind'⟩ := holds'.initial distinct
    rw [← kind, ← kind', (List.cons.inj same).1]
  cases holds with
  | null =>
    cases holds' with
    | null => exact ⟨rfl, List.append_cancel_left same⟩
    | _ => cases kinds
  | true =>
    cases holds' with
    | true => exact ⟨rfl, List.append_cancel_left same⟩
    | _ => cases kinds
  | false =>
    cases holds' with
    | false => exact ⟨rfl, List.append_cancel_left same⟩
    | _ => cases kinds
  | number stands =>
    cases holds' with
    | number stands' =>
      obtain ⟨rfl, left⟩ := eq_of_number distinct stands stands' stops stops' same
      exact ⟨rfl, left⟩
    | _ => cases kinds
  | text quotes =>
    cases holds' with
    | text quotes' =>
      obtain ⟨rfl, left⟩ := eq_of_quotes quotes quotes' same
      exact ⟨rfl, left⟩
    | _ => cases kinds
  | list items blanks related =>
    cases holds' with
    | list items' blanks' related' =>
      rw [List.cons_append, List.cons_append, List.append_assoc, List.append_assoc] at same
      have inside := congrArg Json.skipped (List.cons.inj same).2
      rw [skipped_append blanks, skipped_append blanks'] at inside
      obtain ⟨values, left⟩ := inBrackets_determined (Or.inl rfl)
        (fun item listed => each _ _ (related item listed)) related'
        (fun item listed => visible _ _ (related item listed))
        (fun item listed => visible' _ _ (related' item listed)) inside
      exact ⟨by rw [values], left⟩
    | _ => cases kinds
  | object members blanks related =>
    cases holds' with
    | object members' blanks' related' =>
      rw [List.cons_append, List.cons_append, List.append_assoc, List.append_assoc] at same
      have inside := congrArg Json.skipped (List.cons.inj same).2
      rw [skipped_append blanks, skipped_append blanks'] at inside
      obtain ⟨entries, left⟩ := inBrackets_determined (Or.inr rfl)
        (fun member listed => (related member listed).determined each) related'
        (fun member listed => (related member listed).visible)
        (fun member listed => (related' member listed).visible) inside
      exact ⟨by rw [entries], left⟩
    | _ => cases kinds

/-- A spelled value is determined by its text. -/
theorem Spelled.determined (distinct : Distinct numbers) (spelled : Spelled numbers depth cs v) :
    ∀ other, Determined (Spelled numbers other) cs v := by
  induction depth using Nat.strongRecOn generalizing cs v with
  | _ depth ih =>
    intro other ds w rest rest' spelled' stops stops' same
    obtain ⟨bare, left, holds, start, ends, skip⟩ := spelled.skipped distinct stops
    obtain ⟨bare', left', holds', start', ends', skip'⟩ := spelled'.skipped distinct stops'
    rw [start, start'] at same
    have each (cs : List Char) (v : Json) (inside : SpelledBelow numbers depth cs v) :
        Determined (SpelledBelow numbers other) cs v := by
      obtain ⟨less, below, spelled⟩ := inside
      rintro _ _ _ _ ⟨less', _, spelled'⟩
      exact ih less below spelled less' _ _ _ _ spelled'
    have visible (depth : Nat) (cs : List Char) (v : Json) (inside : SpelledBelow numbers depth cs v)
        (rest : List Char) : (Json.skipped (cs ++ rest)).head? ≠ some ']' := by
      obtain ⟨_, _, spelled⟩ := inside
      exact spelled.visible distinct rest
    obtain ⟨value, rfl⟩ :=
      holds.eq_of_same distinct each (visible depth) (visible other) holds' ends ends' same
    exact ⟨value, skip.symm.trans skip'⟩

/-- A text spells no two values. -/
theorem Spelled.unique (distinct : Distinct numbers) {other : Nat}
    (spelled : Spelled numbers depth cs v) (spelled' : Spelled numbers other cs w) : v = w :=
  (spelled.determined distinct other cs w [] [] spelled' stops_nil stops_nil rfl).1

end WorkflowKit.Json

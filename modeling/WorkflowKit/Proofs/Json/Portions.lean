import WorkflowKit.Json.Portions

namespace WorkflowKit.Json

theorem flatten_runPortion (run : List Char) : (runPortion run).flatten = run.reverse := by
  cases run with
  | nil => rfl
  | cons c run => simp [runPortion]

/-- A run that has not been written yet comes before what the rest is written as. -/
theorem flatten_insidePortions (run cs : List Char) :
    (insidePortions run cs).flatten = run.reverse ++ cs.flatMap escaped := by
  induction cs generalizing run with
  | nil => rw [insidePortions, flatten_runPortion, List.flatMap_nil, List.append_nil]
  | cons c cs ih =>
    rw [insidePortions, List.flatMap_cons]
    split
    · rename_i plain
      rw [ih, plain, List.reverse_cons, List.append_assoc]
    · rw [List.flatten_append, flatten_runPortion, List.flatten_cons, ih, List.reverse_nil,
        List.nil_append]

theorem flatten_quotedPortions (cs : List Char) : (quotedPortions cs).flatten = quotedChars cs := by
  simp [quotedPortions, quotedChars, flatten_insidePortions]

mutual

theorem flatten_portions (value : Json) : value.portions.flatten = value.chars := by
  match value with
  | null => rfl
  | bool true => rfl
  | bool false => rfl
  | number value => simp [portions, chars]
  | text value => rw [portions, chars, flatten_quotedPortions]
  | array [] => rfl
  | array (item :: items) =>
    simp [portions, chars, flatten_portions item, flatten_itemPortions items]
  | object [] => rfl
  | object (entry :: members) =>
    simp [portions, chars, flatten_entryPortions entry, flatten_memberPortions members]

theorem flatten_itemPortions (items : List Json) :
    (itemPortions items).flatten = itemChars items := by
  match items with
  | [] => rfl
  | item :: items =>
    simp [itemPortions, itemChars, flatten_portions item, flatten_itemPortions items]

theorem flatten_entryPortions (entry : String × Json) :
    (entryPortions entry).flatten = entryChars entry := by
  match entry with
  | (name, value) =>
    simp [entryPortions, entryChars, flatten_quotedPortions, flatten_portions value]

theorem flatten_memberPortions (members : List (String × Json)) :
    (memberPortions members).flatten = memberChars members := by
  match members with
  | [] => rfl
  | entry :: members =>
    simp [memberPortions, memberChars, flatten_entryPortions entry, flatten_memberPortions members]

end

/-- Written in portions or as a whole, a value has the same octets. -/
theorem flatten_octets (value : Json) :
    (value.portions.map Octets.ofChars).flatten = value.octets :=
  calc (value.portions.map Octets.ofChars).flatten
      = value.portions.flatMap Octets.ofChars := List.flatMap_def.symm
    _ = (value.portions.flatMap id).flatMap String.utf8EncodeChar := List.flatMap_assoc.symm
    _ = Octets.ofChars value.chars := by rw [List.flatMap_id, flatten_portions, Octets.ofChars]

end WorkflowKit.Json

import WorkflowKit.Output
import WorkflowKit.Proofs.Json.Portions
import Mathlib.Tactic.SplitIfs

namespace WorkflowKit.Sink

variable {sink : Sink} {first others octets : Octets}

@[simp]
theorem take_nil (sink : Sink) : sink.take [] = [] := by
  unfold take
  split
  · exact List.take_nil
  · rfl

@[simp]
theorem after_nil (sink : Sink) : sink.after [] = sink := by
  obtain ⟨limit, refusal⟩ := sink
  cases limit <;> rfl

@[simp]
theorem refusal_after (sink : Sink) (taken : Octets) :
    (sink.after taken).refusal = sink.refusal := rfl

theorem after_append (sink : Sink) (first others : Octets) :
    sink.after (first ++ others) = (sink.after first).after others := by
  obtain ⟨limit, refusal⟩ := sink
  cases limit with
  | none => rfl
  | some limit => simp [after, Nat.sub_sub]

/-- What a place takes of two texts is what it takes of the first, and then of the second with the
room that is left. -/
theorem take_append (sink : Sink) (first others : Octets) :
    sink.take (first ++ others) = sink.take first ++ (sink.after first).take others := by
  obtain ⟨limit, refusal⟩ := sink
  cases limit with
  | none => rfl
  | some limit => exact List.take_append

theorem take_of_not_lt (whole : ¬ (sink.take octets).length < octets.length) :
    sink.take octets = octets := by
  obtain ⟨limit, refusal⟩ := sink
  cases limit with
  | none => rfl
  | some limit =>
    rw [take, List.length_take] at whole
    exact List.take_of_length_le (by omega)

/-- After a refusal there is no room. -/
theorem take_append_of_lt (refused : (sink.take first).length < first.length) (others : Octets) :
    sink.take (first ++ others) = sink.take first := by
  obtain ⟨limit, refusal⟩ := sink
  cases limit with
  | none => exact absurd refused (Nat.lt_irrefl _)
  | some limit =>
    rw [take, List.length_take] at refused
    exact List.take_append_of_le_length (by omega)

/-- Portions are taken as they are when they are written as a whole. -/
theorem write_eq (sink : Sink) (portions : List Octets) :
    sink.write portions =
      (sink.take portions.flatten,
        if (sink.take portions.flatten).length < portions.flatten.length then none
        else some (sink.after portions.flatten)) := by
  -- The sink changes from portion to portion: what it still takes is the room that is left.
  induction portions generalizing sink with
  | nil => simp [write]
  | cons portion portions ih =>
    rw [write, List.flatten_cons]
    dsimp only
    split
    · rename_i refused
      have shorter : (sink.take portion).length < (portion ++ portions.flatten).length := by
        rw [List.length_append]
        omega
      rw [take_append_of_lt refused, if_pos shorter]
    · rename_i whole
      rw [take_of_not_lt whole, ih, take_append, take_of_not_lt whole, after_append]
      simp only [List.length_append, Nat.add_lt_add_iff_left]

/-- What is taken of a line, and what goes wrong, is told by the line as a whole. -/
theorem printLine_eq (sink : Sink) (portions : List Octets)
    (textRefused lineRefused : String → Failure) :
    sink.printLine portions textRefused lineRefused =
      let text := portions.flatten
      let taken := sink.take (text ++ [0x0A])
      { taken
        failure :=
          if taken.length < text.length then some (textRefused sink.refusal)
          else if taken.length = text.length then some (lineRefused sink.refusal)
          else none } := by
  rw [printLine, write_eq]
  generalize portions.flatten = text
  by_cases refused : (sink.take text).length < text.length
  · simp only [if_pos refused, take_append_of_lt refused]
  · have whole := take_of_not_lt refused
    have textLength : ¬ text.length + ((sink.after text).take [0x0A]).length < text.length := by
      omega
    simp only [whole, Nat.lt_irrefl, if_false, take_append, write_eq, List.flatten_singleton,
      List.length_append, textLength]
    by_cases lineFeed : ((sink.after text).take [0x0A]).length < [(0x0A : UInt8)].length
    · have nothing : (sink.after text).take [0x0A] = [] :=
        List.length_eq_zero_iff.mp (Nat.lt_one_iff.mp lineFeed)
      simp [nothing]
    · have all : (sink.after text).take [0x0A] = [0x0A] := take_of_not_lt lineFeed
      simp [all]

theorem printLine_open (portions : List Octets) (textRefused lineRefused : String → Failure) :
    Sink.open.printLine portions textRefused lineRefused =
      ⟨portions.flatten ++ [0x0A], none⟩ := by
  have all : Sink.open.take (portions.flatten ++ [0x0A]) = portions.flatten ++ [0x0A] := rfl
  rw [printLine_eq]
  simp [all]

@[simp]
theorem print_open (value : Json) : Sink.open.print value = ⟨value.octets ++ [0x0A], none⟩ := by
  rw [print, printLine_open, Json.flatten_octets]

@[simp]
theorem printType_open (type : DeviceType) :
    Sink.open.printType type = ⟨Octets.ofText type.name ++ [0x0A], none⟩ := by
  rw [printType, printLine_open, List.flatten_singleton]

/-- A text that does not fit is refused by the writer of values. If only the line feed does not fit,
the line is refused. -/
theorem print_failure (value : Json) (limit : Nat) (refusal : String) :
    (Sink.print ⟨some limit, refusal⟩ value).failure =
      if limit < value.octets.length then some (.unprinted refusal)
      else if limit = value.octets.length then some (.service (.unwritten "value" refusal))
      else none := by
  have shorter (size : Nat) : min limit (size + 1) < size ↔ limit < size := by omega
  have same (size : Nat) : min limit (size + 1) = size ↔ limit = size := by omega
  rw [print, printLine_eq, Json.flatten_octets]
  simp only [take, List.length_take, List.length_append, List.length_singleton, shorter, same]

/-- Both messages end with the reason of the refusal. -/
theorem message_of_refusal (refusal : String) :
    (∃ before, (Failure.unprinted refusal).message = before ++ refusal) ∧
      ∃ before, (Failure.service (.unwritten "value" refusal)).message = before ++ refusal := by
  refine ⟨⟨"failed to serialize value: ", rfl⟩, ?_⟩
  have message : (Failure.service (.unwritten "value" refusal)).message =
      "service error: " ++ ("failed to write " ++ "value" ++ ": " ++ refusal) := rfl
  exact ⟨_, by rw [message, ← String.append_assoc]⟩

/-- A place with a limit takes so many octets of the line that is printed elsewhere. The line is
printed if these are all, the line feed alone is missing if they are all but one, and else the text is
not whole. Why the rest was refused is told at the end of the message. -/
theorem print_limited (value : Json) (limit : Nat) (refusal : String) :
    let line := (Sink.open.print value).taken
    let printed := Sink.print ⟨some limit, refusal⟩ value
    line = value.octets ++ [0x0A] ∧
      printed.taken = line.take limit ∧
      (printed.failure = none ↔ line.length ≤ limit) ∧
      (printed.failure = some (.service (.unwritten "value" refusal)) ↔ limit + 1 = line.length) ∧
      (printed.failure = some (.unprinted refusal) ↔ limit + 1 < line.length) ∧
      ∀ failure, printed.failure = some failure → ∃ before, failure.message = before ++ refusal := by
  intro line printed
  have whole : line = value.octets ++ [0x0A] := congrArg Printed.taken (print_open value)
  have length : line.length = value.octets.length + 1 := by rw [whole, List.length_append]; rfl
  have taken : printed.taken = line.take limit := by
    simp only [printed, whole, print, printLine_eq, Json.flatten_octets]
    rfl
  obtain ⟨textRefused, lineRefused⟩ := message_of_refusal refusal
  have failure : printed.failure = _ := print_failure value limit refusal
  rw [failure, length]
  refine ⟨whole, taken, ?_⟩
  -- The text does not fit, or only the line feed does not, or both do.
  split_ifs with short noLineFeed
  · refine ⟨iff_of_false nofun (by omega), iff_of_false nofun (by omega),
      iff_of_true rfl (by omega), ?_⟩
    rintro _ ⟨⟩
    exact textRefused
  · refine ⟨iff_of_false nofun (by omega), iff_of_true rfl (by omega),
      iff_of_false nofun (by omega), ?_⟩
    rintro _ ⟨⟩
    exact lineRefused
  · exact ⟨iff_of_true rfl (by omega), iff_of_false nofun (by omega), iff_of_false nofun (by omega),
      nofun⟩

end WorkflowKit.Sink

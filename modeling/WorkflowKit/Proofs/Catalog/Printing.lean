import WorkflowKit.Proofs.CommandLine.Stdout
import WorkflowKit.Proofs.Json.Printing
import WorkflowKit.Proofs.Text.Decoding

namespace WorkflowKit.Setting

/-- The setting that a JSON value stands for: a list of texts, or a text. -/
def ofJson? : Json → Option Setting
  | .array items => (items.mapM Json.text?).map list
  | .text value => some (text value)
  | _ => none

theorem ofJson?_toJson (setting : Setting) : ofJson? setting.toJson = some setting := by
  cases setting with
  | list entries =>
    have each : entries.mapM (Json.text? ∘ Json.text) = some entries := by
      simpa [Function.comp_def, Json.text?] using
        List.mapM_pure (m := Option) (l := entries) (f := id)
    rw [toJson, Json.ofTexts, ofJson?, List.mapM_map, each, Option.map_some]
  | text value => rfl

theorem admitted_toJson (setting : Setting) : Json.Admitted 1 setting.toJson := by
  cases setting with
  | list entries => exact .array (List.forall_mem_map.mpr fun entry _ => .text entry)
  | text value => exact .text value

/-- The line feed at the end of a line counts as a blank when the line is read. -/
theorem encodes_line (setting : Setting) :
    Json.Encodes 1 (setting.toJson.chars ++ ['\n']) setting.toJson := by
  have noBlanks : Json.Blanks [] := List.forall_mem_nil _
  have lineFeed : Json.Blanks ['\n'] := by simp [Json.Blanks]
  exact .blanks noBlanks setting.admitted_toJson.encodes lineFeed

theorem octets_line (setting : Setting) :
    setting.toJson.octets ++ [0x0A] = Octets.ofChars (setting.toJson.chars ++ ['\n']) := by
  rw [Octets.ofChars_append]
  rfl

/-- The line that is printed for a setting is read back as this setting. -/
theorem ofJson?_read_line (setting : Setting) :
    (Json.read (setting.toJson.octets ++ [0x0A])).toOption.bind ofJson? = some setting := by
  rw [octets_line, setting.encodes_line.read (by decide)]
  exact setting.ofJson?_toJson

/-- A setting is printed as one JSON text and a line feed, the only one. The line is well-formed as a
text, the JSON text encodes the setting and no other value, and the setting is read back from the line,
so that no other setting is printed like it. -/
theorem print_toJson (setting : Setting) :
    ∃ document : String,
      Sink.open.print setting.toJson = ⟨Octets.ofText document ++ [0x0A], none⟩ ∧
      Json.Compact document.toList ∧
      0x0A ∉ Octets.ofText document ∧
      (Octets.ofText document ++ [0x0A]).text? = some (document ++ "\n") ∧
      Json.Encodes 1 document.toList setting.toJson ∧
      (∀ depth value, Json.Encodes depth document.toList value → value = setting.toJson) ∧
      (Json.read (Octets.ofText document ++ [0x0A])).toOption.bind ofJson? = some setting ∧
      ∀ other : Setting,
        (Sink.open.print other.toJson).taken = Octets.ofText document ++ [0x0A] →
          other = setting := by
  refine ⟨setting.toJson.written, ?_⟩
  have octets : Octets.ofText setting.toJson.written = setting.toJson.octets := by
    rw [Octets.ofText, Json.written, String.toList_ofList, Json.octets]
  have encodes := setting.admitted_toJson.encodes
  rw [octets, Json.written, String.toList_ofList]
  refine ⟨Sink.print_open _, Json.compact_chars setting.fits_toJson,
    (IsDocument.octets setting.fits_toJson).lineFeed_not_mem, ?_, encodes,
    fun depth value encodes' => encodes'.unique encodes, setting.ofJson?_read_line, ?_⟩
  · rw [octets_line, Octets.text?_ofChars, String.ofList_append]
  · intro other same
    have line : other.toJson.octets ++ [0x0A] = setting.toJson.octets ++ [0x0A] := by
      simpa only [Sink.print_open] using same
    have read := other.ofJson?_read_line
    rw [line, setting.ofJson?_read_line] at read
    exact (Option.some.inj read).symm

end WorkflowKit.Setting

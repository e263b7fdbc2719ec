import WorkflowKit.Catalog.Loading
import WorkflowKit.Proofs.Except

namespace WorkflowKit

namespace Yaml

variable {α : Type}

/-- Goes on with characters that are evaluated. The kernel evaluates an argument wherever it is used,
so that characters which are still to be taken from a text would be taken from it each time. -/
def settleChars : List Char → (List Char → α) → α
  | [], next => next []
  | ⟨value, valid⟩ :: cs, next => settleChars cs fun cs => next (⟨value, valid⟩ :: cs)

theorem settleChars_eq (cs : List Char) (next : List Char → α) : settleChars cs next = next cs := by
  induction cs generalizing next with
  | nil => rfl
  | cons c cs ih => exact ih _

/-- Goes on with tokens of which the scalars are evaluated. -/
def settleTokens : List Token → (List Token → α) → α
  | [], next => next []
  | ⟨.scalar style text, start, stop⟩ :: tokens, next =>
    settleChars text fun text => settleTokens tokens fun tokens =>
      next (⟨.scalar style text, start, stop⟩ :: tokens)
  | token :: tokens, next => settleTokens tokens fun tokens => next (token :: tokens)

theorem settleTokens_eq (tokens : List Token) (next : List Token → α) :
    settleTokens tokens next = next tokens := by
  fun_induction settleTokens tokens next with
  | case1 => rfl
  | case2 style text start stop tokens next ih => rw [settleChars_eq, ih]
  | case3 token tokens next _ ih => exact ih

end Yaml

namespace Catalog

namespace Builtin

/-- The lines of the text that the catalog is written in, comments aside. -/
def lines : List String :=
  ["default_workflow: desktop",
   "",
   "workflows:",
   "  desktop:",
   "    matrix:",
   "      standard:",
   "        os: [\"ubuntu-latest\", \"macos-latest\"]",
   "        build_type: [\"Release\", \"Debug\"]",
   "        architecture: [\"x64\", \"x86\"]",
   "        msvc_runtime: [\"static\", \"dynamic\"]",
   "        xcode_version: [\"11.7\"]",
   "        python_version: [\"3.7\"]",
   "      expanded:",
   "        os: [\"ubuntu-latest\", \"macos-latest\", \"windows-latest\"]",
   "        xcode_version: [\"11.7\", \"12.4\"]",
   "",
   "  android:",
   "    matrix:",
   "      standard:",
   "        os: [\"ubuntu-latest\", \"macos-latest\", \"windows-latest\"]",
   "        architecture: [\"x64\"]",
   "        python_version: [\"3.7\"]",
   "      expanded:",
   "        os: [\"ubuntu-latest\", \"macos-latest\", \"windows-latest\"]",
   "",
   "  integration_tests:",
   "    matrix:",
   "      standard:",
   "        os: [\"ubuntu-latest\", \"macos-latest\", \"windows-latest\"]",
   "        platform: [\"Desktop\", \"Android\", \"iOS\", \"tvOS\"]",
   "        ssl_lib: [\"openssl\", \"boringssl\"]",
   "        android_device: [\"android_latest\", \"emulator_target\"]",
   "        ios_device: [\"ios_target\", \"simulator_target\"]",
   "        tvos_device: [\"tvos_simulator_target\"]",
   "        build_type: [\"Debug\"]",
   "        architecture_windows_linux: [\"x64\"]",
   "        architecture_macos: [\"x64\"]",
   "        msvc_runtime: [\"dynamic\"]",
   "        cpp_compiler_windows: [\"VisualStudio2019\"]",
   "        cpp_compiler_linux: [\"clang-11.0\"]",
   "        xcode_version: [\"12\"]",
   "        ndk_version: [\"r22b\"]",
   "        platform_version: [\"28\"]",
   "        build_tools_version: [\"28.0.3\"]",
   "    config:",
   "      standard:",
   "        apis: \"admob,analytics,auth,database,dynamic_links,firestore,functions,installations,messaging,remote_config,storage\"",
   "        mobile_test_on: \"real,virtual\"",
   "",
   "  ios:",
   "    matrix:",
   "      standard:",
   "        xcode_version: [\"12\"]",
   "      expanded:",
   "        xcode_version: [\"12\", \"12.4\"]",
   "",
   "build_configs:",
   "  windows: [\"ssl_lib\", \"build_type\", \"architecture_windows_linux\", \"msvc_runtime\", \"cpp_compiler_windows\"]",
   "  ubuntu: [\"ssl_lib\", \"build_type\", \"architecture_windows_linux\", \"cpp_compiler_linux\"]",
   "  macos: [\"ssl_lib\", \"architecture_macos\", \"xcode_version\"]",
   "  android: [\"os\", \"ndk_version\", \"build_tools\", \"platform_version\", \"android_device\"]",
   "  ios: [\"os\", \"xcode_version\", \"ios_device\"]",
   "  tvos: [\"os\", \"xcode_version\", \"tvos_device\"]",
   "",
   "devices:",
   "  android_min: \x7b type: real, model: \"Nexus10\", version: \"19\" \x7d",
   "  android_target: \x7b type: real, model: \"Pixel2\", version: \"28\" \x7d",
   "  android_latest: \x7b type: real, model: \"flame\", version: \"29\" \x7d",
   "  emulator_min: \x7b type: virtual, image: \"system-images;android-18;default;x86\" \x7d",
   "  emulator_target: \x7b type: virtual, image: \"system-images;android-28;google_apis;x86_64\" \x7d",
   "  emulator_latest: \x7b type: virtual, image: \"system-images;android-29;default;x86\" \x7d",
   "  ios_min: \x7b type: real, model: \"iphone8\", version: \"11.4\" \x7d",
   "  ios_target: \x7b type: real, model: \"iphone6s\", version: \"12.0\" \x7d",
   "  ios_latest: \x7b type: real, model: \"iphone11pro\", version: \"14.1\" \x7d",
   "  simulator_min: \x7b type: virtual, name: \"iPhone 6\", version: \"11.4\" \x7d",
   "  simulator_target: \x7b type: virtual, name: \"iPhone 8\", version: \"12.0\" \x7d",
   "  simulator_latest: \x7b type: virtual, name: \"iPhone 11\", version: \"14.4\" \x7d",
   "  tvos_simulator_target: \x7b type: virtual, name: \"Apple TV\", version: \"14.0\" \x7d"]

/-- The text itself, each line ended by a line feed. -/
def text : String :=
  String.ofList ((lines.map String.toList).flatMap (· ++ ['\n']))

theorem map_toList_cons {cs : List Char} {rest : List String} {others : List (List Char)}
    (read : rest.map String.toList = others) :
    (String.ofList cs :: rest).map String.toList = cs :: others := by
  rw [List.map_cons, read, String.toList_ofList]

/-- The document of the text is that of the characters which the lines spell. -/
theorem ofText?_text {characters : List (List Char)}
    (spelled : lines.map String.toList = characters) :
    Yaml.Node.ofText? text =
      ((Yaml.tokens? (characters.flatMap (· ++ ['\n']))).bind
        (Yaml.settleTokens · Yaml.Tree.ofTokens?)).map (·.map Yaml.Node.ofTree) := by
  rw [Yaml.Node.ofText?, text, String.toList_ofList, spelled]
  simp only [Yaml.settleTokens_eq]

end Builtin

/-- The catalog that is used when none is given is the one that its text is read as. -/
theorem parse_text : parse Builtin.text = .ok builtin := by
  have checked : (Yaml.Node.ofText? Builtin.text).join.any fun document =>
      (ofNode document).toOption = some builtin := by
    rw [Builtin.ofText?_text ?spelled]
    case spelled =>
      simp only [Builtin.lines]
      repeat apply Builtin.map_toList_cons
      exact List.map_nil
    decide +kernel
  obtain ⟨document, found, checked⟩ := (Option.any_eq_true _ _).mp checked
  have read : ofNode document = .ok builtin := Except.eq_ok_of_toOption (of_decide_eq_true checked)
  have valid : builtin.validate = .ok () := by decide +kernel
  refine Except.bind_eq_ok_iff.mpr ⟨builtin, ?_, Except.bind_eq_ok_iff.mpr
    ⟨(), Except.mapError_eq_ok_iff.mpr valid, rfl⟩⟩
  rw [Except.mapError_eq_ok_iff, ofText, Option.join_eq_some_iff.mp found]
  exact read

end Catalog

end WorkflowKit

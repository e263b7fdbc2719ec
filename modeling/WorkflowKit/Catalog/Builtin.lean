import WorkflowKit.Catalog.Basic

namespace WorkflowKit.Catalog

namespace Builtin

/-- Keys that every workflow has unless it defines them itself. -/
def desktopStandard : Settings :=
  .ofList
    [("os", .list ["ubuntu-latest", "macos-latest"]),
     ("build_type", .list ["Release", "Debug"]),
     ("architecture", .list ["x64", "x86"]),
     ("msvc_runtime", .list ["static", "dynamic"]),
     ("xcode_version", .list ["11.7"]),
     ("python_version", .list ["3.7"])]

def desktopExpanded : Settings :=
  .ofList
    [("os", .list ["ubuntu-latest", "macos-latest", "windows-latest"]),
     ("xcode_version", .list ["11.7", "12.4"])]

def androidStandard : Settings :=
  .ofList
    [("os", .list ["ubuntu-latest", "macos-latest", "windows-latest"]),
     ("architecture", .list ["x64"]),
     ("python_version", .list ["3.7"])]

def androidExpanded : Settings :=
  .ofList
    [("os", .list ["ubuntu-latest", "macos-latest", "windows-latest"])]

/-- Integration tests on all platforms and devices. -/
def integrationStandard : Settings :=
  .ofList
    [("os", .list ["ubuntu-latest", "macos-latest", "windows-latest"]),
     ("platform", .list ["Desktop", "Android", "iOS", "tvOS"]),
     ("ssl_lib", .list ["openssl", "boringssl"]),
     ("android_device", .list ["android_latest", "emulator_target"]),
     ("ios_device", .list ["ios_target", "simulator_target"]),
     ("tvos_device", .list ["tvos_simulator_target"]),
     ("build_type", .list ["Debug"]),
     ("architecture_windows_linux", .list ["x64"]),
     ("architecture_macos", .list ["x64"]),
     ("msvc_runtime", .list ["dynamic"]),
     ("cpp_compiler_windows", .list ["VisualStudio2019"]),
     ("cpp_compiler_linux", .list ["clang-11.0"]),
     ("xcode_version", .list ["12"]),
     ("ndk_version", .list ["r22b"]),
     ("platform_version", .list ["28"]),
     ("build_tools_version", .list ["28.0.3"])]

def integrationConfig : Settings :=
  .ofList
    [("apis",
      .text ("admob,analytics,auth,database,dynamic_links," ++
        "firestore,functions,installations,messaging,remote_config,storage")),
     ("mobile_test_on", .text "real,virtual")]

def iosStandard : Settings :=
  .ofList
    [("xcode_version", .list ["12"])]

def iosExpanded : Settings :=
  .ofList
    [("xcode_version", .list ["12", "12.4"])]

def workflows : SortedMap Workflow :=
  .ofList
    [("desktop", ⟨some ⟨desktopStandard, some desktopExpanded⟩, none⟩),
     ("android", ⟨some ⟨androidStandard, some androidExpanded⟩, none⟩),
     ("integration_tests", ⟨some ⟨integrationStandard, none⟩, some ⟨integrationConfig, none⟩⟩),
     ("ios", ⟨some ⟨iosStandard, some iosExpanded⟩, none⟩)]

/-- Build configurations, in the order in which reports print them. -/
def buildConfigs : SortedMap (List String) :=
  .ofList
    [("windows",
      ["ssl_lib", "build_type", "architecture_windows_linux", "msvc_runtime",
       "cpp_compiler_windows"]),
     ("ubuntu", ["ssl_lib", "build_type", "architecture_windows_linux", "cpp_compiler_linux"]),
     ("macos", ["ssl_lib", "architecture_macos", "xcode_version"]),
     ("android", ["os", "ndk_version", "build_tools", "platform_version", "android_device"]),
     ("ios", ["os", "xcode_version", "ios_device"]),
     ("tvos", ["os", "xcode_version", "tvos_device"])]

def farmDevice (model version : String) : Device :=
  ⟨.real, some model, some version, none, none⟩

/-- An emulator that runs a system image. -/
def emulator (image : String) : Device :=
  ⟨.virtual, none, none, some image, none⟩

/-- A simulator of a device with a name. -/
def simulator (name version : String) : Device :=
  ⟨.virtual, none, some version, none, some name⟩

def devices : Registry :=
  .ofList
    [("android_min", farmDevice "Nexus10" "19"),
     ("android_target", farmDevice "Pixel2" "28"),
     ("android_latest", farmDevice "flame" "29"),
     ("emulator_min", emulator "system-images;android-18;default;x86"),
     ("emulator_target", emulator "system-images;android-28;google_apis;x86_64"),
     ("emulator_latest", emulator "system-images;android-29;default;x86"),
     ("ios_min", farmDevice "iphone8" "11.4"),
     ("ios_target", farmDevice "iphone6s" "12.0"),
     ("ios_latest", farmDevice "iphone11pro" "14.1"),
     ("simulator_min", simulator "iPhone 6" "11.4"),
     ("simulator_target", simulator "iPhone 8" "12.0"),
     ("simulator_latest", simulator "iPhone 11" "14.4"),
     ("tvos_simulator_target", simulator "Apple TV" "14.0")]

end Builtin

/-- The catalog that is used when none is given. -/
def builtin : Catalog :=
  ⟨usualDefault, Builtin.workflows, Builtin.buildConfigs, Builtin.devices⟩

end WorkflowKit.Catalog

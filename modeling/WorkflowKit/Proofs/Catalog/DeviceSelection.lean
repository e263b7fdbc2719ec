import WorkflowKit.Matrix
import WorkflowKit.Proofs.Action
import WorkflowKit.Proofs.Text.Blank
import Mathlib.Tactic.SplitIfs

namespace WorkflowKit

namespace DeviceType

theorem ofName?_eq_some_iff {name : String} {type : DeviceType} :
    ofName? name = some type ↔ name = type.name := by
  unfold ofName?
  cases type with
  | real => split_ifs <;> simp_all [DeviceType.name]
  | virtual => split_ifs <;> simp_all [DeviceType.name]

theorem ofName?_eq_none_iff {name : String} :
    ofName? name = none ↔ ∀ type : DeviceType, name ≠ type.name := by
  simp only [Option.eq_none_iff_forall_ne_some, ne_eq, ofName?_eq_some_iff]

theorem name_ne_empty (type : DeviceType) : type.name ≠ "" := by
  cases type <;> decide

theorem name_inj {a b : DeviceType} : a.name = b.name ↔ a = b := by
  cases a <;> cases b <;> decide

/-- Holds of an entry that is neither blank nor the name of a type. -/
def IsStray (entry : String) : Prop :=
  Text.trim entry ≠ "" ∧ ∀ type : DeviceType, Text.trim entry ≠ type.name

instance : DecidablePred IsStray := fun entry =>
  decidable_of_iff (Text.trim entry ≠ "" ∧ ofName? (Text.trim entry) = none)
    (and_congr_right fun _ => ofName?_eq_none_iff)

/-- Holds of the types that are named among entries. -/
def Named (entries : List String) (type : DeviceType) : Prop :=
  ∃ entry ∈ entries, Text.trim entry = type.name

instance (entries : List String) : DecidablePred (Named entries) := fun type => by
  unfold Named
  infer_instance

theorem named_cons {entry : String} {entries : List String} {type : DeviceType} :
    Named (entry :: entries) type ↔ Text.trim entry = type.name ∨ Named entries type := by
  simp [Named]

/-- The types with the one that an entry names. -/
def addNamed (types : List DeviceType) (entry : String) : Except String (List DeviceType) := do
  let type ← parse entry
  return if types.contains type then types else types ++ [type]

/-- Reads entries after others, which have named some types. -/
def parseEntries (types : List DeviceType) (entries : List String) :
    Except String (List DeviceType) :=
  ((entries.map Text.trim).filter (· ≠ "")).foldlM addNamed types

theorem parseList_eq (names : String) :
    parseList names = parseEntries [] (Text.pieces ',' names) := rfl

/-- What comes of reading entries after others: the types that have been named, or the first entry
that is stray. -/
inductive Parsed (types : List DeviceType) (entries : List String) :
    Except String (List DeviceType) → Prop
  | named {found : List DeviceType} : entries.find? IsStray = none →
      (∀ type, type ∈ found ↔ type ∈ types ∨ Named entries type) → Parsed types entries (.ok found)
  | stray {entry : String} : entries.find? IsStray = some entry →
      Parsed types entries (.error (Text.trim entry))

theorem Parsed.cons {types known : List DeviceType} {entry : String} {entries : List String}
    {result : Except String (List DeviceType)} (parsed : Parsed known entries result)
    (legible : ¬ IsStray entry)
    (adds : ∀ type, type ∈ known ↔ type ∈ types ∨ Text.trim entry = type.name) :
    Parsed types (entry :: entries) result := by
  have first : (entry :: entries).find? IsStray = entries.find? IsStray :=
    List.find?_cons_of_neg (by simpa using legible)
  cases parsed with
  | named none found =>
    refine .named (first.trans none) fun type => ?_
    rw [found, adds, named_cons, or_assoc]
  | stray some => exact .stray (first.trans some)

/-- Entries are read one after the other: blank ones and repetitions add nothing, and the first one
that is no name of a type ends the reading. -/
theorem parsed_parseEntries (types : List DeviceType) (entries : List String) :
    Parsed types entries (parseEntries types entries) := by
  induction entries generalizing types with
  | nil => exact .named rfl fun type => by simp [Named]
  | cons entry entries ih =>
    -- The types known so far grow along the list, so the claim is about any types to begin with.
    by_cases blank : Text.trim entry = ""
    · have same : parseEntries types (entry :: entries) = parseEntries types entries := by
        simp [parseEntries, blank]
      rw [same]
      refine (ih types).cons (fun stray => stray.1 blank) fun type => ?_
      simp [blank, (name_ne_empty type).symm]
    · have next : parseEntries types (entry :: entries) =
          addNamed types (Text.trim entry) >>= fun known => parseEntries known entries := by
        simp [parseEntries, blank]
      rw [next]
      cases named : ofName? (Text.trim entry) with
      | none =>
        have stray : IsStray entry := ⟨blank, ofName?_eq_none_iff.mp named⟩
        have failed : addNamed types (Text.trim entry) = .error (Text.trim entry) := by
          simp [addNamed, parse, named, bind, Except.bind]
        rw [failed]
        exact .stray (List.find?_cons_of_pos (by simpa using stray))
      | some type =>
        have name := ofName?_eq_some_iff.mp named
        have added : addNamed types (Text.trim entry) =
            .ok (if types.contains type then types else types ++ [type]) := by
          simp [addNamed, parse, named, bind, Except.bind, pure, Except.pure]
        rw [added]
        refine (ih _).cons (fun stray => stray.2 type name) fun other => ?_
        rw [name, name_inj]
        split_ifs with known
        · have member : type ∈ types := by simpa using known
          exact ⟨Or.inl, fun either => either.elim id fun same => same ▸ member⟩
        · rw [List.mem_append, List.mem_singleton, eq_comm (a := other)]

theorem parseList_parsed (names : String) :
    Parsed [] (Text.pieces ',' names) (parseList names) :=
  parseList_eq names ▸ parsed_parseEntries [] (Text.pieces ',' names)

/-- The first stray entry is the one that is told of. -/
theorem parseList_eq_error_iff {names name : String} :
    parseList names = .error name ↔
      ((Text.pieces ',' names).find? IsStray).map Text.trim = some name := by
  have parsed := parseList_parsed names
  generalize parseList names = result at parsed
  cases parsed with
  | named none => simp [none]
  | stray some => simp [some]

/-- A list is read exactly if it has no stray entry. -/
theorem exists_parseList_iff {names : String} :
    (∃ types, parseList names = .ok types) ↔ ∀ entry ∈ Text.pieces ',' names, ¬ IsStray entry := by
  have parsed := parseList_parsed names
  generalize parseList names = result at parsed
  cases parsed with
  | @named found none =>
    refine iff_of_true ⟨found, rfl⟩ ?_
    simpa using none
  | stray some =>
    refine iff_of_false (fun ⟨_, same⟩ => by cases same) fun legible => ?_
    exact legible _ (List.mem_of_find?_eq_some some) (by simpa using List.find?_some some)

/-- The types of a list are those that are named between its commas. -/
theorem mem_iff_of_parseList {names : String} {types : List DeviceType}
    (read : parseList names = .ok types) (type : DeviceType) :
    type ∈ types ↔ Named (Text.pieces ',' names) type := by
  have parsed := parseList_parsed names
  rw [read] at parsed
  cases parsed with
  | named none found => simpa using found type

end DeviceType

namespace Registry

/-- Keeps the devices of some types, and warns of what is no device. -/
def keep (registry : Registry) (types : List DeviceType) (ids : List String) :
    Action (List String) := do
  let selection := registry.select types ids
  Action.log selection.events
  return selection.kept

/-- The warning of an identifier that is not registered. -/
def warning (id : String) : Notice :=
  .event ⟨.warn, .devices, s!"dropping unregistered test device {id}"⟩

variable (registry : Registry) (ids : List String)

theorem narrow_eq (names : String) :
    registry.narrow names ids =
      match DeviceType.parseList names with
      | .error name => .fail (.input (.unknownDeviceType name))
      | .ok types => registry.keep types ids := rfl

theorem keep_eq (types : List DeviceType) :
    registry.keep types ids =
      { result := .ok (ids.filter fun id => (registry.get? id).any fun device => device.type ∈ types)
        notices := (ids.filter fun id => (registry.get? id).isNone).map warning
        gitRuns := [] } := by
  simp [keep, select, Selection.events, Action.log, warning, bind, Action.andThen, pure, Action.done]

/-- Which types are wanted counts, and not how they are listed. -/
theorem keep_congr {types others : List DeviceType}
    (same : ∀ type, type ∈ types ↔ type ∈ others) :
    registry.keep types ids = registry.keep others ids := by
  simp only [keep_eq, same]

/-- What is kept is registered, so that nothing is warned of again. -/
theorem keep_bind_keep (first second : List DeviceType) :
    registry.keep first ids >>= registry.keep second =
      registry.keep (first.filter (· ∈ second)) ids := by
  have kept : (registry.keep first ids).result =
      .ok (ids.filter fun id => (registry.get? id).any fun device => device.type ∈ first) := by
    rw [keep_eq]
  have both (id : String) :
      (((registry.get? id).any fun device => device.type ∈ second) &&
        (registry.get? id).any fun device => device.type ∈ first) =
      (registry.get? id).any fun device => device.type ∈ first.filter (· ∈ second) := by
    cases registry.get? id with
    | none => rfl
    | some device => simp [Bool.and_comm]
  have registered (id : String) :
      ((registry.get? id).isNone &&
        (registry.get? id).any fun device => device.type ∈ first) = false := by
    cases registry.get? id <;> rfl
  rw [Action.bind_of_ok kept]
  simp only [keep_eq, List.filter_filter, both, registered, List.filter_false, List.map_nil,
    List.append_nil]

/-- Devices that were kept are kept again, and nothing more is told. -/
theorem keep_bind_self (types : List DeviceType) :
    registry.keep types ids >>= registry.keep types = registry.keep types ids := by
  rw [keep_bind_keep]
  exact registry.keep_congr ids fun type => by simp

/-- A registered device is either real or virtual. -/
theorem kept_append_perm :
    ((registry.select [.real] ids).kept ++ (registry.select [.virtual] ids).kept).Perm
      (ids.filter fun id => (registry.get? id).isSome) := by
  have split := List.filter_append_perm
    (fun id => (registry.get? id).any fun device => device.type = .real)
    (ids.filter fun id => (registry.get? id).isSome)
  have real (id : String) :
      (((registry.get? id).any fun device => device.type = .real) && (registry.get? id).isSome) =
        (registry.get? id).any fun device => [DeviceType.real].contains device.type := by
    cases registry.get? id with
    | none => rfl
    | some device => simp
  have virtual (id : String) :
      ((!(registry.get? id).any fun device => device.type = .real) && (registry.get? id).isSome) =
        (registry.get? id).any fun device => [DeviceType.virtual].contains device.type := by
    cases registry.get? id with
    | none => rfl
    | some device => cases type : device.type <;> simp [type]
  simpa only [select, List.filter_filter, real, virtual] using split

/-- Holds of the registered devices of which the type is named in a list. -/
def Keeps (names id : String) : Prop :=
  ∃ device ∈ registry.get? id, DeviceType.Named (Text.pieces ',' names) device.type

instance (names : String) : DecidablePred (registry.Keeps names) := fun id => by
  unfold Keeps
  infer_instance

theorem keep_eq_of_parseList {names : String} {types : List DeviceType}
    (read : DeviceType.parseList names = .ok types) :
    registry.keep types ids =
      { result := .ok (ids.filter (registry.Keeps names))
        notices := (ids.filter fun id => (registry.get? id).isNone).map warning
        gitRuns := [] } := by
  have same (id : String) : ((registry.get? id).any fun device => device.type ∈ types) =
      decide (registry.Keeps names id) := by
    cases found : registry.get? id with
    | none => simp [Keeps, found]
    | some device => simp [Keeps, found, DeviceType.mem_iff_of_parseList read]
  simp only [keep_eq, same]

/-- A list of type names is read exactly if none of its entries is stray, and else its first stray
entry is told. Of the devices those stay, in their order, that are registered with a type that is
named, and a warning is given of each that is not registered. So only the types that are named matter;
lists one after another keep what the types that are common to them do, and of the registered devices
each is kept as a real one or as a virtual one. -/
theorem narrow_by_names (names : String) :
    ((∃ types, DeviceType.parseList names = .ok types) ↔
        ∀ entry ∈ Text.pieces ',' names, ¬ DeviceType.IsStray entry) ∧
      (∀ name, DeviceType.parseList names = .error name ↔
        ((Text.pieces ',' names).find? DeviceType.IsStray).map Text.trim = some name) ∧
      (∀ name, DeviceType.parseList names = .error name →
        ∃ failure, registry.narrow names ids = .fail failure ∧
          failure.message = "invalid input: unknown device type '" ++ name ++
            "', expected 'real' or 'virtual'") ∧
      (∀ types, DeviceType.parseList names = .ok types →
        registry.narrow names ids =
          { result := .ok (ids.filter (registry.Keeps names))
            notices := (ids.filter fun id => (registry.get? id).isNone).map warning
            gitRuns := [] } ∧
        registry.narrow names ids >>= registry.narrow names = registry.narrow names ids ∧
        ∀ other others, DeviceType.parseList other = .ok others →
          registry.narrow names ids >>= registry.narrow other =
            registry.keep (types.filter (· ∈ others)) ids ∧
          ((∀ type, DeviceType.Named (Text.pieces ',' other) type ↔
              DeviceType.Named (Text.pieces ',' names) type) →
            registry.narrow other ids = registry.narrow names ids)) ∧
      ∃ real virtual, (registry.narrow "real" ids).result = .ok real ∧
        (registry.narrow "virtual" ids).result = .ok virtual ∧
        (real ++ virtual).Perm (ids.filter fun id => (registry.get? id).isSome) := by
  -- Once a list is read, only the types in it count.
  have narrowed {list : String} {types : List DeviceType}
      (read : DeviceType.parseList list = .ok types) :
      registry.narrow list = registry.keep types := by
    funext ids
    rw [narrow_eq, read]
  refine ⟨DeviceType.exists_parseList_iff, fun name => DeviceType.parseList_eq_error_iff,
    fun name failed => ?_, fun types read => ⟨?_, ?_, fun other others readOther => ⟨?_, ?_⟩⟩, ?_⟩
  · exact ⟨.input (.unknownDeviceType name), by rw [narrow_eq, failed], rfl⟩
  · rw [narrowed read, keep_eq_of_parseList registry ids read]
  · rw [narrowed read, keep_bind_self]
  · rw [narrowed read, narrowed readOther, keep_bind_keep]
  · intro same
    rw [narrowed read, narrowed readOther]
    refine registry.keep_congr ids fun type => ?_
    rw [DeviceType.mem_iff_of_parseList readOther, DeviceType.mem_iff_of_parseList read, same]
  · have real : DeviceType.parseList "real" = .ok [.real] := by decide +kernel
    have virtual : DeviceType.parseList "virtual" = .ok [.virtual] := by decide +kernel
    rw [narrowed real, narrowed virtual]
    exact ⟨_, _, rfl, rfl, registry.kept_append_perm ids⟩

end Registry

end WorkflowKit

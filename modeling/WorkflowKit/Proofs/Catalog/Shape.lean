import WorkflowKit.Proofs.Catalog.Builtin
import WorkflowKit.Proofs.Catalog.Overlay

namespace WorkflowKit

theorem Kind.mem_all (kind : Kind) : kind ∈ all := by
  cases kind <;> decide

/-- The kind of block in which a setting may stand: a list in a matrix, a text in a config. -/
def Setting.shape : Setting → Kind
  | list _ => .matrix
  | text _ => .config

theorem Setting.suits_iff {value : Setting} {kind : Kind} :
    value.suits kind = true ↔ value.shape = kind := by
  cases value <;> cases kind <;> simp [suits, shape]

/-- A value that is given in place of another one has the shape of its kind. -/
theorem Setting.given_shape (raw : String) (kind : Kind) : (given raw kind).shape = kind := by
  cases kind <;> rfl

/-- Holds of settings of which each has the shape of a kind. -/
def Settings.Fit (settings : Settings) (kind : Kind) : Prop :=
  ∀ key value, settings.get? key = some value → value.shape = kind

theorem Settings.fit_iff {settings : Settings} {kind : Kind} :
    Settings.Fit settings kind ↔ ∀ entry ∈ settings.entries, entry.2.shape = kind := by
  constructor
  · intro fit entry member
    exact fit entry.1 entry.2 ((settings.mem_entries_iff _ _).mp member)
  · intro fit key value found
    exact fit (key, value) ((settings.mem_entries_iff key value).mpr found)

theorem Settings.fit_empty (kind : Kind) : Settings.Fit .empty kind := by
  intro key value found
  simp at found

theorem Settings.fit_union {upper lower : Settings} {kind : Kind}
    (upperFit : Settings.Fit upper kind) (lowerFit : Settings.Fit lower kind) :
    Settings.Fit (upper.union lower) kind := by
  intro key value found
  rw [SortedMap.get?_union, Option.or_eq_some_iff] at found
  rcases found with above | ⟨_, below⟩
  · exact upperFit key value above
  · exact lowerFit key value below

theorem Settings.fit_foldr_union {layers : List Settings} {kind : Kind}
    (fit : ∀ settings ∈ layers, Settings.Fit settings kind) :
    Settings.Fit (layers.foldr SortedMap.union .empty) kind := by
  induction layers with
  | nil => exact Settings.fit_empty kind
  | cons settings rest ih =>
    exact Settings.fit_union (fit settings List.mem_cons_self)
      (ih fun other member => fit other (List.mem_cons_of_mem _ member))

namespace Block

/-- Holds of a block whose settings have the shape of its kind. -/
structure Fit (block : Block) (kind : Kind) : Prop where
  standard : Settings.Fit block.standard kind
  expanded : ∀ settings, block.expanded = some settings → Settings.Fit settings kind

theorem misshapen?_eq_none_iff {block : Block} {kind : Kind} :
    block.misshapen? kind = none ↔ block.Fit kind := by
  have all : block.misshapen? kind = none ↔ ∀ entry ∈ block.settings, entry.2.shape = kind := by
    simp [misshapen?, Setting.suits_iff]
  obtain ⟨standard, expanded⟩ := block
  rw [all]
  constructor
  · intro fit
    refine ⟨Settings.fit_iff.mpr fun entry member => fit entry ?_, fun settings given =>
      Settings.fit_iff.mpr fun entry member => fit entry ?_⟩
    · exact List.mem_append_left _ member
    · have overlaid : expanded = some settings := given
      exact List.mem_append_right _ (by simpa [overlaid] using member)
  · rintro ⟨standardFit, expandedFit⟩ entry member
    rcases List.mem_append.mp member with inStandard | inExpanded
    · exact Settings.fit_iff.mp standardFit entry inStandard
    · cases expanded with
      | none => simp at inExpanded
      | some settings => exact Settings.fit_iff.mp (expandedFit settings rfl) entry inExpanded

theorem fit_standardOf {block : Option Block} {kind : Kind}
    (fit : ∀ given, block = some given → given.Fit kind) :
    Settings.Fit (standardOf block) kind := by
  cases block with
  | none => exact Settings.fit_empty kind
  | some given => exact (fit given rfl).standard

theorem fit_expandedOf {block : Option Block} {kind : Kind} (expanded : Bool)
    (fit : ∀ given, block = some given → given.Fit kind) :
    Settings.Fit (expandedOf expanded block) kind := by
  cases expanded with
  | false => exact Settings.fit_empty kind
  | true =>
    cases block with
    | none => exact Settings.fit_empty kind
    | some given =>
      cases overlaid : given.expanded with
      | none => simpa [expandedOf, overlaid] using Settings.fit_empty kind
      | some settings => simpa [expandedOf, overlaid] using (fit given rfl).expanded settings overlaid

end Block

/-- A workflow is clean exactly if each of its blocks has values of the right shape only. -/
theorem Workflow.offence?_eq_none_iff {name : String} {workflow : Workflow} :
    workflow.offence? name = none ↔
      ∀ kind block, workflow.block kind = some block → block.Fit kind := by
  simp [Workflow.offence?, Kind.mem_all, Option.bind_eq_none_iff, Block.misshapen?_eq_none_iff]

namespace Catalog

/-- Holds of a catalog in which every block of every workflow has values of its shape. -/
def WellShaped (catalog : Catalog) : Prop :=
  ∀ workflow kind block, catalog.block? workflow kind = some block → block.Fit kind

/-- What is validated is well shaped, in the standard and the expanded settings of both kinds. -/
theorem wellShaped_of_validate {catalog : Catalog} (valid : catalog.validate = .ok ()) :
    catalog.WellShaped := by
  have clean : catalog.offence? = none := by
    unfold validate at valid
    split at valid
    · cases valid
    · assumption
  have workflows : ∀ entry ∈ catalog.workflows.entries, entry.2.offence? entry.1 = none := by
    unfold offence? at clean
    split at clean
    · cases clean
    · split at clean
      · cases clean
      · simpa using clean
  intro name kind block found
  obtain ⟨workflow, atName, ofKind⟩ := Option.bind_eq_some_iff.mp found
  have entry := (catalog.workflows.mem_entries_iff name workflow).mpr atName
  exact Workflow.offence?_eq_none_iff.mp (workflows _ entry) kind block ofKind

/-- Holds of the catalogs that the program works with: those that are read from a text, and the one
that is its own. -/
def Loaded (catalog : Catalog) : Prop :=
  (∃ text, parse text = .ok catalog) ∨ catalog = builtin

/-- A catalog that is read from a text has been found valid. -/
theorem validate_of_parse {text : String} {catalog : Catalog} (read : parse text = .ok catalog) :
    catalog.validate = .ok () := by
  unfold parse at read
  cases drafted : ofText text with
  | error fault => simp [drafted, Except.mapError, bind, Except.bind] at read
  | ok draft =>
    cases checked : draft.validate with
    | error offence => simp [drafted, checked, Except.mapError, bind, Except.bind] at read
    | ok _ =>
      simp only [drafted, checked, Except.mapError, bind, Except.bind, Except.ok.injEq] at read
      rw [← read, checked]

/-- Every catalog that the program works with has values of the right shapes only. -/
theorem Loaded.wellShaped {catalog : Catalog} (loaded : catalog.Loaded) : catalog.WellShaped := by
  rcases loaded with ⟨text, read⟩ | own
  · exact wellShaped_of_validate (validate_of_parse read)
  · exact own ▸ wellShaped_of_validate (validate_of_parse parse_text)

theorem WellShaped.overlay {catalog : Catalog} (shaped : catalog.WellShaped) (query : Query) :
    Settings.Fit (catalog.overlay query) query.kind := by
  refine Settings.fit_foldr_union ?_
  simp only [stack, List.mem_cons, List.not_mem_nil, or_false]
  rintro settings (rfl | rfl | rfl | rfl)
  · exact Block.fit_expandedOf _ (shaped _ _)
  · exact Block.fit_standardOf (shaped _ _)
  · exact Block.fit_expandedOf _ (shaped _ _)
  · exact Block.fit_standardOf (shaped _ _)

/-- Whatever is found for a query has the shape of the kind that was asked for. -/
theorem WellShaped.ask_shape {catalog : Catalog} (shaped : catalog.WellShaped) {query : Query}
    {value : Setting} (found : (catalog.ask query).result = .ok value) :
    value.shape = query.kind := by
  rw [ask_result] at found
  cases inLayers : (catalog.overlay query).get? query.key with
  | none => simp [inLayers] at found
  | some first =>
    simp only [inLayers, Option.elim_some, Except.ok.injEq] at found
    exact found ▸ shaped.overlay query query.key first inLayers

end Catalog

end WorkflowKit

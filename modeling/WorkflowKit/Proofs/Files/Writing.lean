import WorkflowKit.Proofs.Except
import WorkflowKit.Proofs.Files.Paths

namespace WorkflowKit

namespace Files

/-- Entries with another one in the place of that at a location. -/
def replaced (location : Location) (entry : Entry) (entries : List (Location × Entry)) :
    List (Location × Entry) :=
  entries.map fun (key, old) => (key, if key = location then entry else old)

theorem lookup_replaced (location other : Location) (entry : Entry)
    (entries : List (Location × Entry)) :
    (replaced location entry entries).lookup other =
      if other = location then (entries.lookup location).map fun _ => entry
      else entries.lookup other := by
  induction entries with
  | nil => simp [replaced]
  | cons first rest ih =>
    obtain ⟨key, old⟩ := first
    simp only [replaced, List.map_cons, List.lookup_cons] at ih ⊢
    by_cases found : other = key
    · subst found
      by_cases same : other = location <;> simp [same]
    · rw [beq_false_of_ne found, ih]
      by_cases same : other = location
      · subst same
        simp [beq_false_of_ne found]
      · simp [same]

@[simp]
theorem replaced_replaced (location : Location) (first second : Entry)
    (entries : List (Location × Entry)) :
    replaced location second (replaced location first entries) =
      replaced location second entries := by
  simp only [replaced, List.map_map]
  refine List.map_congr_left fun (key, old) _ => ?_
  by_cases same : key = location <;> simp [same]

theorem replaced_of_lookup_none {location : Location} {entries : List (Location × Entry)}
    (absent : entries.lookup location = none) (entry : Entry) :
    replaced location entry entries = entries := by
  induction entries with
  | nil => rfl
  | cons first rest ih =>
    obtain ⟨key, old⟩ := first
    by_cases found : location = key
    · simp [found] at absent
    · rw [List.lookup_cons, beq_false_of_ne found] at absent
      simpa [replaced, Ne.symm found] using ih absent

theorem set_of_some {files : Files} {location : Location} {old : Entry}
    (present : files.entries.lookup location = some old) (entry : Entry) :
    files.set location entry = ⟨files.workingDirectory, replaced location entry files.entries⟩ := by
  simp [set, replaced, present]

theorem set_of_none {files : Files} {location : Location}
    (absent : files.entries.lookup location = none) (entry : Entry) :
    files.set location entry = ⟨files.workingDirectory, files.entries ++ [(location, entry)]⟩ := by
  simp [set, absent]

@[simp]
theorem workingDirectory_set (files : Files) (location : Location) (entry : Entry) :
    (files.set location entry).workingDirectory = files.workingDirectory := rfl

theorem lookup_set (files : Files) (location other : Location) (entry : Entry) :
    (files.set location entry).entries.lookup other =
      if other = location then some entry else files.entries.lookup other := by
  cases found : files.entries.lookup location with
  | some old => simp [set_of_some found, lookup_replaced, found]
  | none =>
    rw [set_of_none found, List.lookup_append]
    by_cases same : other = location
    · simp [same, found]
    · simp [same, List.lookup_cons, beq_false_of_ne same]

@[simp]
theorem set_set (files : Files) (location : Location) (first second : Entry) :
    (files.set location first).set location second = files.set location second := by
  have present : (files.set location first).entries.lookup location = some first := by
    simp [lookup_set]
  rw [set_of_some present]
  cases found : files.entries.lookup location with
  | some old => simp [set_of_some found]
  | none =>
    have kept := replaced_of_lookup_none found second
    simp only [replaced] at kept
    simp [set_of_none found, replaced, kept]

variable {files : Files} {location : Location}

/-- What stands at a location is what was set there last, and nothing else has changed. Only the
working directory and those above it stay what they are. -/
theorem get?_set (free : files.get? location ≠ some .directory) (entry : Entry)
    (other : Location) :
    (files.set location entry).get? other =
      if other = location then some entry else files.get? other := by
  have outside : ¬ location.isPrefixOf files.workingDirectory := fun above =>
    free (if_pos above)
  by_cases above : other.isPrefixOf files.workingDirectory
  · have different : other ≠ location := by
      rintro rfl
      exact outside above
    simp [get?, above, different]
  · simp [get?, above, lookup_set]

/-- No way leads over a file, so setting one closes none. -/
theorem walk_set (free : files.get? location ≠ some .directory) (content : Octets)
    {names : List String} {start goal : Location} (walked : files.walk start names = .ok goal) :
    (files.set location (.file content)).walk start names = .ok goal := by
  obtain ⟨opened, short, reached⟩ := walk_eq_ok_iff.mp walked
  refine walk_eq_ok_iff.mpr ⟨fun above member => ?_, short, reached⟩
  have different : above ≠ location := by
    rintro rfl
    exact free (opened above member)
  rw [get?_set free, if_neg different]
  exact opened above member

theorem follow_set (free : files.get? location ≠ some .directory) (content : Octets)
    {path : String} {names : List String} {goal : Location}
    (followed : files.follow path names = .ok goal) :
    (files.set location (.file content)).follow path names = .ok goal := by
  obtain ⟨given, walked⟩ := follow_eq_ok_iff.mp followed
  exact follow_eq_ok_iff.mpr ⟨given, walk_set free content walked⟩

/-- Writing a file does not change where a path leads. -/
theorem target_set {path : String} (found : files.target path = .ok location) (content : Octets) :
    (files.set location (.file content)).target path = .ok location := by
  obtain ⟨closed, located, free⟩ := target_eq_ok_iff.mp found
  refine target_eq_ok_iff.mpr ⟨closed, follow_set free content located, ?_⟩
  simp [get?_set free]

/-- A path at which a file is written becomes that of a file with just the new content. -/
theorem read_set {path : String} (found : files.target path = .ok location) (content : Octets) :
    (files.set location (.file content)).read path = .ok content := by
  obtain ⟨_, located, free⟩ := target_eq_ok_iff.mp found
  have located' : (files.set location (.file content)).locate path = .ok location :=
    follow_set free content located
  simp [read, located', get?_set free, bind, Except.bind]

/-- Adds to the content of the file at a path. -/
def append (files : Files) (path : String) (more : Octets) : Except FileFault Files := do
  let content ← files.read path
  files.write path (content ++ more)

theorem append_set {path : String} (found : files.target path = .ok location)
    (content more : Octets) :
    (files.set location (.file content)).append path more =
      .ok (files.set location (.file (content ++ more))) := by
  simp [append, read_set found, write, target_set found, bind, Except.bind, Except.map]

/-- Adds pieces to the file at a path as they come, and counts their octets. -/
def appendAll (path : String) : List Octets → Files × Nat → Except FileFault (Files × Nat)
  | [], done => .ok done
  | piece :: pieces, (files, count) => do
    let files ← files.append path piece
    appendAll path pieces (files, count + piece.length)

/-- Makes or empties the file at a path, and fills it with pieces. -/
def receive (files : Files) (path : String) (pieces : List Octets) :
    Except FileFault (Files × Nat) := do
  let files ← files.write path []
  appendAll path pieces (files, 0)

/-- The content grows by each piece, and the count stays its length. -/
theorem appendAll_set {path : String} (found : files.target path = .ok location)
    (pieces : List Octets) (content : Octets) :
    appendAll path pieces (files.set location (.file content), content.length) =
      .ok (files.set location (.file (content ++ pieces.flatten)),
        (content ++ pieces.flatten).length) := by
  induction pieces generalizing content with
  | nil => simp [appendAll]
  | cons piece pieces ih =>
    have next := ih (content ++ piece)
    rw [List.length_append] at next
    simp only [appendAll, append_set found, bind, Except.bind, next, List.flatten_cons,
      List.append_assoc]

/-- It does not matter in which pieces a content comes: the file is the one that has all of it. -/
theorem receive_eq (files : Files) (path : String) (pieces : List Octets) :
    files.receive path pieces =
      (files.write path pieces.flatten).map fun after => (after, pieces.flatten.length) := by
  simp only [receive, write]
  cases found : files.target path with
  | error fault => rfl
  | ok location => exact appendAll_set found pieces []

/-- What it means that the file at a path was given a content: the path leads to a file with just
that content, nothing else has changed, and the pieces in which it came make no difference. -/
structure Written (files : Files) (path : String) (content : Octets) (after : Files) : Prop where
  read : after.read path = .ok content
  directory : after.workingDirectory = files.workingDirectory
  elsewhere : ∃ location, files.locate path = .ok location ∧
    ∀ other, other ≠ location → after.get? other = files.get? other
  pieces : ∀ pieces : List Octets, pieces.flatten = content →
    files.receive path pieces = .ok (after, content.length)

/-- A write that succeeds has written the file, and nothing else has changed. -/
theorem written_of_write {path : String} {content : Octets} {after : Files}
    (done : files.write path content = .ok after) : files.Written path content after := by
  have whole := done
  cases found : files.target path with
  | error fault => simp [write, found, Except.map] at done
  | ok location =>
    simp only [write, found, Except.map, Except.ok.injEq] at done
    subst done
    obtain ⟨_, located, free⟩ := target_eq_ok_iff.mp found
    refine ⟨read_set found content, rfl, ⟨location, located, ?_⟩, ?_⟩
    · intro other different
      rw [get?_set free, if_neg different]
    · rintro pieces rfl
      rw [receive_eq, whole]
      rfl

/-- An artifact can be saved anywhere: at a path from the root, and above the working directory. -/
example :
    let files : Files := ⟨["home", "work"], [(["tmp"], .directory)]⟩
    files.write "/tmp/a.zip" [0x50] = .ok (files.set ["tmp", "a.zip"] (.file [0x50])) ∧
      files.write "../a.zip" [0x50] = .ok (files.set ["home", "a.zip"] (.file [0x50])) := by
  exact ⟨Except.eq_ok_of_toOption (by decide +kernel), Except.eq_ok_of_toOption (by decide +kernel)⟩

theorem get?_makeDirectory (files : Files) (location other : Location) :
    (files.makeDirectory location).get? other =
      if other = location then some ((files.get? location).getD .directory)
      else files.get? other := by
  unfold makeDirectory
  cases found : files.get? location with
  | none =>
    have free : files.get? location ≠ some .directory := by simp [found]
    simp [get?_set free]
  | some entry =>
    by_cases same : other = location
    · simp [same, found]
    · simp [same]

/-- Holds of files among which there is nothing but directories. -/
def Bare (files : Files) : Prop :=
  ∀ location, (files.get? location).getD .directory = .directory

theorem bare_of_entries_nil (none : files.entries = []) : files.Bare := by
  intro location
  simp only [get?, none, List.lookup_nil]
  split_ifs <;> rfl

theorem Bare.makeDirectory (bare : files.Bare) (location : Location) :
    (files.makeDirectory location).Bare := by
  intro other
  rw [get?_makeDirectory, bare location]
  split_ifs
  · rfl
  · exact bare other

/-- When an entry is placed, there are directories on the way to it, and all others that there were. -/
theorem get?_placeFrom (bare : files.Bare) {entry : Entry} {names : List String}
    (once : location.after names ∉ location.passed names)
    (free : files.get? (location.after names) ≠ some .directory) :
    (files.placeFrom entry location names).get? (location.after names) = some entry ∧
      (∀ above ∈ location.passed names,
        (files.placeFrom entry location names).get? above = some .directory) ∧
      ∀ other, other ≠ location.after names → files.get? other = some .directory →
        (files.placeFrom entry location names).get? other = some .directory := by
  -- Every directory on the way is made before the next step, and no later step undoes it.
  induction names generalizing files location with
  | nil =>
    have free' : files.get? location ≠ some .directory := free
    refine ⟨?_, fun above member => ?_, fun other different opened => ?_⟩
    · simp [placeFrom, Location.after, get?_set free']
    · cases member
    · have different' : other ≠ location := different
      simp [placeFrom, get?_set free', different', opened]
  | cons name names ih =>
    obtain ⟨first, later⟩ := List.ne_and_not_mem_of_not_mem_cons once
    have first' : (location.next name).after names ≠ location := first
    have free' : (files.makeDirectory location).get? ((location.next name).after names) ≠
        some .directory := by
      rw [get?_makeDirectory, if_neg first']
      exact free
    obtain ⟨placed, opened, kept⟩ := ih (bare.makeDirectory location) later free'
    refine ⟨placed, List.forall_mem_cons.mpr ⟨?_, opened⟩, fun other different was => ?_⟩
    · refine kept location (Ne.symm first) ?_
      rw [get?_makeDirectory, if_pos rfl, bare location]
    · refine kept other different ?_
      rw [get?_makeDirectory]
      split_ifs with same
      · rw [← same, was]
        rfl
      · exact was

@[simp]
theorem workingDirectory_placeFrom (files : Files) (entry : Entry) (location : Location)
    (names : List String) :
    (files.placeFrom entry location names).workingDirectory = files.workingDirectory := by
  induction names generalizing files location with
  | nil => rfl
  | cons name names ih =>
    rw [placeFrom, ih, makeDirectory]
    split <;> rfl

theorem start_place (files : Files) (path : String) (entry : Entry) :
    (files.place path entry).start path = files.start path := by
  simp [start, place]

/-- A content that is placed at a path is read there, when the path can be followed at all. -/
theorem read_place {path : String} (alone : files.entries = []) (given : IsGiven path)
    (unclosed : isClosed path = false) (short : ∀ name ∈ names path, name.utf8ByteSize ≤ nameLimit)
    (once : (files.start path).after (names path) ∉ (files.start path).passed (names path))
    (free : files.get? ((files.start path).after (names path)) ≠ some .directory)
    (content : Octets) : (files.place path (.file content)).read path = .ok content := by
  obtain ⟨placed, opened, _⟩ :=
    @get?_placeFrom _ _ (bare_of_entries_nil alone) (.file content) _ once free
  have located : (files.place path (.file content)).locate path =
      .ok ((files.start path).after (names path)) := by
    rw [locate_of_not_isClosed unclosed, follow_eq_ok_iff, start_place, walk_eq_ok_iff]
    exact ⟨given, opened, short, rfl⟩
  have found : (files.place path (.file content)).get? ((files.start path).after (names path)) =
      some (.file content) := placed
  simp only [read, located, bind, Except.bind, found]

end Files

end WorkflowKit

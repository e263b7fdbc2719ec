import WorkflowKit.Log
import WorkflowKit.Text.Blank
import WorkflowKit.Text.Natural
import WorkflowKit.Text.Pieces

namespace WorkflowKit

/-- Shows the events of a target up to a rank. A directive without a target is for all events. -/
structure Directive where
  target : Option String
  rank : Nat
  deriving DecidableEq, Repr

namespace Directive

/-- The ranks that levels have by name. The first one shows nothing. -/
def ranks : List (String × Nat) :=
  [("off", 0), ("error", 1), ("warn", 2), ("info", 3), ("debug", 4), ("trace", 5)]

def highestRank : Nat := 5

/-- The rank of a level, which is given by its number or by its name in letters of either case. -/
def rank? (text : String) : Option Nat :=
  match (Text.natural? text).filter (· ≤ highestRank) with
  | some rank => some rank
  | none => ranks.lookup (text.map Char.toLower)

/-- A level at the end of a directive. An empty one shows everything. -/
def lastRank? (text : List Char) : Option Nat :=
  if text.isEmpty then some highestRank else rank? (String.ofList text)

/-- Characters with which a directive may begin. Characters outside ASCII count as letters. -/
def startsName (c : Char) : Bool :=
  c.isAlphanum || c = '-' || c = ':' || c = '_' || 0x80 ≤ c.toNat

/-- The number of characters of the description of a span, up to its closing bracket. A description
may end with fields between braces. -/
def spanLength? (cs : List Char) : Option Nat :=
  let name := cs.takeWhile fun c => c ≠ ']' && c ≠ '\x7b'
  match cs.dropWhile fun c => c ≠ ']' && c ≠ '\x7b' with
  | ']' :: _ => some name.length
  | _ :: inside =>
    let fields := inside.takeWhile (· ≠ '\x7d')
    match inside.dropWhile (· ≠ '\x7d') with
    | _ :: ']' :: _ => if fields.isEmpty then none else some (name.length + fields.length + 2)
    | _ => none
  | [] => none

/-- Reads a directive. Directives for spans are `some none`: there are no spans, so they show
nothing. Places are found in the directive without the blanks around it and looked up with them, so
a blank in front spoils a directive. -/
def parse? (text : String) : Option (Option Directive) :=
  let whole := text.toList
  let cs := Text.trimmed whole
  match cs.head? with
  | none => none
  | some first =>
    if first ≠ '[' && !startsName first then none
    else
      let before := cs.takeWhile fun c => c ≠ '=' && c ≠ '['
      let target := String.ofList (whole.take before.length)
      match cs.dropWhile fun c => c ≠ '=' && c ≠ '[' with
      | [] =>
        match rank? text with
        | some rank => some (some ⟨none, rank⟩)
        | none => some (some ⟨some text, highestRank⟩)
      | '=' :: _ =>
        (lastRank? (whole.drop (before.length + 1))).map fun rank => some ⟨some target, rank⟩
      | _ :: span =>
        match spanLength? span with
        | none => none
        | some length =>
          let place := before.length + length + 2
          match cs.drop place with
          | [] => some none
          | '=' :: _ => (lastRank? (whole.drop (place + 1))).map fun _ => none
          | _ => none

/-- How closely a directive fits the target of an event, `none` if it is not for it. -/
def fit? (directive : Directive) (target : String) : Option Nat :=
  match directive.target with
  | none => some 0
  | some name =>
    if name.toList.isPrefixOf target.toList then some (name.length + 1) else none

end Directive

/-- A list of directives. Of those for an event the one with the longest target counts, and of equal
ones the last. -/
structure LogFilter where
  directives : List Directive
  deriving DecidableEq, Repr

namespace LogFilter

/-- Shows what is worth knowing. -/
def usual : LogFilter := ⟨[⟨none, Level.info.rank⟩]⟩

def errors : LogFilter := ⟨[⟨none, Level.error.rank⟩]⟩

/-- Reads the directives of a filter. A text without any shows errors only. -/
def parse? (text : String) : Option LogFilter := do
  let directives ← ((Text.pieces ',' text).filter (· ≠ "")).mapM Directive.parse?
  some (if directives.isEmpty then errors else ⟨directives.filterMap id⟩)

/-- The filter that a setting asks for. If there is none that can be read, the usual one. -/
def ofSetting (setting : Option String) : LogFilter :=
  (setting.bind parse?).getD usual

/-- The directive for a target: the closest fit, and the last of equal ones. -/
def directive? (filter : LogFilter) (target : String) : Option Directive :=
  filter.directives.foldl (fun best directive =>
    match best.bind (·.fit? target), directive.fit? target with
    | _, none => best
    | some old, some new => if old ≤ new then some directive else best
    | none, some _ => some directive) none

def shows (filter : LogFilter) (event : Event) : Bool :=
  (filter.directive? event.origin.target).any fun directive =>
    event.level.rank ≤ directive.rank

end LogFilter

end WorkflowKit

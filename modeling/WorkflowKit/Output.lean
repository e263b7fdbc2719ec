import WorkflowKit.Failure
import WorkflowKit.Json.Portions

namespace WorkflowKit

/-- A place to print to: it takes so many octets and refuses the others. Without a limit it takes
them all. -/
structure Sink where
  limit : Option Nat
  refusal : String
  deriving DecidableEq, Repr

def Sink.open : Sink := ⟨none, ""⟩

/-- What a sink took, and the failure if that was not everything. -/
structure Printed where
  taken : Octets
  failure : Option Failure

def Sink.take (sink : Sink) (octets : Octets) : Octets :=
  match sink.limit with
  | some limit => octets.take limit
  | none => octets

/-- The sink when it has taken some octets. -/
def Sink.after (sink : Sink) (taken : Octets) : Sink :=
  { sink with limit := sink.limit.map (· - taken.length) }

/-- Writes portions up to the first that is not taken whole: what is taken, and the sink after it
unless something was refused. -/
def Sink.write (sink : Sink) : List Octets → Octets × Option Sink
  | [] => ([], some sink)
  | portion :: portions =>
    let taken := sink.take portion
    if taken.length < portion.length then (taken, none)
    else
      let (others, left) := (sink.after taken).write portions
      (taken ++ others, left)

/-- Prints the portions of a text and a line feed. If only the line feed is refused, the failure is
another one than that for the text. -/
def Sink.printLine (sink : Sink) (portions : List Octets)
    (textRefused lineRefused : String → Failure) : Printed :=
  match sink.write portions with
  | (text, none) => ⟨text, some (textRefused sink.refusal)⟩
  | (text, some left) =>
    match left.write [[0x0A]] with
    | (lineFeed, none) => ⟨text ++ lineFeed, some (lineRefused sink.refusal)⟩
    | (lineFeed, some _) => ⟨text ++ lineFeed, none⟩

/-- Prints the portions of the JSON text of a value, one after another, and a line feed. -/
def Sink.print (sink : Sink) (value : Json) : Printed :=
  sink.printLine (value.portions.map Octets.ofChars) .unprinted fun reason =>
    .service (.unwritten "value" reason)

def Sink.printType (sink : Sink) (type : DeviceType) : Printed :=
  let refused := fun reason => Failure.service (.unwritten "device type" reason)
  sink.printLine [Octets.ofText type.name] refused refused

end WorkflowKit

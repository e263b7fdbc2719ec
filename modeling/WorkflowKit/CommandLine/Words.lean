namespace WorkflowKit.CommandLine

inductive Halt where
  /-- The command line is wrong. -/
  | misuse
  | helpWanted
  | versionWanted
  deriving DecidableEq, Repr

/-- What follows an option. -/
inductive Following where
  | nothing
  | value
  | perhapsValue
  | halt (halt : Halt)
  deriving DecidableEq, Repr

/-- An option, by its name or another one, or by its letter. -/
structure OptionForm where
  name : String
  others : List String
  letter : Option Char
  following : Following
  deriving DecidableEq, Repr

namespace OptionForm

def answersTo (option : OptionForm) (name : String) : Bool :=
  option.name = name || option.others.contains name

def help : OptionForm := ⟨"help", [], some 'h', .halt .helpWanted⟩

end OptionForm

/-- What a command line may have: options, operands and the name of a command. -/
structure Form where
  options : List OptionForm
  operands : Nat
  commands : List String

namespace Form

def named (form : Form) (name : List Char) : Except Halt OptionForm :=
  match form.options.find? (·.answersTo (String.ofList name)) with
  | some option => .ok option
  | none => .error .misuse

def lettered (form : Form) (letter : Char) : Except Halt OptionForm :=
  match form.options.find? fun option => option.letter = some letter with
  | some option => .ok option
  | none => .error .misuse

end Form

structure Words where
  options : List (String × Option String)
  operands : List String
  /-- The name of a command and what follows it. -/
  command : Option (String × List String)
  deriving DecidableEq, Repr

/-- The words read so far, and the option whose value may be next. -/
structure Reading where
  options : List (String × Option String)
  operands : List String
  waiting : Option OptionForm

namespace Reading

def start : Reading := ⟨[], [], none⟩

/-- Adds an option, which is there only once. -/
def give (reading : Reading) (option : OptionForm) (value : Option String) :
    Except Halt Reading :=
  if (reading.options.lookup option.name).isSome then .error .misuse
  else .ok ⟨reading.options ++ [(option.name, value)], reading.operands, none⟩

/-- Ends the wait for a value. -/
def settle (reading : Reading) : Except Halt Reading :=
  match reading.waiting with
  | none => .ok reading
  | some option =>
    if option.following = .perhapsValue then reading.give option none else .error .misuse

/-- Takes an option, with its value if that is in the same word. -/
def meet (reading : Reading) (option : OptionForm) (value : Option String) :
    Except Halt Reading := do
  let reading ← reading.settle
  match option.following, value with
  | .halt halt, none => .error halt
  | .nothing, none => reading.give option none
  | .value, none | .perhapsValue, none => .ok { reading with waiting := some option }
  | .value, some text | .perhapsValue, some text => reading.give option (some text)
  | .halt _, some _ | .nothing, some _ => .error .misuse

/-- Takes an option by its name. -/
def meetNamed (reading : Reading) (form : Form) (word : List Char) : Except Halt Reading := do
  let option ← form.named (word.takeWhile (· ≠ '='))
  match word.dropWhile (· ≠ '=') with
  | [] => reading.meet option none
  | _ :: value => reading.meet option (some (String.ofList value))

/-- The value that the letters after an option are. -/
def attached (rest : List Char) : Option String :=
  match rest with
  | [] => none
  | '=' :: value => some (String.ofList value)
  | value => some (String.ofList value)

/-- Takes options by their letters. The first one that may have a value takes the rest. -/
def meetLetters (reading : Reading) (form : Form) : List Char → Except Halt Reading
  | [] => .ok reading
  | letter :: rest => do
    let option ← form.lettered letter
    match option.following with
    | .value | .perhapsValue => reading.meet option (attached rest)
    | _ => (← reading.meet option none).meetLetters form rest

/-- Takes a word that is no option. -/
def meetPlain (reading : Reading) (form : Form) (word : String) : Except Halt Reading :=
  match reading.waiting with
  | some option => reading.give option (some word)
  | none =>
    if reading.operands.length < form.operands then
      .ok { reading with operands := reading.operands ++ [word] }
    else .error .misuse

/-- Takes a word that begins a command line or stands in it. -/
def meetWord (reading : Reading) (form : Form) (word : String) : Except Halt Reading :=
  match word.toList with
  | '-' :: '-' :: name => reading.meetNamed form name
  | '-' :: letter :: rest => reading.meetLetters form (letter :: rest)
  | _ => reading.meetPlain form word

/-- Reads words up to the name of a command or the end. -/
def words (form : Form) (reading : Reading) : List String → Except Halt Words
  | [] => do
    let reading ← reading.settle
    .ok ⟨reading.options, reading.operands, none⟩
  | word :: rest => do
    if reading.waiting.isNone && form.commands.contains word then
      .ok ⟨reading.options, reading.operands, some (word, rest)⟩
    else if word = "--" then
      let reading ← reading.settle
      if reading.operands.length + rest.length ≤ form.operands then
        .ok ⟨reading.options, reading.operands ++ rest, none⟩
      else .error .misuse
    else
      let reading ← reading.meetWord form word
      reading.words form rest

end Reading

namespace Words

/-- Reads the words of a command line. -/
def ofArguments (form : Form) (arguments : List String) : Except Halt Words :=
  Reading.words form .start arguments

def has (words : Words) (name : String) : Bool :=
  (words.options.lookup name).isSome

def value? (words : Words) (name : String) : Option String :=
  (words.options.lookup name).join

/-- The value of an option that must be given. -/
def value (words : Words) (name : String) : Except Halt String :=
  match words.value? name with
  | some value => .ok value
  | none => .error .misuse

end Words

end WorkflowKit.CommandLine

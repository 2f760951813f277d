import PageSheet.Text.Basic
namespace PageSheet.Command

/-!
# Arguments

The first argument of a command line names a command, and the arguments behind it
give values to the slots of the command.  A slot takes its value from an option,
which has a letter and a word, or from a positional argument.

Arguments are read from left to right.  A value is not looked at when it is read:
it waits until the next argument that starts a value, and is checked then.  So
of two faults the one that is met first in this order is told.  Options that
nobody knows are told at once, before the value that waits.
-/

/-- What a command can be given. -/
inductive Slot where
  | source
  | outdir
  | directory
  | port
  deriving Repr, DecidableEq

/-- The commands. -/
inductive Verb where
  | build
  | check
  | serve
  deriving Repr, DecidableEq

/-- What a command line asks for. -/
inductive Request where
  | build (source : Text) (outdir : Text)
  | check (source : Text)
  | serve (directory : Text) (port : UInt16)
  deriving Repr, DecidableEq

/-- What is wrong with a command line. -/
inductive UsageFault where
  /-- A positional argument is missing. -/
  | missingArgument
  /-- An argument is not known, or there is one too many. -/
  | unknownArgument
  /-- The first argument names no command. -/
  | unknownCommand
  /-- An option has no value, or a value is empty. -/
  | missingValue
  /-- A value is not of the kind that is asked for. -/
  | malformedValue
  /-- A flag that takes no value was given one. -/
  | unwantedValue
  /-- An option is given twice. -/
  | repeatedOption
  deriving Repr, DecidableEq

/-- Why a command line asks for no command to be run. -/
inductive Refusal where
  | help
  | version
  /-- There are no arguments at all. -/
  | noArguments
  | usage (fault : UsageFault)
  deriving Repr, DecidableEq

namespace Slot

/-- The letter of the option for a slot. -/
def letter? : Slot → Option Char
  | .source => none
  | .outdir => some 'o'
  | .directory => some 'd'
  | .port => some 'p'

/-- The word of the option for a slot. -/
def word? : Slot → Option Text
  | .source => none
  | .outdir => some "outdir".toList
  | .directory => some "dir".toList
  | .port => some "port".toList

/-- The number that a run of decimal digits stands for. -/
def naturalOf? (digits : Text) : Option Nat :=
  if digits = [] || !digits.all Char.isDigit then
    none
  else
    some (digits.foldl (fun number digit => number * 10 + (digit.toNat - '0'.toNat)) 0)

/-- The port that a number with an optional sign stands for. -/
def portOf? (text : Text) : Option UInt16 := do
  let number ←
    match text with
    | '+' :: digits => naturalOf? digits
    | '-' :: digits => (naturalOf? digits).filter fun number => number = 0
    | digits => naturalOf? digits
  if number < 65536 then
    some number.toUInt16
  else
    none

/-- What is wrong with a value for a slot, if anything is. -/
def fault?
    (slot : Slot)
    (value : Text) :
    Option UsageFault :=
  match slot with
  | .port =>
      match portOf? value with
      | none => some .malformedValue
      | some _ => none
  | _ =>
      if value = [] then some .missingValue else none

end Slot

namespace Verb

/-- The command with a given name. -/
def ofName? (name : Text) : Option Verb :=
  if name = "build".toList then
    some .build
  else if name = "check".toList then
    some .check
  else if name = "serve".toList then
    some .serve
  else
    none

/-- The slots of a command. -/
def slots : Verb → List Slot
  | .build => [.source, .outdir]
  | .check => [.source]
  | .serve => [.directory, .port]

/-- The slot of a command that an option letter stands for. -/
def slotOfLetter?
    (verb : Verb)
    (letter : Char) :
    Option Slot :=
  verb.slots.find? fun slot => slot.letter? = some letter

/-- The slot of a command that an option word stands for. -/
def slotOfWord?
    (verb : Verb)
    (word : Text) :
    Option Slot :=
  verb.slots.find? fun slot => slot.word? = some word

end Verb

/-- The shape of one argument. -/
inductive Shape where
  /-- The mark behind which all arguments are positional. -/
  | separator
  /-- An option word, with the value behind its equals sign. -/
  | long (word : Text) (value : Option Text)
  /-- An option letter, with the text behind it. -/
  | short (letter : Char) (rest : Text)
  | plain (text : Text)
  deriving Repr, DecidableEq

namespace Shape

/-- A text before and behind its first equals sign. -/
def splitValue : Text → Text × Option Text
  | [] => ([], none)
  | '=' :: value => ([], some value)
  | c :: rest =>
      let (word, value) := splitValue rest
      (c :: word, value)

/-- The shape of an argument. -/
def ofText : Text → Shape
  | ['-', '-'] => .separator
  | '-' :: '-' :: rest =>
      let (word, value) := splitValue rest
      .long word value
  | '-' :: c :: rest => .short c rest
  | text => .plain text

end Shape

/-- The values that have been read, and the one that waits to be checked. -/
structure Intake where
  /-- The slots with their checked values, the latest first. -/
  given : List (Slot × Text)
  /-- A slot whose value waits to be checked, or is still to come. -/
  waiting : Option (Slot × Option Text)
  deriving Repr, DecidableEq

namespace Intake

/-- Nothing is given before the first argument. -/
def initial : Intake where
  given := []
  waiting := none

/-- Check a value and give it to its slot. -/
def give
    (intake : Intake)
    (slot : Slot)
    (value : Text) :
    Except Refusal Intake :=
  if intake.given.any fun entry => entry.1 = slot then
    .error (.usage .repeatedOption)
  else
    match slot.fault? value with
    | some fault => .error (.usage fault)
    | none => .ok ⟨(slot, value) :: intake.given, none⟩

/-- Check the value that waits. -/
def settle (intake : Intake) : Except Refusal Intake :=
  match intake.waiting with
  | none => .ok intake
  | some (_, none) => .error (.usage .missingValue)
  | some (slot, some value) => intake.give slot value

/-- Check the value that waits and let another slot wait. -/
def await
    (intake : Intake)
    (slot : Slot)
    (value : Option Text) :
    Except Refusal Intake := do
  let settled ← intake.settle
  return ⟨settled.given, some (slot, value)⟩

/-- Check the value that waits, and then a value that came with its option. -/
def attach
    (intake : Intake)
    (slot : Slot)
    (value : Text) :
    Except Refusal Intake := do
  let settled ← intake.settle
  settled.give slot value

/-- Check the value that waits and ask for help. -/
def askForHelp (intake : Intake) : Except Refusal Intake := do
  let _ ← intake.settle
  .error .help

/-- Whether the positional argument has been read. -/
def hasSource (intake : Intake) : Bool :=
  intake.given.any (fun entry => entry.1 = .source)
    || intake.waiting.any (fun entry => entry.1 = .source)

/-- Read a positional argument. -/
def takePositional
    (verb : Verb)
    (intake : Intake)
    (value : Text) :
    Except Refusal Intake :=
  if verb.slots.contains .source && !intake.hasSource then
    intake.await .source (some value)
  else
    .error (.usage .unknownArgument)

/-- Read an argument that is no option: the value to come, or a positional one. -/
def takePlain
    (verb : Verb)
    (intake : Intake)
    (value : Text) :
    Except Refusal Intake :=
  match intake.waiting with
  | some (slot, none) => .ok ⟨intake.given, some (slot, some value)⟩
  | _ => takePositional verb intake value

/-- Read an option word. -/
def takeLong
    (verb : Verb)
    (intake : Intake)
    (word : Text)
    (value : Option Text) :
    Except Refusal Intake :=
  match verb.slotOfWord? word, value with
  | some slot, none => intake.await slot none
  | some slot, some value => intake.attach slot value
  | none, none =>
      if word = "help".toList then
        intake.askForHelp
      else
        .error (.usage .unknownArgument)
  | none, some _ =>
      if word = "help".toList then
        .error (.usage .unwantedValue)
      else
        .error (.usage .unknownArgument)

/-- Read an option letter. -/
def takeShort
    (verb : Verb)
    (intake : Intake)
    (letter : Char)
    (rest : Text) :
    Except Refusal Intake :=
  match verb.slotOfLetter? letter, rest with
  | some slot, [] => intake.await slot none
  | some slot, '=' :: value => intake.attach slot value
  | some slot, value => intake.attach slot value
  | none, _ =>
      if letter = 'h' then
        intake.askForHelp
      else
        .error (.usage .unknownArgument)

/-- Read the arguments of a command. -/
def takeAll
    (verb : Verb)
    (intake : Intake) :
    List Text → Except Refusal Intake
  | [] => intake.settle
  | argument :: rest => do
      match Shape.ofText argument with
      | .separator =>
          let taken ← rest.foldlM (takePositional verb) intake
          taken.settle
      | .long word value =>
          (← intake.takeLong verb word value).takeAll verb rest
      | .short letter text =>
          (← intake.takeShort verb letter text).takeAll verb rest
      | .plain text =>
          (← intake.takePlain verb text).takeAll verb rest

/-- The value that a slot was given. -/
def value?
    (intake : Intake)
    (slot : Slot) :
    Option Text :=
  intake.given.lookup slot

end Intake

/-- The directory that pages are written to and served from by default. -/
def defaultDirectory : Text :=
  "dist".toList

/-- The port that is listened on by default. -/
def defaultPort : UInt16 :=
  3000

namespace Request

/-- The request for a command with the values it was given. -/
def ofIntake
    (verb : Verb)
    (intake : Intake) :
    Except Refusal Request :=
  match verb, intake.value? .source with
  | .build, some source =>
      .ok (.build source ((intake.value? .outdir).getD defaultDirectory))
  | .check, some source => .ok (.check source)
  | .serve, _ =>
      .ok (.serve ((intake.value? .directory).getD defaultDirectory)
        (((intake.value? .port).bind Slot.portOf?).getD defaultPort))
  | _, none => .error (.usage .missingArgument)

/-- What is wrong with the names behind the command for help, if anything is. -/
def refusalOfHelp : List Text → Refusal
  | [] => .help
  | name :: rest =>
      if name = "help".toList then
        match rest with
        | [] => .help
        | _ :: _ => .usage .unknownCommand
      else
        match Verb.ofName? name, rest with
        | some _, [] => .help
        | _, _ => .usage .unknownCommand

/-- Why arguments that start with no command are refused. -/
def refusalOfShape
    (rest : List Text) :
    Shape → Refusal
  | .separator =>
      match rest with
      | [] => .noArguments
      | name :: _ =>
          if (Verb.ofName? name).isSome || name = "help".toList then
            .usage .unknownArgument
          else
            .usage .unknownCommand
  | .long word none =>
      if word = "help".toList then
        .help
      else if word = "version".toList then
        .version
      else
        .usage .unknownArgument
  | .long word (some _) =>
      if word = "help".toList || word = "version".toList then
        .usage .unwantedValue
      else
        .usage .unknownArgument
  | .short letter _ =>
      if letter = 'h' then
        .help
      else if letter = 'V' then
        .version
      else
        .usage .unknownArgument
  | .plain _ => .usage .unknownCommand

/-- The request of a command line. -/
def ofArguments : List Text → Except Refusal Request
  | [] => .error .noArguments
  | first :: rest =>
      match Verb.ofName? first with
      | some verb => do
          let intake ← Intake.initial.takeAll verb rest
          ofIntake verb intake
      | none =>
          if first = "help".toList then
            .error (refusalOfHelp rest)
          else
            .error (refusalOfShape rest (Shape.ofText first))

end Request

end PageSheet.Command

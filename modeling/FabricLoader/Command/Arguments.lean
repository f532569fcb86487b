import FabricLoader.Command.Basic
import FabricLoader.Text.Numeral

/-! The command line. Options may stand anywhere among the arguments of a command, short ones may be
joined, and two dashes end them. -/
namespace FabricLoader.Arguments

inductive Request where
  | run (threshold : Level) (command : Command)
  | help
  /-- The arguments make no sense. -/
  | misuse
  deriving DecidableEq, Repr

inductive Verb where
  | check | dump | plan | pack | load
  deriving DecidableEq, Repr

def Verb.ofName? : String → Option Verb
  | "check" => some .check
  | "dump" => some .dump
  | "plan" => some .plan
  | "pack" => some .pack
  | "load" => some .load
  | _ => none

/-- How many files a command takes at most. -/
def Verb.takes (verb : Verb) (files : Nat) : Bool := verb == .check || files ≤ 1

inductive Opt where
  | verbose
  | help
  | output
  | controlAddress
  deriving DecidableEq, Repr

def Opt.takesValue : Opt → Bool
  | output | controlAddress => true
  | verbose | help => false

/-- The options of a command by their long names; without a command, those of the program. -/
def longOpt? (verb : Option Verb) (name : String) : Option Opt :=
  match name, verb with
  | "verbose", _ => some .verbose
  | "help", _ => some .help
  | "output", some .pack => some .output
  | "control-address", some .plan => some .controlAddress
  | _, _ => none

def shortOpt? (verb : Option Verb) (letter : Char) : Option Opt :=
  match letter, verb with
  | 'v', _ => some .verbose
  | 'h', _ => some .help
  | 'o', some .pack => some .output
  | _, _ => none

inductive Piece where
  | flag (opt : Opt)
  | valued (opt : Opt) (value : String)
  /-- The value is the next argument. -/
  | awaiting (opt : Opt)
  | unknown

def longPiece (verb : Option Verb) (text : List Char) : Piece :=
  let name := String.ofList (text.takeWhile (· != '='))
  match longOpt? verb name, text.dropWhile (· != '=') with
  | none, _ => .unknown
  | some opt, [] => if opt.takesValue then .awaiting opt else .flag opt
  | some opt, _ :: value => if opt.takesValue then .valued opt (String.ofList value) else .unknown

/-- Joined short options; one that takes a value takes the rest, without a leading equals sign. -/
def shortPieces (verb : Option Verb) : List Char → List Piece
  | [] => []
  | letter :: rest =>
    match shortOpt? verb letter with
    | none => [.unknown]
    | some opt =>
      if opt.takesValue then
        match rest with
        | [] => [.awaiting opt]
        | '=' :: value => [.valued opt (String.ofList value)]
        | value => [.valued opt (String.ofList value)]
      else .flag opt :: shortPieces verb rest

/-- The options in an argument, if it holds options; a single dash holds none. -/
def pieces? (verb : Option Verb) (argument : String) : Option (List Piece) :=
  match argument.toList with
  | '-' :: '-' :: name => some [longPiece verb name]
  | '-' :: letter :: letters => some (shortPieces verb (letter :: letters))
  | _ => none

structure Collected where
  verbose : Nat
  files : List String
  outputs : List String
  controlAddresses : List String

def Collected.empty : Collected := ⟨0, [], [], []⟩

def Collected.add (opt : Opt) (value : String) (c : Collected) : Collected :=
  match opt with
  | .output => { c with outputs := c.outputs ++ [value] }
  | .controlAddress => { c with controlAddresses := c.controlAddresses ++ [value] }
  | .verbose | .help => c

/-- Takes the options of one argument; the last of them may be left without its value. -/
def take (c : Collected) : List Piece → Except Request (Collected × Option Opt)
  | [] => .ok (c, none)
  | .flag .verbose :: rest => take { c with verbose := c.verbose + 1 } rest
  | .flag _ :: _ => .error .help
  | .valued opt value :: rest => take (c.add opt value) rest
  | .awaiting opt :: _ => .ok (c, some opt)
  | .unknown :: _ => .error .misuse

def addFiles (verb : Verb) (c : Collected) (files : List String) : Except Request Collected :=
  let files := c.files ++ files
  if verb.takes files.length then .ok { c with files } else .error .misuse

def collect (verb : Verb) (c : Collected) : List String → Except Request Collected
  | [] => .ok c
  | "--" :: files => addFiles verb c files
  | argument :: rest => do
    match pieces? (some verb) argument with
    | none => collect verb (← addFiles verb c [argument]) rest
    | some pieces =>
      match ← take c pieces with
      | (c, none) => collect verb c rest
      | (c, some opt) =>
        match rest with
        | [] => .error .misuse
        | value :: rest =>
          if (pieces? none value).isSome then .error .misuse
          else collect verb (c.add opt value) rest

/-- An address on the command line, in hexadecimal after `0x` or `0X`, else in decimal. -/
def address? (text : String) : Option UInt32 :=
  match text.toList with
  | '0' :: 'x' :: digits => Text.word? 16 digits
  | '0' :: 'X' :: digits => Text.word? 16 digits
  | digits => Text.word? 10 digits

def command? (verb : Verb) (c : Collected) : Option Command :=
  match verb, c.files, c.outputs, c.controlAddresses with
  | .check, file :: files, [], [] => some (.check (file :: files))
  | .dump, [file], [], [] => some (.dump file)
  | .plan, [file], [], [] => some (.plan file none)
  | .plan, [file], [], [text] => (address? text).map fun address => .plan file (some address)
  | .pack, [file], [output], [] => some (.pack file output)
  | .load, [file], [], [] => some (.load file)
  | _, _, _, _ => none

/-- The level that a number of `verbose` options asks for; the number is kept in one byte. -/
def threshold (verbose : Nat) : Level :=
  match verbose % 256 with
  | 0 => .info
  | 1 => .debug
  | _ => .trace

def helpOn : List String → Request
  | [] => .help
  | [name] => if name = "help" || (Verb.ofName? name).isSome then .help else .misuse
  | _ => .misuse

/-- Reads the arguments from the front. The options before the command's name count only as long as
none of the same kind come after it. -/
def parseFrom (verbose : Nat) : List String → Request
  | [] => .misuse
  | argument :: rest =>
    match pieces? none argument with
    | some pieces =>
      match take { Collected.empty with verbose } pieces with
      | .ok (c, _) => parseFrom c.verbose rest
      | .error request => request
    | none =>
      if argument = "help" then helpOn rest
      else
        match Verb.ofName? argument with
        | none => .misuse
        | some verb =>
          match collect verb .empty rest with
          | .error request => request
          | .ok c =>
            match command? verb c with
            | none => .misuse
            | some command =>
              .run (threshold (if c.verbose = 0 then verbose else c.verbose)) command

def parse (arguments : List String) : Request := parseFrom 0 arguments

end FabricLoader.Arguments

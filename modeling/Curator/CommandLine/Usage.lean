import Curator.Text.Blank
/-!
How a command is used: its operands and its options, each of which takes a value. Reading arguments
and printing help both follow this description. An option's value never begins with a dash unless it
is attached to the option, and after `--` everything is an operand.
-/

set_option autoImplicit false

namespace Curator.CommandLine

inductive Value where
  | text
  | path
  | natural (limit : Nat) (signed : Bool)
deriving DecidableEq, Repr

structure Switch where
  long : String
  short : Option Char
  placeholder : String
  help : String
  value : Value
  fallback : Option String
  listed : Bool
deriving DecidableEq, Repr

structure Usage where
  name : String
  help : String
  operands : List String
  switches : List Switch
deriving DecidableEq, Repr, Inhabited

inductive Stop where
  | refused
  | helpWanted
deriving DecidableEq, Repr

structure Arguments where
  values : List (String × String)
  operands : List String
deriving DecidableEq, Repr, Inhabited

def digits? (text : List Char) : Option Nat :=
  if text.isEmpty || !text.all Char.isDigit then none
  else some (text.foldl (fun total c => total * 10 + (c.toNat - '0'.toNat)) 0)

def natural? (limit : Nat) (signed : Bool) (text : String) : Option Nat :=
  let value := match text.toList with
    | '+' :: rest => digits? rest
    | '-' :: rest => if signed then (digits? rest).filter (· = 0) else none
    | rest => digits? rest
  value.filter (· ≤ limit)

namespace Value

def admits (value : Value) (text : String) : Bool :=
  match value with
  | .text => true
  | .path => !text.isEmpty
  | .natural limit signed => (natural? limit signed text).isSome

end Value

namespace Arguments

def none : Arguments := ⟨[], []⟩

def valuesOf (arguments : Arguments) (long : String) : List String :=
  (arguments.values.filter fun entry => entry.1 = long).map Prod.snd

def value? (arguments : Arguments) (long : String) : Option String :=
  (arguments.valuesOf long).head?

def addValue (arguments : Arguments) (switch : Switch) (text : String) :
    Except Stop Arguments :=
  let texts := if switch.listed then text.splitOn "," else [text]
  if !switch.listed && (arguments.value? switch.long).isSome then .error .refused
  else if !texts.all switch.value.admits then .error .refused
  else .ok { arguments with values := arguments.values ++ texts.map (switch.long, ·) }

def addOperand (arguments : Arguments) (limit : Nat) (text : String) : Except Stop Arguments :=
  if limit ≤ arguments.operands.length then .error .refused
  else .ok { arguments with operands := arguments.operands ++ [text] }

end Arguments

inductive Spelling where
  | operand
  | escape
  | help
  | switch (switch : Switch) (attached : Option String)
  | unknown
deriving DecidableEq, Repr

namespace Usage

def longSpelling (usage : Usage) (text : List Char) : Spelling :=
  let name := String.ofList (text.takeWhile (· ≠ '='))
  let attached := match text.dropWhile (· ≠ '=') with
    | '=' :: value => some (String.ofList value)
    | _ => none
  if name = "help" then if attached.isNone then .help else .unknown
  else match usage.switches.find? (·.long = name) with
    | some switch => .switch switch attached
    | none => .unknown

def shortSpelling (usage : Usage) (letter : Char) (after : List Char) : Spelling :=
  match usage.switches.find? (·.short = some letter) with
  | some switch => .switch switch <| match after with
      | [] => none
      | '=' :: value => some (String.ofList value)
      | value => some (String.ofList value)
  | none => if letter = 'h' then .help else .unknown

def spelling (usage : Usage) (argument : String) : Spelling :=
  match argument.toList with
  | ['-', '-'] => .escape
  | '-' :: '-' :: text => usage.longSpelling text
  | '-' :: letter :: after => usage.shortSpelling letter after
  | _ => .operand

def looksDashed (argument : String) : Bool :=
  match argument.toList with
  | '-' :: _ :: _ => true
  | _ => false

def readOperands (usage : Usage) : List String → Arguments → Except Stop Arguments
  | [], arguments => .ok arguments
  | argument :: rest, arguments => do
      readOperands usage rest (← arguments.addOperand usage.operands.length argument)

def readAll (usage : Usage) : List String → Arguments → Except Stop Arguments
  | [], arguments => .ok arguments
  | argument :: rest, arguments =>
      match usage.spelling argument with
      | .operand => do
          readAll usage rest (← arguments.addOperand usage.operands.length argument)
      | .escape => usage.readOperands rest arguments
      | .help => .error .helpWanted
      | .unknown => .error .refused
      | .switch switch (some text) => do readAll usage rest (← arguments.addValue switch text)
      | .switch switch none => match rest with
          | [] => .error .refused
          | text :: rest =>
              if looksDashed text then .error .refused
              else do readAll usage rest (← arguments.addValue switch text)

def readFront (usage : Usage) : List String → Arguments →
    Except Stop (Arguments × Option (String × List String))
  | [], arguments => .ok (arguments, none)
  | argument :: rest, arguments =>
      match usage.spelling argument with
      | .operand => .ok (arguments, some (argument, rest))
      | .escape => .error .refused
      | .help => .error .helpWanted
      | .unknown => .error .refused
      | .switch switch (some text) => do readFront usage rest (← arguments.addValue switch text)
      | .switch switch none => match rest with
          | [] => .error .refused
          | text :: rest =>
              if looksDashed text then .error .refused
              else do readFront usage rest (← arguments.addValue switch text)

def read (usage : Usage) (given : List String) : Except Stop Arguments := do
  let arguments ← usage.readAll given .none
  if arguments.operands.length < usage.operands.length then throw .refused
  return arguments

/-! ## Help -/

def pad (width : Nat) (text : String) : String :=
  text ++ String.ofList (List.replicate (width - text.length) ' ')

def columns (entries : List (String × String)) : List String :=
  let width := (entries.map fun entry => entry.1.length).foldl max 0
  entries.map fun (left, right) => "  " ++ pad width left ++ "  " ++ right

def switchEntry (switch : Switch) : String × String :=
  let short := match switch.short with
    | some letter => s!"-{letter}, "
    | none => "    "
  let fallback := match switch.fallback with
    | some text => s!" [default: {text}]"
    | none => ""
  (s!"{short}--{switch.long} <{switch.placeholder}>", switch.help ++ fallback)

def helpEntry : String × String := ("-h, --help", "Print help")

def paragraph (title : String) (lines : List String) : List String :=
  if lines.isEmpty then [] else "" :: title :: lines

def helpLines (program : String) (usage : Usage) : List String :=
  let operands := usage.operands.map fun name => s!" <{name}>"
  let options := if usage.switches.isEmpty then "" else " [OPTIONS]"
  [usage.help, "", s!"Usage: {program} {usage.name}{options}{String.join operands}"]
    ++ paragraph "Arguments:" (columns (usage.operands.map fun name => (s!"<{name}>", "")))
    ++ paragraph "Options:" (columns (usage.switches.map switchEntry ++ [helpEntry]))

end Usage

end Curator.CommandLine

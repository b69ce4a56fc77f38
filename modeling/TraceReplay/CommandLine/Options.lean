import TraceReplay.Power

/-!
# Options

Arguments of a command as options by name.  A value follows its option, after a
space or an equals sign, or directly after a short option; an argument that looks
like an option is no value.  No option may be given twice.
-/

namespace TraceReplay.CommandLine

/-- An option a command knows. -/
structure KnownOption where
  name : String
  short : Option Char := none
  takesValue : Bool := true
deriving DecidableEq, Repr

/-- Options that were given, with their values; a switch has the empty value. -/
abbrev Given := List (String × String)

/-- How an argument names an option. -/
inductive Mention where
  | switch (name : String)
  /-- Its value is the next argument. -/
  | awaits (name : String)
  | attached (name value : String)
  | unknown
deriving DecidableEq, Repr

/-- Begins like an option; a single hyphen is a value. -/
def looksLikeOption (arg : String) : Bool :=
  arg.toList.head? = some '-' && arg.length ≠ 1

def mentionOf (option : KnownOption) (value : Option String) : Mention :=
  match option.takesValue, value with
  | true, some value => .attached option.name value
  | true, none => .awaits option.name
  | false, none => .switch option.name
  | false, some _ => .unknown

/-- Splits at the first equals sign. -/
def splitValue (text : List Char) : String × Option String :=
  let name := text.takeWhile (· ≠ '=')
  match text.dropWhile (· ≠ '=') with
  | [] => (String.ofList name, none)
  | _ :: value => (String.ofList name, some (String.ofList value))

/-- The value directly after a short option, with or without an equals sign. -/
def shortValue (text : List Char) : Option String :=
  match text with
  | [] => none
  | '=' :: value => some (String.ofList value)
  | value => some (String.ofList value)

def mention (options : List KnownOption) (arg : String) : Mention :=
  match arg.toList with
  | '-' :: '-' :: text =>
    let (name, value) := splitValue text
    match options.find? (·.name = name) with
    | some option => mentionOf option value
    | none => .unknown
  | '-' :: letter :: text =>
    match options.find? (·.short = some letter) with
    | some option => mentionOf option (shortValue text)
    | none => .unknown
  | _ => .unknown

/-- All options, in the order in which they are given. -/
def readGiven (options : List KnownOption) : List String → Option Given
  | [] => some []
  | arg :: rest =>
    if arg = "--" then (if rest.isEmpty then some [] else none)
    else
      match mention options arg, rest with
      | .switch name, rest => (readGiven options rest).map ((name, "") :: ·)
      | .attached name value, rest => (readGiven options rest).map ((name, value) :: ·)
      | .awaits name, value :: rest =>
        if looksLikeOption value then none
        else (readGiven options rest).map ((name, value) :: ·)
      | .awaits _, [] => none
      | .unknown, _ => none

/-- All options, none of them twice. -/
def given? (options : List KnownOption) (args : List String) : Option Given := do
  let given ← readGiven options args
  if (given.map (·.1)).Nodup then some given else none

/-! ## Values -/

namespace Given

def switch (given : Given) (name : String) : Bool := (given.lookup name).isSome

/-- A path is not empty. -/
def path? (given : Given) (name : String) : Option String := do
  let value ← given.lookup name
  if value.isEmpty then none else some value

/-- A path that may be left out; the outer option is empty for an empty path. -/
def optionalPath? (given : Given) (name : String) : Option (Option String) :=
  match given.lookup name with
  | none => some none
  | some value => if value.isEmpty then none else some (some value)

/-- The number written with digits, perhaps after a plus sign. -/
def readNatural? (text : String) : Option Nat :=
  let digits := match text.toList with
    | '+' :: rest => rest
    | cs => cs
  if digits.isEmpty || digits.any (!·.isDigit) then none
  else some (digits.foldl (fun n c => n * 10 + (c.toNat - '0'.toNat)) 0)

/-- A number of 64 bits. -/
def word? (given : Given) (name : String) : Option Nat := do
  let n ← readNatural? (← given.lookup name)
  if n < 2 ^ 64 then some n else none

/-- A number of 32 bits; it may be written as minus zero. -/
def halfWord? (given : Given) (name : String) : Option UInt32 := do
  let text ← given.lookup name
  let n ← match text.toList with
    | '-' :: rest => do
      let n ← readNatural? (String.ofList rest)
      if rest.head? = some '+' || n ≠ 0 then none else some n
    | _ => readNatural? text
  if n < 2 ^ 32 then some (UInt32.ofNat n) else none

end Given
end TraceReplay.CommandLine

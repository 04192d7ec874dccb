/-!
# Options of the command line

The arguments are read from left to right. A short option is one character after a dash; flags may
be joined behind one dash, and an option that takes a value takes the rest of its argument, without
a leading equals sign, or else the next argument. A long option has its value after an equals sign
or in the next argument. An argument that begins with a dash is never the value of an option before
it, except for the dash alone. Nothing may be given twice. Asking for the version or for help ends
the reading, unless something before was wrong.
-/

namespace Respell.CommandLine

/-- The options that take a value. -/
inductive ValueOption where
  | source
  | destination
  | folder
  | settings
  | output
  deriving DecidableEq, Repr

/-- The value of the option is a path, which may not be empty. -/
def ValueOption.isPath : ValueOption → Bool
  | source | destination => false
  | folder | settings | output => true

/-- The options without a value. -/
inductive Flag where
  | listSubsets
  | verbose
  | version
  | help
  deriving DecidableEq, Repr

/-- An option of either kind. -/
inductive Switch where
  | valued (option : ValueOption)
  | flag (flag : Flag)
  deriving DecidableEq, Repr

/-- The options with their short and long names. -/
def switches : List (Option Char × String × Switch) :=
  [(some 'f', "from", .valued .source), (some 't', "to", .valued .destination),
   (some 'l', "lexems", .valued .folder), (some 'c', "config", .valued .settings),
   (some 'o', "output", .valued .output), (none, "list-subsets", .flag .listSubsets),
   (some 'v', "verbose", .flag .verbose), (some 'V', "version", .flag .version),
   (some 'h', "help", .flag .help)]

/-- The option of a short name. -/
def shortSwitch? (name : Char) : Option Switch :=
  (switches.find? fun s => s.1 == some name).map (·.2.2)

/-- The option of a long name, which is never shortened. -/
def longSwitch? (name : String) : Option Switch :=
  (switches.find? fun s => s.2.1 == name).map (·.2.2)

/-- What was given on the command line: the file to read, the options with values, and the flags. -/
structure Options where
  input : Option String
  values : List (ValueOption × String)
  flags : List Flag
  deriving DecidableEq, Repr

/-- What the command line asks for. -/
inductive Invocation where
  | run (options : Options)
  | version
  | help
  | misuse
  deriving DecidableEq, Repr

namespace Options

/-- Nothing was given. -/
def empty : Options := ⟨none, [], []⟩

/-- The value of an option. -/
def value? (o : Options) (option : ValueOption) : Option String := o.values.lookup option

/-- The flag was given. -/
def has (o : Options) (flag : Flag) : Bool := o.flags.contains flag

/-- The options with a value for one of them. -/
def giveValue (o : Options) (option : ValueOption) (value : String) : Except Invocation Options :=
  if (o.value? option).isSome ∨ option.isPath ∧ value = "" then .error .misuse
  else .ok { o with values := (option, value) :: o.values }

/-- The options with a flag. -/
def giveFlag (o : Options) (flag : Flag) : Except Invocation Options :=
  if flag = .version then .error .version
  else if flag = .help then .error .help
  else if o.has flag then .error .misuse
  else .ok { o with flags := flag :: o.flags }

/-- The options with a file to read. -/
def giveInput (o : Options) (path : String) : Except Invocation Options :=
  if o.input.isSome then .error .misuse else .ok { o with input := some path }

/-- The options with the short ones behind one dash, and the last of them if its value is still to
come. -/
def giveShort (o : Options) : List Char → Except Invocation (Options × Option ValueOption)
  | [] => .ok (o, none)
  | name :: rest =>
    match shortSwitch? name with
    | none => .error .misuse
    | some (.flag flag) =>
      match o.giveFlag flag with
      | .ok o => o.giveShort rest
      | .error e => .error e
    | some (.valued option) =>
      match rest with
      | [] => .ok (o, some option)
      | c :: cs =>
        -- An equals sign between the name and the value is no part of the value.
        let value := String.ofList (if c = '=' then cs else c :: cs)
        (o.giveValue option value).map fun o => (o, none)

/-- The options with a long one, with the text behind the two dashes, and that option if its value is
still to come. -/
def giveLong (o : Options) (text : List Char) : Except Invocation (Options × Option ValueOption) :=
  let name := String.ofList (text.takeWhile (· != '='))
  match longSwitch? name, text.dropWhile (· != '=') with
  | none, _ => .error .misuse
  | some (.flag flag), [] => (o.giveFlag flag).map fun o => (o, none)
  | some (.flag _), _ :: _ => .error .misuse
  | some (.valued option), [] => .ok (o, some option)
  | some (.valued option), _ :: value =>
    (o.giveValue option (String.ofList value)).map fun o => (o, none)

end Options

/-- How far the arguments have been read: the options so far, the option whose value comes next, and
whether all further arguments are files. -/
structure Reading where
  options : Options
  pending : Option ValueOption
  onlyFiles : Bool
  deriving DecidableEq, Repr

namespace Reading

/-- Reads one more argument. -/
def step (r : Reading) (argument : String) : Except Invocation Reading :=
  let text := argument.toList
  let file := (r.options.giveInput argument).map fun o => { r with options := o }
  if r.onlyFiles then file
  else
    match r.pending with
    | some option =>
      if text.head? = some '-' ∧ argument ≠ "-" then .error .misuse
      else (r.options.giveValue option argument).map fun o => ⟨o, none, false⟩
    | none =>
      match text with
      | ['-', '-'] => .ok { r with onlyFiles := true }
      | '-' :: '-' :: long => (r.options.giveLong long).map fun (o, p) => ⟨o, p, false⟩
      | '-' :: c :: short => (r.options.giveShort (c :: short)).map fun (o, p) => ⟨o, p, false⟩
      | _ => file

end Reading

/-- What the arguments ask for. -/
def Invocation.ofArguments (arguments : List String) : Invocation :=
  match arguments.foldlM Reading.step ⟨.empty, none, false⟩ with
  | .error invocation => invocation
  | .ok r => if r.pending.isSome then .misuse else .run r.options

end Respell.CommandLine

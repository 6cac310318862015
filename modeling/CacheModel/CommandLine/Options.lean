/-!
# Options

The arguments are looked at from left to right, and the first thing that ends the program, be it a
question that can be answered at once or a mistake, decides.  An option with a value takes it after
an equals sign or from the next argument, which then must not look like an option itself.  No
option may be given twice.
-/

namespace CacheModel.CommandLine

/-- What the program is asked to do. -/
structure Options where
  icache : Option String := none
  dcache : Option String := none
  l2 : Option String := none
  config : Option String := none
  logMisses : Bool := false
  json : Bool := false
  trace : Option String := none
  deriving Repr, DecidableEq

/-- The options that take a value. -/
inductive Setting where
  | icache
  | dcache
  | l2
  | config
  deriving Repr, DecidableEq

/-- The options that take none. -/
inductive Switch where
  | logMisses
  | json
  | version
  | help
  deriving Repr, DecidableEq

/-- How the arguments can be wrong. -/
inductive UsageError where
  | unknown (argument : String)
  | repeated (name : String)
  | noValue (name : String)
  | needlessValue (name : String)
  | emptyValue (name : String)
  deriving Repr, DecidableEq

/-- What the arguments amount to. -/
inductive Demand where
  | simulate (options : Options)
  | version
  | help
  | mistake (error : UsageError)
  deriving Repr, DecidableEq

/-- The wording of a mistake. -/
def UsageError.message : UsageError → String
  | unknown argument => s!"unexpected argument '{argument}' found"
  | repeated name => s!"the argument '{name}' cannot be used multiple times"
  | noValue name => s!"a value is required for '{name}' but none was supplied"
  | needlessValue name => s!"unexpected value for '{name}' found; no more were expected"
  | emptyValue name => s!"a value is required for '{name}' but none was supplied"

/-- The long names of options with a value. -/
def settingNames : List (List Char × Setting) :=
  [("ic".toList, .icache), ("dc".toList, .dcache), ("l2".toList, .l2), ("config".toList, .config)]

/-- The long names of options without a value. -/
def switchNames : List (List Char × Switch) :=
  [("log-cache-miss".toList, .logMisses), ("json".toList, .json), ("version".toList, .version),
   ("help".toList, .help)]

namespace Options

/-- The value that an option has so far. -/
def get (o : Options) : Setting → Option String
  | .icache => o.icache
  | .dcache => o.dcache
  | .l2 => o.l2
  | .config => o.config

/-- Gives an option its value. -/
def put (o : Options) (value : String) : Setting → Options
  | .icache => { o with icache := some value }
  | .dcache => { o with dcache := some value }
  | .l2 => { o with l2 := some value }
  | .config => { o with config := some value }

/-- Gives an option its value, once.  The name of a file must not be empty. -/
def set (o : Options) (name : String) (setting : Setting) (value : String) :
    Except Demand Options :=
  if (o.get setting).isSome then .error (.mistake (.repeated name))
  else if setting = .config ∧ value = "" then .error (.mistake (.emptyValue name))
  else .ok (o.put value setting)

/-- Turns an option on, once; two of them are questions that end the program. -/
def turnOn (o : Options) (name : String) : Switch → Except Demand Options
  | .version => .error .version
  | .help => .error .help
  | .logMisses =>
    if o.logMisses then .error (.mistake (.repeated name)) else .ok { o with logMisses := true }
  | .json => if o.json then .error (.mistake (.repeated name)) else .ok { o with json := true }

/-- Takes the name of the trace, once. -/
def takeTrace (o : Options) (value : String) : Except Demand Options :=
  if o.trace.isSome then .error (.mistake (.unknown value))
  else if value = "" then .error (.mistake (.emptyValue "[TRACE]"))
  else .ok { o with trace := some value }

end Options

/-- Whether an argument looks like an option.  A single hyphen does not. -/
def looksLikeOption (argument : String) : Bool :=
  match argument.toList with
  | '-' :: _ :: _ => true
  | _ => false

/-- The arguments behind a double hyphen, none of which is an option. -/
def plainArguments (o : Options) : List String → Except Demand Options
  | [] => .ok o
  | argument :: rest => do
    let o ← o.takeTrace argument
    plainArguments o rest

/-- What a group of short options asks for; the first letter decides. -/
def shortOptions (argument : String) : List Char → Demand
  | 'V' :: _ => .version
  | 'h' :: _ => .help
  | _ => .mistake (.unknown argument)

/-- Reads arguments into options, up to the thing that ends the program. -/
def collect (o : Options) : List String → Except Demand Options
  | [] => .ok o
  | argument :: rest =>
    match argument.toList with
    | ['-', '-'] => plainArguments o rest
    | '-' :: '-' :: text =>
      let name := text.takeWhile (fun c => c != '=')
      let attached := (text.dropWhile (fun c => c != '=')).tail?
      match settingNames.lookup name, switchNames.lookup name, attached, rest with
      | some setting, _, some value, rest => do
        let o ← o.set argument setting (String.ofList value)
        collect o rest
      | some setting, _, none, value :: rest =>
        if looksLikeOption value then .error (.mistake (.noValue argument))
        else do
          let o ← o.set argument setting value
          collect o rest
      | some _, _, none, [] => .error (.mistake (.noValue argument))
      | none, some _, some _, _ => .error (.mistake (.needlessValue argument))
      | none, some switch, none, rest => do
        let o ← o.turnOn argument switch
        collect o rest
      | none, none, _, _ => .error (.mistake (.unknown argument))
    | '-' :: letter :: letters => .error (shortOptions argument (letter :: letters))
    | _ => do
      let o ← o.takeTrace argument
      collect o rest

/-- What the arguments amount to. -/
def demand (arguments : List String) : Demand :=
  match collect {} arguments with
  | .ok options => .simulate options
  | .error demand => demand

end CacheModel.CommandLine

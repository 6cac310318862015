import CacheModel.CommandLine.Options
import CacheModel.Hierarchy
import CacheModel.Log
import CacheModel.Text.Blank
import CacheModel.Trace

/-!
# The program

The program reads its arguments, then the description of the hierarchy, then the geometries that
the arguments give for single levels, builds the hierarchy, reads the whole trace, replays it and
prints the reports.  The first of these steps that fails ends the run.  Only if the hierarchy is
accepted and there is no room for it the run has no end of its own: the program stops where it
stands, and nothing is left behind but what was logged before.

How files are read is left open: `run` works in any monad that offers it.  All else is pure, and
what the program writes is returned as text.
-/

namespace CacheModel.CommandLine

/-- How files are read. -/
structure Files (m : Type → Type) where
  read : String → m (Except ReadFailure ByteArray)
  standardInput : m (Except ReadFailure ByteArray)

/-- What a run leaves behind. -/
structure Output where
  status : Nat
  out : String
  log : String
  deriving Repr, DecidableEq

/-! ## The hierarchy that is asked for -/

/-- Why the hierarchy cannot be built. -/
inductive ConfigError where
  | description (error : Description.Error)
  | geometry (error : GeometryError)

/-- The sentence shown for a hierarchy that cannot be built. -/
def ConfigError.message : ConfigError → String
  | description error => error.message
  | geometry error => error.message

/-- The geometry that an argument gives for a level, or else the one of the description. -/
def overrideLevel (argument : Option String) (level : Option Geometry) :
    Except ConfigError (Option Geometry) :=
  match argument with
  | none => .ok level
  | some text => ((Geometry.parse text).map some).mapError .geometry

/-- The description of the hierarchy: the one in the file, if there is a file, with the levels
that the arguments give put in the place of its own.  The file is judged first, then the arguments
in the order of the levels. -/
def resolve (options : Options) (file : Option (Except ReadFailure ByteArray)) :
    Except ConfigError Description := do
  let base ← match file with
    | some bytes => (Description.ofBytes bytes).mapError .description
    | none => .ok .empty
  let icache ← overrideLevel options.icache base.icache
  let dcache ← overrideLevel options.dcache base.dcache
  let l2 ← overrideLevel options.l2 base.l2
  return { icache, dcache, l2, logMisses := base.logMisses || options.logMisses }

/-! ## Stages of a run -/

/-- The name and version of the program. -/
def versionText : String := "cachesim 0.3.0\n"

/-- The summary of the options. -/
def helpText : String :=
  "Trace-driven cache hierarchy simulator\n\n" ++
  "Usage: cachesim [OPTIONS] [TRACE]\n\n" ++
  "Arguments:\n" ++
  "  [TRACE]  Trace file. Reads stdin when omitted or `-`\n\n" ++
  "Options:\n" ++
  "      --ic <S:W:B[:P]>   Instruction cache geometry\n" ++
  "      --dc <S:W:B[:P]>   Data cache geometry\n" ++
  "      --l2 <S:W:B[:P]>   Unified L2 cache geometry (miss handler of both L1s)\n" ++
  "      --config <FILE>    JSON hierarchy description. Geometry flags override its entries\n" ++
  "      --log-cache-miss   Log every cache miss to stderr\n" ++
  "      --json             Print statistics as JSON instead of text\n" ++
  "  -h, --help             Print help\n" ++
  "  -V, --version          Print version\n"

/-- How a run ends. -/
inductive Ending where
  | finished (output : Output)
  /-- A cache could not be made for want of room, and the program stopped where it stood. -/
  | stopped (log : String)
  deriving Repr, DecidableEq

/-- The end of a run whose hierarchy cannot be built: the problem, and advice. -/
def refuse (log : String) (error : ConfigError) : Ending :=
  .finished
    { status := 1, out := "", log := log ++ s!"error: {error.message}\n{Geometry.help}\n" }

/-- A run that is ready to read its trace. -/
structure Session where
  hierarchy : Hierarchy
  filter : Log.Filter
  json : Bool
  /-- What has been logged so far. -/
  log : String

/-- Sets up a run: the description, the filter of the log, and the hierarchy. -/
def prepare (options : Options) (filterText : Option String)
    (file : Option (Except ReadFailure ByteArray)) : Except Ending Session :=
  match resolve options file with
  | .error error => .error (refuse "" error)
  | .ok d =>
    let filter := Log.Filter.choose filterText d.logMisses
    let notes := if d.isEmpty then [Event.nothingConfigured] else []
    match Hierarchy.make d with
    | .error obstacle =>
      let log := Log.render filter (notes ++ Hierarchy.eventsBeforeObstacle d)
      match obstacle with
      | .refused error => .error (refuse log (.geometry error))
      | .capacityOverflow => .error (.stopped log)
    | .ok hierarchy =>
      .ok { hierarchy, filter, json := options.json
            log := Log.render filter (notes ++ hierarchy.builtEvents) }

/-- The reports of a hierarchy as the program prints them. -/
def reportOutput (json : Bool) (h : Hierarchy) : String :=
  if json then Report.spreadList h.reports ++ "\n" else h.reportText

/-- Replays a trace. -/
def replay (s : Session) (trace : Except ReadFailure ByteArray) : Output :=
  match Trace.readFrom trace with
  | .error error => { status := 1, out := "", log := s.log ++ s!"error: {error.message}\n" }
  | .ok accesses =>
    let (hierarchy, account) := s.hierarchy.run accesses
    { status := 0
      out := reportOutput s.json hierarchy
      log := s.log ++ Log.render s.filter
        (.traceLoaded accesses.length :: Occurrence.events account.toList) }

/-- Whether the name of a trace stands for the standard input: a hyphen, behind which slashes and
single points do not count. -/
def isStandardInput (name : String) : Bool :=
  match Text.splitBy (· == '/') name.toList with
  | ['-'] :: rest => rest.all fun piece => piece.isEmpty || piece == ['.']
  | _ => false

/-- Whether a trace is to be read from the standard input. -/
def readsStandardInput (o : Options) : Bool :=
  o.trace.all isStandardInput

/-- Runs the simulation that the options ask for. -/
def simulate {m : Type → Type} [Monad m] (files : Files m) (filterText : Option String)
    (o : Options) : m Ending := do
  let file ← match o.config with
    | some name => some <$> files.read name
    | none => pure none
  match prepare o filterText file with
  | .error ending => return ending
  | .ok session =>
    let trace ←
      if readsStandardInput o then files.standardInput else files.read (o.trace.getD "-")
    return .finished (replay session trace)

/-- Runs the program with its arguments. -/
def run {m : Type → Type} [Monad m] (files : Files m) (filterText : Option String)
    (arguments : List String) : m Ending :=
  match demand arguments with
  | .version => pure (.finished { status := 0, out := versionText, log := "" })
  | .help => pure (.finished { status := 0, out := helpText, log := "" })
  | .mistake error =>
    pure (.finished { status := 2, out := "", log := s!"error: {error.message}\n" })
  | .simulate options => simulate files filterText options

end CacheModel.CommandLine

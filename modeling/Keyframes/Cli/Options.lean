import Keyframes.Text.Digit
import Keyframes.Decimal.Read
import Keyframes.Text.Blank
import Keyframes.Log

/-!
# Command-line options

The command line is `[--log-level LEVEL] COMMAND [OPTIONS]` with the commands `compile`, `play`
and `table`. Parsing follows the conventions of long options:

* an option is written in full or by any prefix that no other option of the same parser
  shares (`--tick 5` for `--ticks 5`); an ambiguous prefix is an error;
* a value follows its option as the next argument, or after `=` in the same argument; the next
  argument is a value only when it does not itself look like an option (a negative number or
  a text with a blank does not);
* `-h` and `--help` ask for help; options of one character that take no value may be packed
  behind one dash (`-hh`, also `-h=h`), and a packed character that is no option makes the
  whole argument a usage error before any of its options takes effect (`-hx` is an error, not
  a request for help);
* `--` ends the options; an option whose value is written `--` after `=` (`--config=--`) loses
  it, as `--` is dropped from every list of values, and holds the empty list;
* an option given twice keeps its last value; arguments that belong to no option are an error,
  reported once the whole line is read, so a later `-h` still asks for help.

Everything after the command belongs to the command's own parser. A usage error or a request
for help ends parsing (`Stop`). A request for help gives the help of the parser it was made to:
its usage and its options with what they do, laid out for a terminal of 80 columns (lines
wrapped at 78, help texts from column 24 at the latest); the text shown with a usage error is
not part of the result.

Main statement: `takeAll_help` (help asked for before any value is converted ends parsing).
-/

namespace Keyframes.Cli

/-- How an option takes its value. -/
inductive Takes where
  /-- Asks for help, which shows the text given. -/
  | help (text : String)
  | flag
  | text
  | upper
  | integer
deriving Repr, BEq, DecidableEq

/-- An option: its spellings, the key its value is stored under, how it takes its value, and
the values it allows (any, when empty). -/
structure OptionSpec where
  names : List String
  key : String
  takes : Takes
  choices : List String := []

/-- A parser: its options and the keys of those that must be given. -/
structure ParserSpec where
  options : List OptionSpec
  required : List String := []

/-- An argument of the command line, by its code points: an argument may hold lone surrogates,
which its text (`Arg.text`) shows as replacement characters. Parsing decides on the text; the
values it gives keep the code points. -/
structure Arg where
  codes : List Nat
deriving Repr, BEq, DecidableEq

/-- The text of an argument. -/
def Arg.text (a : Arg) : String :=
  Text.ofCodes a.codes

/-- The argument of a text. -/
def Arg.ofString (s : String) : Arg :=
  ⟨Text.codes s⟩

/-- What follows the first `k` characters of an argument. -/
def Arg.drop (a : Arg) (k : Nat) : Arg :=
  ⟨a.codes.drop k⟩

/-- A value given on the command line: a text (by its code points), a whole number, a flag that
is set, or the empty list of an option whose only value was `--`. -/
inductive Given where
  | text (codes : List Nat)
  | int (n : Int)
  | on
  | empty
deriving Repr, BEq, DecidableEq

/-- Why parsing ended without a result. -/
inductive Stop where
  | usage
  | help (text : String)
deriving Repr, BEq, DecidableEq

/-- What one argument is to a parser. -/
inductive Piece where
  /-- A plain argument. -/
  | arg
  /-- The `--` that ends the options. -/
  | dashes
  /-- Something that looks like an option this parser does not know. -/
  | unknown
  /-- An option, as spelled in full, with the value written in the same argument, if any:
  after `=`, or glued to a one-character option. -/
  | opt (o : OptionSpec) (used : String) (explicit : Option Arg)

/-- The values given so far, by key. -/
abbrev Namespace := List (String × Given)

/-- Stores a value, replacing an earlier one. -/
def Namespace.store (ns : Namespace) (key : String) (v : Given) : Namespace :=
  (ns.filter (·.1 != key)) ++ [(key, v)]

/-- The value stored under a key. -/
def Namespace.get? (ns : Namespace) (key : String) : Option Given :=
  (ns.find? (·.1 == key)).map (·.2)

namespace ParserSpec

/-- Every spelling of every option, with its option. -/
def spellings (spec : ParserSpec) : List (String × OptionSpec) :=
  spec.options.flatMap fun o => o.names.map fun n => (n, o)

/-- The option spelled exactly so. -/
def find? (spec : ParserSpec) (s : String) : Option OptionSpec :=
  (spec.spellings.find? (·.1 == s)).map (·.2)

end ParserSpec

/-- A text cut at its first `=`. -/
def splitAtEquals (s : String) : Option (String × String) :=
  let cs := s.toList
  if cs.contains '=' then
    some (String.ofList (cs.takeWhile (· != '=')), String.ofList ((cs.dropWhile (· != '=')).drop 1))
  else none

/-- The options an argument may abbreviate, each with the value it carries. After two dashes
the argument is a prefix of a long spelling, with its value after `=`; after one dash it is a
prefix of a spelling, or a two-character spelling with the value glued on. -/
def abbreviations (spec : ParserSpec) (a : Arg) :
    List (OptionSpec × String × Option Arg) :=
  let s := a.text
  match s.toList with
  | '-' :: '-' :: _ =>
    let (pre, explicit) := match splitAtEquals s with
      | some (before, _) => (before, some (a.drop (before.length + 1)))
      | none => (s, none)
    spec.spellings.filterMap fun (n, o) => if n.startsWith pre then some (o, n, explicit) else none
  | '-' :: c :: _ =>
    let short := String.ofList ['-', c]
    spec.spellings.filterMap fun (n, o) =>
      if n = short then some (o, n, some (a.drop 2))
      else if n.startsWith s then some (o, n, none) else none
  | _ => []

/-- Whether an argument reads as a negative number: a minus sign, then digits, or digits
around a point with at least one after it; one line feed may follow. -/
def isNegativeNumber (s : String) : Bool :=
  let cs := s.toList
  let cs := if cs.getLast? = some '\n' then cs.dropLast else cs
  match cs with
  | '-' :: rest =>
    let whole := rest.takeWhile Text.isDigit
    match rest.drop whole.length with
    | [] => !whole.isEmpty
    | '.' :: frac => !frac.isEmpty && frac.all Text.isDigit
    | _ => false
  | _ => false

/-- What an argument is to a parser; an ambiguous abbreviation is a usage error. -/
def classifyOne (spec : ParserSpec) (a : Arg) : Except Stop Piece :=
  let s := a.text
  match s.toList with
  | [] => .ok .arg
  | c :: rest =>
    if c ≠ '-' then .ok .arg
    else match spec.find? s with
      | some o => .ok (.opt o s none)
      | none =>
        if rest.isEmpty then .ok .arg
        else
          let viaEquals := match splitAtEquals s with
            | some (before, _) =>
              (spec.find? before).map fun o => Piece.opt o before (some (a.drop (before.length + 1)))
            | none => none
          match viaEquals with
          | some p => .ok p
          | none =>
            match abbreviations spec a with
            | [(o, n, e)] => .ok (.opt o n e)
            | _ :: _ :: _ => .error .usage
            | [] => if isNegativeNumber s || rest.contains ' ' then .ok .arg else .ok .unknown

/-- What every argument is; all after the first `--` are plain arguments. -/
def classify (spec : ParserSpec) : List Arg → Except Stop (List (Arg × Piece))
  | [] => .ok []
  | a :: rest =>
    if a.text = "--" then .ok ((a, .dashes) :: rest.map fun r => (r, .arg))
    else do
      let p ← classifyOne spec a
      let ps ← classify spec rest
      return (a, p) :: ps

/-- A text in capitals, as far as the names of levels need: ASCII letters, and the dotless `ı`
and the long `ſ`, whose capitals are `I` and `S`. -/
def upperForChoice (s : String) : String :=
  String.ofList (s.toList.map fun c =>
    if 'a' ≤ c ∧ c ≤ 'z' then Char.ofNat (c.toNat - 32)
    else if c = 'ı' then 'I' else if c = 'ſ' then 'S' else c)

/-- The value an option takes from an argument. -/
def convert (o : OptionSpec) (v : Arg) : Except Stop Given :=
  if v.text = "--" then .ok .empty else
  let g : Except Stop Given := match o.takes with
    | .text => .ok (.text v.codes)
    | .upper => .ok (.text (Text.codes (upperForChoice v.text)))
    | .integer => match Decimal.readInt? v.text with
      | some n => .ok (.int n)
      | none => .error .usage
    | .help _ | .flag => .error .usage
  match g with
  | .ok (.text t) =>
    if o.choices.isEmpty || o.choices.contains (Text.ofCodes t) then .ok (.text t) else .error .usage
  | other => other

/-- Whether an option takes no value. -/
def OptionSpec.bare (o : OptionSpec) : Bool :=
  match o.takes with
  | .help _ | .flag => true
  | _ => false

/-- What the characters packed after a one-character option that takes no value give: further
options, each with the value it took (if any), and an option still waiting for its value from
the next argument. -/
structure Packed where
  taken : List (OptionSpec × Option Arg) := []
  waiting : Option OptionSpec := none

/-- Reads the characters packed behind a one-character option that takes no value. Each must
be a one-character option, or the argument is a usage error (a packed `-` included, since `--`
is no option); one that takes no value may be followed by more packed options, one that takes
a value takes the rest of the text as it stands, or the next argument when nothing follows. -/
def packed (spec : ParserSpec) : List Nat → Except Stop Packed
  | [] => .ok {}
  | c :: rest =>
    match spec.find? (String.ofList ['-', Text.charOfCode c]) with
    | none => .error .usage
    | some o =>
      match rest with
      | [] => if o.bare then .ok { taken := [(o, none)] } else .ok { waiting := some o }
      | d :: x =>
        if o.bare then do
          let more ← packed spec (d :: x)
          return { more with taken := (o, none) :: more.taken }
        else .ok { taken := [(o, some ⟨d :: x⟩)] }

/-- Takes options in order, converting their values; help ends parsing. -/
def takeAll : List (OptionSpec × Option Arg) → Namespace → Except Stop Namespace
  | [], ns => .ok ns
  | (o, v) :: rest, ns =>
    match o.takes with
    | .help text => .error (.help text)
    | .flag => takeAll rest (ns.store o.key .on)
    | _ => do
      let g ← convert o (v.getD ⟨[]⟩)
      takeAll rest (ns.store o.key g)

theorem takeAll_help (o : OptionSpec) (v : Option Arg) (rest : List (OptionSpec × Option Arg))
    (ns : Namespace) (text : String) (h : o.takes = .help text) :
    takeAll ((o, v) :: rest) ns = .error (.help text) := by
  unfold takeAll
  rw [h]

/-- Reads the arguments in order, storing option values and keeping the arguments that belong
to no option. With `positional`, the first plain argument (after any `--`) starts the command:
it and everything after it are given back. -/
def consume (spec : ParserSpec) (positional : Bool) :
    List (Arg × Piece) → Namespace → List Arg →
      Except Stop (Namespace × List Arg × List Arg)
  | [], ns, extra => .ok (ns, extra, [])
  | (s, .unknown) :: rest, ns, extra => consume spec positional rest ns (extra ++ [s])
  | (s, .arg) :: rest, ns, extra =>
    if positional then .ok (ns, extra, s :: rest.map (·.1))
    else consume spec positional rest ns (extra ++ [s])
  | (s, .dashes) :: rest, ns, extra =>
    if positional && !rest.isEmpty then .ok (ns, extra, s :: rest.map (·.1))
    else consume spec positional rest ns (extra ++ [s])
  | (_, .opt o used (some x)) :: rest, ns, extra =>
    if o.bare then
      match used.toList with
      | '-' :: c :: _ =>
        if c ≠ '-' && !x.codes.isEmpty then do
          let p ← packed spec x.codes
          match p.waiting with
          | none =>
            let ns ← takeAll ((o, none) :: p.taken) ns
            consume spec positional rest ns extra
          | some w =>
            match rest with
            | (v, .arg) :: more =>
              let ns ← takeAll ((o, none) :: p.taken ++ [(w, some v)]) ns
              consume spec positional more ns extra
            | _ => .error .usage
        else .error .usage
      | _ => .error .usage
    else do
      let ns ← takeAll [(o, some x)] ns
      consume spec positional rest ns extra
  | (_, .opt o _ none) :: rest, ns, extra =>
    if o.bare then do
      let ns ← takeAll [(o, none)] ns
      consume spec positional rest ns extra
    else match rest with
      | (v, .arg) :: more => do
        let ns ← takeAll [(o, some v)] ns
        consume spec positional more ns extra
      | _ => .error .usage

/-- A help text: its lines, each ended by a line feed. -/
def helpText (lines : List String) : String :=
  String.join (lines.map (· ++ "\n"))

/-- The help of the command line as a whole. -/
def mainHelp : String := helpText [
  "usage: dispa_timeline [-h] [--log-level \x7bDEBUG,INFO,WARNING,ERROR,CRITICAL\x7d]",
  "                      \x7bcompile,play,table\x7d ...",
  "",
  "DiSPA timeline toolkit. Compiles .dspa animation sources into command scripts",
  "and plays baked rule tables tick by tick.",
  "",
  "positional arguments:",
  "  \x7bcompile,play,table\x7d",
  "    compile             Compile every .dspa file under the configured source",
  "                        folder.",
  "    play                Play a timeline and print a per-tick trace.",
  "    table               Print the baked rule table of a .dspa file as JSON.",
  "",
  "options:",
  "  -h, --help            show this help message and exit",
  "  --log-level \x7bDEBUG,INFO,WARNING,ERROR,CRITICAL\x7d",
  "                        Logging level written to stderr."]

/-- The help of `compile`. -/
def compileHelp : String := helpText [
  "usage: dispa_timeline compile [-h] [--config CONFIG]",
  "",
  "options:",
  "  -h, --help       show this help message and exit",
  "  --config CONFIG  Config JSON (created with defaults when missing)."]

/-- The help of `play`. -/
def playHelp : String := helpText [
  "usage: dispa_timeline play [-h] [--source SOURCE] [--table TABLE]",
  "                           [--ticks TICKS] [--start-timer START_TIMER]",
  "                           [--only-active] [--events-out EVENTS_OUT]",
  "",
  "options:",
  "  -h, --help            show this help message and exit",
  "  --source SOURCE       Compile and play a .dspa file.",
  "  --table TABLE         Play a baked rule table JSON.",
  "  --ticks TICKS         Number of game ticks to run.",
  "  --start-timer START_TIMER",
  "                        Optional: initial timer value.",
  "  --only-active         Only print ticks where something fired or reset.",
  "  --events-out EVENTS_OUT",
  "                        Optional: write the event stream as JSON."]

/-- The help of `table`. -/
def tableHelp : String := helpText [
  "usage: dispa_timeline table [-h] --source SOURCE [--out OUT]",
  "",
  "options:",
  "  -h, --help       show this help message and exit",
  "  --source SOURCE  The .dspa file to bake.",
  "  --out OUT        Optional: write to this path instead of stdout."]

/-- The help option every parser has, showing that parser's help. -/
def helpOption (text : String) : OptionSpec := ⟨["-h", "--help"], "help", .help text, []⟩

/-- The options before the command. -/
def mainSpec : ParserSpec :=
  { options := [helpOption mainHelp, ⟨["--log-level"], "log_level", .upper, Level.all.map (·.name)⟩] }

/-- The options of `compile`. -/
def compileSpec : ParserSpec :=
  { options := [helpOption compileHelp, ⟨["--config"], "config", .text, []⟩] }

/-- The options of `play`. -/
def playSpec : ParserSpec :=
  { options := [helpOption playHelp, ⟨["--source"], "source", .text, []⟩, ⟨["--table"], "table", .text, []⟩,
      ⟨["--ticks"], "ticks", .integer, []⟩, ⟨["--start-timer"], "start_timer", .integer, []⟩,
      ⟨["--only-active"], "only_active", .flag, []⟩, ⟨["--events-out"], "events_out", .text, []⟩] }

/-- The options of `table`. -/
def tableSpec : ParserSpec :=
  { options := [helpOption tableHelp, ⟨["--source"], "source", .text, []⟩, ⟨["--out"], "out", .text, []⟩]
    required := ["source"] }

/-- What `play` was asked to do. The tick count and the start timer are kept as given, since an
empty list stands where a number should. -/
structure PlayOptions where
  source : Option (List Nat)
  table : Option (List Nat)
  ticks : Given
  startTimer : Option Given
  onlyActive : Bool
  eventsOut : Option (List Nat)

/-- A command with its options; paths are kept by their code points. -/
inductive Command where
  | compile (config : List Nat)
  | play (o : PlayOptions)
  | table (source : List Nat) (out : Option (List Nat))

/-- A parsed command line: the log level asked for (a name, or an empty list), and the
command. -/
structure Invocation where
  logLevel : Given
  command : Command

/-- The parser of a command's options. -/
def commandSpec? : String → Option ParserSpec
  | "compile" => some compileSpec
  | "play" => some playSpec
  | "table" => some tableSpec
  | _ => none

/-- The text stored under a key. -/
def Namespace.text? (ns : Namespace) (key : String) : Option (List Nat) :=
  match ns.get? key with
  | some (.text s) => some s
  | _ => none

/-- The text a path option stands for: its text, or `[]` for an empty list. -/
def Namespace.pathText? (ns : Namespace) (key : String) : Option (List Nat) :=
  match ns.get? key with
  | some (.text s) => some s
  | some .empty => some (Text.codes "[]")
  | _ => none

/-- The command a name and its options make. -/
def commandOf (name : String) (ns : Namespace) : Command :=
  if name = "compile" then .compile ((ns.pathText? "config").getD (Text.codes "dspa_config.json"))
  else if name = "play" then
    .play { source := ns.text? "source", table := ns.text? "table"
            ticks := (ns.get? "ticks").getD (.int 50), startTimer := ns.get? "start_timer"
            onlyActive := (ns.get? "only_active").isSome, eventsOut := ns.text? "events_out" }
  else .table ((ns.pathText? "source").getD []) (ns.text? "out")

/-- Parses a command line. -/
def parseCommandLine (args : List Arg) : Except Stop Invocation := do
  let pieces ← classify mainSpec args
  let (ns, extra, command) ← consume mainSpec true pieces [] []
  match command with
  | [] => .error .usage
  | name :: subArgs =>
    match commandSpec? name.text with
    | none => .error .usage
    | some spec =>
      let subPieces ← classify spec subArgs
      let (sub, subExtra, _) ← consume spec false subPieces [] []
      if spec.required.any (fun k => (sub.get? k).isNone) then .error .usage
      else if !(extra ++ subExtra).isEmpty then .error .usage
      else .ok { logLevel := (ns.get? "log_level").getD (.text (Text.codes "WARNING"))
                 command := commandOf name.text sub }

end Keyframes.Cli

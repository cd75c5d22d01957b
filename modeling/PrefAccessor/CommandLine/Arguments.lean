import PrefAccessor.Text.Digit

/-!
# Command line arguments

The grammar of the arguments. Long options may be shortened as long as one is meant; a value stands
behind its option or after an equals sign, and short options can share one dash. What looks like an
option is never a value, and after two dashes nothing is an option. The first misuse decides, unless
help was asked for before it.
-/

namespace PrefAccessor.CommandLine

set_option autoImplicit false

inductive Switch where
  | help
  | language
  | output
  | config
  | packageName
  | classSuffix
  | methodCase
  | noComments
  | allowDuplicateKeys
  | stopOnEmpty
  | verbose
  | quiet
  deriving DecidableEq, Repr

def Switch.takesValue : Switch → Bool
  | .language => true
  | .output => true
  | .config => true
  | .packageName => true
  | .classSuffix => true
  | .methodCase => true
  | _ => false

/-- The options that a command has, in all their spellings. -/
abbrev Spellings := List (Text × Switch)

def helpSpellings : Spellings := [("-h", .help), ("--help", .help)]

def verbositySpellings : Spellings := [
  ("--verbose", .verbose), ("-v", .verbose), ("--quiet", .quiet), ("-q", .quiet)]

def generateSpellings : Spellings :=
  helpSpellings ++ ([
    ("--language", .language), ("-l", .language), ("--output", .output), ("-o", .output),
    ("--config", .config), ("--package-name", .packageName), ("--package", .packageName),
    ("--class-suffix", .classSuffix), ("--method-case", .methodCase),
    ("--no-comments", .noComments), ("--allow-duplicate-keys", .allowDuplicateKeys),
    ("--stop-on-empty", .stopOnEmpty)] : Spellings) ++ verbositySpellings

def languagesSpellings : Spellings :=
  helpSpellings ++ verbositySpellings

/-- A value written into the same argument as its option. -/
structure Attached where
  value : List CodePoint
  /-- Whether an equals sign stands in between. -/
  afterEquals : Bool
  deriving DecidableEq, Repr

inductive Token where
  /-- Two dashes. -/
  | separator
  | plain (text : Text)
  | option (switch : Switch) (isLong : Bool) (attached : Option Attached)
  /-- Something that looks like an option and is none. -/
  | unknown
  deriving DecidableEq, Repr

/-- How arguments end without being carried out. -/
inductive Misuse where
  | helpShown
  | error
  deriving DecidableEq, Repr

def Misuse.status : Misuse → Nat
  | .helpShown => 0
  | .error => 2

def isLongSpelling (cs : List CodePoint) : Bool :=
  ("--" : Text).toList.isPrefixOf cs

/-- The part before the first equals sign, and the part behind it if there is one. -/
def splitEquals (cs : List CodePoint) : List CodePoint × Option (List CodePoint) :=
  match cs.dropWhile (· != char '=') with
  | _ :: value => (cs.takeWhile (· != char '='), some value)
  | [] => (cs, none)

def attachedAfterEquals (value : Option (List CodePoint)) : Option Attached :=
  value.map fun v => ⟨v, true⟩

/-- The readings of an argument that is spelled like no option: a long one may be shortened, a short
one has the rest of the argument attached. -/
def readings (spellings : Spellings) (cs : List CodePoint) : List Token :=
  if isLongSpelling cs then
    let (name, value) := splitEquals cs
    (spellings.filter fun e => name.isPrefixOf e.1.toList).map fun e =>
      .option e.2 (isLongSpelling e.1.toList) (attachedAfterEquals value)
  else
    (spellings.filter fun e => e.1.toList == cs.take 2).map fun e =>
      .option e.2 false (some ⟨cs.drop 2, false⟩)

/-- Digits with at most one point before the last of them. -/
def isUnsignedNumber (cs : List CodePoint) : Bool :=
  let rest := cs.dropWhile Text.isDigit
  if rest = [] then !cs.isEmpty
  else
    match rest with
    | '.' :: ds => !ds.isEmpty && ds.all Text.isDigit
    | _ => false

/-- A dash and a number, with perhaps a line feed behind. -/
def isNegativeNumber (cs : List CodePoint) : Bool :=
  match cs with
  | '-' :: ds => isUnsignedNumber ds || (ds.getLast? == some (char '\n') && isUnsignedNumber ds.dropLast)
  | _ => false

/-- The token of an argument that is not two dashes. -/
def classify (spellings : Spellings) (argument : Text) : Except Misuse Token :=
  let cs := argument.toList
  if cs.head? ≠ some (char '-') then .ok (.plain argument)
  else
    match spellings.lookup argument with
    | some switch => .ok (.option switch (isLongSpelling cs) none)
    | none =>
      if cs.length = 1 then .ok (.plain argument)
      else
        let (name, value) := splitEquals cs
        match spellings.lookup (Text.ofList name), value with
        | some switch, some value =>
          .ok (.option switch (isLongSpelling name) (some ⟨value, true⟩))
        | _, _ =>
          match readings spellings cs with
          | _ :: _ :: _ => .error .error
          | [t] => .ok t
          | [] =>
            if isNegativeNumber cs || cs.contains ' ' then .ok (.plain argument)
            else .ok .unknown

def tokens (spellings : Spellings) : List Text → Except Misuse (List Token)
  | [] => .ok []
  | a :: rest =>
    if a = "--" then .ok (.separator :: rest.map .plain)
    else
      match classify spellings a with
      | .error m => .error m
      | .ok t => (tokens spellings rest).map (t :: ·)

/-- One option with its value, if it takes one. -/
structure Setting where
  switch : Switch
  value : Text
  deriving DecidableEq, Repr

/-- The settings of one token, and the tokens that are left. -/
structure Consumed where
  settings : List Setting
  /-- Whether a part of the token was no option. -/
  hasRest : Bool
  rest : List Token
  deriving DecidableEq, Repr

def attachedOf : List CodePoint → Option Attached
  | [] => none
  | '=' :: value => some ⟨value, true⟩
  | value => some ⟨value, false⟩

/-- Carries out an option without a value attached. -/
def consumeBare (switch : Switch) (rest : List Token) : Except Misuse Consumed :=
  if switch.takesValue then
    match rest with
    | .plain value :: rest => .ok ⟨[⟨switch, value⟩], false, rest⟩
    | _ => .error .error
  else .ok ⟨[⟨switch, ""⟩], false, rest⟩

/-- Carries out an option. One that takes no value passes what is attached on to the short option
that its first character stands for; `fuel` bounds the length of the attached text. -/
def consume (spellings : Spellings) (rest : List Token) :
    Nat → Switch → Bool → Option Attached → Except Misuse Consumed
  | _, switch, _, none => consumeBare switch rest
  | 0, _, _, some _ => .error .error
  | fuel + 1, switch, isLong, some attached =>
    if switch.takesValue then .ok ⟨[⟨switch, Text.ofList attached.value⟩], false, rest⟩
    else
      match attached.value with
      | [] => .error .error
      | c :: cs =>
        if isLong || attached.afterEquals || c == '-' then .error .error
        else
          match spellings.lookup (Text.ofList [char '-', c]) with
          | none => .ok ⟨[⟨switch, ""⟩], true, rest⟩
          | some next =>
            match consume spellings rest fuel next false (attachedOf cs) with
            | .error m => .error m
            | .ok k => .ok { k with settings := ⟨switch, ""⟩ :: k.settings }

def fuelFor : Option Attached → Nat
  | none => 1
  | some attached => attached.value.length + 1

structure Parsed where
  settings : List Setting
  /-- The plain arguments of the first run of such, if there was one. -/
  sources : Option (List Text)
  /-- Whether something was left over. -/
  hasExtras : Bool
  deriving DecidableEq, Repr

namespace Parsed

def empty : Parsed := ⟨[], none, false⟩

def has (p : Parsed) (switch : Switch) : Bool :=
  p.settings.any fun s => s.switch == switch

/-- The value given last. -/
def value? (p : Parsed) (switch : Switch) : Option Text :=
  (p.settings.filter fun s => s.switch == switch).getLast?.map Setting.value

def styles : List Text := ["camel", "snake"]

/-- One more setting, unless it is not allowed here. -/
def add (p : Parsed) (s : Setting) : Except Misuse Parsed :=
  match s.switch with
  | .help => .error .helpShown
  | .verbose => if p.has .quiet then .error .error else .ok { p with settings := p.settings ++ [s] }
  | .quiet => if p.has .verbose then .error .error else .ok { p with settings := p.settings ++ [s] }
  | .methodCase =>
    if styles.contains s.value then .ok { p with settings := p.settings ++ [s] } else .error .error
  | _ => .ok { p with settings := p.settings ++ [s] }

def addAll (p : Parsed) : List Setting → Except Misuse Parsed
  | [] => .ok p
  | s :: rest =>
    match p.add s with
    | .ok p => addAll p rest
    | .error m => .error m

end Parsed

def isPlain : Token → Bool
  | .separator => true
  | .plain _ => true
  | _ => false

def plainText? : Token → Option Text
  | .plain text => some text
  | _ => none

/-- A run of plain tokens. A command with sources takes the first run that holds one. -/
def Parsed.addRun (p : Parsed) (takesSources : Bool) (run : List Token) : Parsed :=
  match run.filterMap plainText? with
  | [] => { p with hasExtras := true }
  | texts =>
    if takesSources ∧ p.sources = none then { p with sources := some texts }
    else { p with hasExtras := true }

/-- Parses tokens; `fuel` bounds their number. -/
def parseTokens (spellings : Spellings) (takesSources : Bool) :
    Nat → Parsed → List Token → Except Misuse Parsed
  | 0, p, _ => .ok p
  | _ + 1, p, [] => .ok p
  | fuel + 1, p, .unknown :: rest =>
    parseTokens spellings takesSources fuel { p with hasExtras := true } rest
  | fuel + 1, p, .option switch isLong attached :: rest =>
    match consume spellings rest (fuelFor attached) switch isLong attached with
    | .error m => .error m
    | .ok k =>
      match p.addAll k.settings with
      | .error m => .error m
      | .ok p =>
        parseTokens spellings takesSources fuel { p with hasExtras := p.hasExtras || k.hasRest }
          k.rest
  | fuel + 1, p, t :: rest =>
    let run := t :: rest.takeWhile isPlain
    parseTokens spellings takesSources fuel (p.addRun takesSources run) (rest.dropWhile isPlain)

def parseCommand (spellings : Spellings) (takesSources : Bool) (arguments : List Text) :
    Except Misuse Parsed := do
  let ts ← tokens spellings arguments
  let p ← parseTokens spellings takesSources (ts.length + 1) Parsed.empty ts
  if takesSources ∧ p.sources = none then .error .error else .ok p

inductive Verbosity where
  | normal
  | verbose
  | quiet
  deriving DecidableEq, Repr

/-- What to generate, from what, and how. -/
structure Request where
  sources : List Text
  language : Text
  output : Option Text
  config : Option Text
  packageName : Option Text
  classSuffix : Option Text
  methodCase : Option Text
  noComments : Bool
  allowDuplicateKeys : Bool
  stopOnEmpty : Bool
  verbosity : Verbosity
  deriving DecidableEq, Repr

inductive Invocation where
  | misuse (misuse : Misuse)
  /-- No command was given. -/
  | nothing
  | languages
  | generate (request : Request)
  deriving DecidableEq, Repr

def Parsed.verbosity (p : Parsed) : Verbosity :=
  if p.has .verbose then .verbose else if p.has .quiet then .quiet else .normal

def Parsed.request (p : Parsed) : Request where
  sources := p.sources.getD []
  language := (p.value? .language).getD "python"
  output := p.value? .output
  config := p.value? .config
  packageName := p.value? .packageName
  classSuffix := p.value? .classSuffix
  methodCase := p.value? .methodCase
  noComments := p.has .noComments
  allowDuplicateKeys := p.has .allowDuplicateKeys
  stopOnEmpty := p.has .stopOnEmpty
  verbosity := p.verbosity

/-- The invocation of a command, where `hasExtras` tells of arguments that nothing could be made of
before it. -/
def invoke (hasExtras : Bool) (spellings : Spellings) (takesSources : Bool)
    (arguments : List Text) (f : Parsed → Invocation) : Invocation :=
  match parseCommand spellings takesSources arguments with
  | .error m => .misuse m
  | .ok p => if hasExtras || p.hasExtras then .misuse .error else f p

/-- The invocation that arguments ask for. Before the command only help is an option. -/
def invocationFrom (hasExtras : Bool) : List Text → Invocation
  | [] => if hasExtras then .misuse .error else .nothing
  | a :: rest =>
    if a = "--" then .misuse .error
    else
      match classify helpSpellings a with
      | .error m => .misuse m
      | .ok (.option switch isLong attached) =>
        match consume helpSpellings [] (fuelFor attached) switch isLong attached with
        | .error m => .misuse m
        | .ok _ => .misuse .helpShown
      | .ok (.plain "generate") =>
        invoke hasExtras generateSpellings true rest fun p => .generate p.request
      | .ok (.plain "languages") =>
        invoke hasExtras languagesSpellings false rest fun _ => .languages
      | .ok (.plain _) => .misuse .error
      | .ok _ => invocationFrom true rest

def invocation (arguments : List Text) : Invocation :=
  invocationFrom false arguments

end PrefAccessor.CommandLine

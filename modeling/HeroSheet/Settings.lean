import HeroSheet.Data.Json
import HeroSheet.Record.Basic
import HeroSheet.Text.UpperCase

namespace HeroSheet

/-- The edition of the rules that a sheet is built on. -/
inductive Edition where
  | of2014
  | of2024
  deriving DecidableEq, Repr

namespace Edition

def name : Edition → String
  | .of2014 => "2014"
  | .of2024 => "2024"

def ofName? (name : String) : Option Edition :=
  [Edition.of2014, .of2024].find? fun e => e.name == name

end Edition

inductive LogLevel where
  | debug
  | info
  | warning
  | error
  | critical
  deriving DecidableEq, Repr

namespace LogLevel

def all : List LogLevel := [.debug, .info, .warning, .error, .critical]

def name : LogLevel → String
  | .debug => "DEBUG"
  | .info => "INFO"
  | .warning => "WARNING"
  | .error => "ERROR"
  | .critical => "CRITICAL"

def ofName? (name : String) : Option LogLevel := all.find? fun l => l.name == name

/-- The name in small letters, as events carry it. -/
def label : LogLevel → String
  | .debug => "debug"
  | .info => "info"
  | .warning => "warning"
  | .error => "error"
  | .critical => "critical"

def ofLabel? (label : String) : Option LogLevel := all.find? fun l => l.label == label

def rank : LogLevel → Int
  | .debug => 10
  | .info => 20
  | .warning => 30
  | .error => 40
  | .critical => 50

end LogLevel

/-- A name that is taken for something else than a level. -/
inductive LevelFault where
  | namesFormat
  | namesStyles
  deriving DecidableEq, Repr

structure Settings where
  debug : Bool
  defaultEdition : Edition
  maxSimplifyPasses : Int
  defaultPactLevel : Int
  diceSeed : Option Int
  logLevel : LogLevel
  logAsJson : Bool
  deriving DecidableEq, Repr

/-- The environment does not describe settings. -/
inductive ConfigurationFault where
  | invalidSettings
  deriving DecidableEq, Repr

/-- Settings, or the fault that reading them comes to. -/
abbrev Config := Except ConfigurationFault Settings

namespace Settings

def default : Settings := ⟨false, .of2014, 10, 5, none, .info, false⟩

/-- What stands under a name. Case does not matter, and of several entries the last one counts. -/
def lookup? {α : Type} (entries : List (String × α)) (name : String) : Option α :=
  (entries.reverse.find? fun e => lowered e.1 == lowered name).map (·.2)

/-- A setting as it was found, or its default. -/
def setting {α : Type} (found : Option Data) (default : α) (read : Record.Reader α) :
    Except ConfigurationFault α :=
  match found with
  | none => .ok default
  | some d =>
    match read d with
    | .valid value => .ok value
    | _ => .error .invalidSettings

/-- A group of settings: what the names of its settings start with, when they are nested and when they are
plain, and what one text for the whole group says. -/
structure Group where
  nested : String
  plain : String
  whole : List (String × Data)

namespace Group

/-- The group that an environment describes; one text for all of it is a JSON record. -/
def ofEnvironment (environment : List (String × String)) (name plain : String) :
    Except ConfigurationFault Group :=
  match lookup? environment name with
  | none => .ok ⟨name ++ "__", plain, []⟩
  | some text =>
    match Data.ofJson? text.toList with
    | some (.fields fields) => .ok ⟨name ++ "__", plain, fields⟩
    | some .null => .ok ⟨name ++ "__", plain, []⟩
    | _ => .error .invalidSettings

/-- A record in place of a setting, when a nested name goes on beyond that of the setting. -/
def deeper? (group : Group) (environment : List (String × String)) (name : String) : Option Data :=
  let start := Text.lower (group.nested ++ name ++ "__").toList
  if environment.any fun e => start.isPrefixOf (Text.lower e.1.toList) then some (.fields []) else none

/-- A setting of the group: under its nested name, in the text for the whole group, or under its plain
name. -/
def find? (group : Group) (environment : List (String × String)) (name : String) : Option Data :=
  ((lookup? environment (group.nested ++ name)).map Data.text).or <|
    (group.deeper? environment name).or <|
      (lookup? group.whole name).or <|
        (lookup? environment (group.plain ++ name)).map Data.text

end Group

/-- The settings that an environment describes. All names start with that of the application. -/
def ofEnvironment (application : String) (environment : List (String × String)) : Config := do
  let start := application ++ "_"
  let engine ← Group.ofEnvironment environment (start ++ "ENGINE") (start ++ "ENGINE_")
  let logging ← Group.ofEnvironment environment (start ++ "LOGGING") (start ++ "LOG_")
  let ofEngine := engine.find? environment
  let ofLogging := logging.find? environment
  let debug ← setting ((lookup? environment (start ++ "DEBUG")).map Data.text) false Record.flag
  let edition ← setting (ofEngine "DEFAULT_RULESET") .of2014
    (Record.choice Edition.ofName? .notListed)
  let passes ← setting (ofEngine "MAX_SIMPLIFY_ITERATIONS") 10 (Record.integerWithin 1 (some 100))
  let pactLevel ← setting (ofEngine "DEFAULT_PACT_LEVEL") 5 (Record.integerWithin 1 (some 9))
  let seed ← setting (ofEngine "DICE_SEED") none (Record.optional Record.integer)
  let level ← setting (ofLogging "LEVEL") .info (Record.choice LogLevel.ofName? .notListed)
  let asJson ← setting (ofLogging "JSON_FORMAT") false Record.flag
  .ok ⟨debug, edition, passes, pactLevel, seed, level, asJson⟩

/-- The rank of a level given by name, in any case. Names that are not known rank as `INFO`, but for the
two that name settings of another kind. -/
def rankOf (name : String) : Except LevelFault Int :=
  let upper := capitalized name
  if upper = "WARN" then .ok LogLevel.warning.rank
  else if upper = "FATAL" then .ok LogLevel.critical.rank
  else if upper = "NOTSET" then .ok 0
  else if upper = "BASIC_FORMAT" then .error .namesFormat
  else if upper = "_STYLES" then .error .namesStyles
  else .ok ((LogLevel.ofName? upper).getD .info).rank

/-- The rank from which events are logged: that of a level that is asked for, else that of the
settings, where `debug` logs everything. -/
def logRank (settings : Settings) (level : Option String) : Except LevelFault Int :=
  match level with
  | some name => rankOf name
  | none => .ok (if settings.debug then LogLevel.debug.rank else settings.logLevel.rank)

/-- Whether events are logged as records, if it is not asked for otherwise. -/
def logsJson (settings : Settings) (asJson : Option Bool) : Bool := asJson.getD settings.logAsJson

end Settings

end HeroSheet

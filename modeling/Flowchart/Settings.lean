import Flowchart.Schema.Record

/-!
# Settings

* `Settings`: what the environment may set.
* `Settings.read`: the settings of an environment. The names of variables count in any case, and the
  last of two that differ in case only wins.
-/

namespace Flowchart

inductive LogLevel where
  | debug
  | info
  | warning
  | error
  | critical
  deriving DecidableEq, Repr

namespace LogLevel

def name : LogLevel → String
  | debug => "DEBUG"
  | info => "INFO"
  | warning => "WARNING"
  | error => "ERROR"
  | critical => "CRITICAL"

def number : LogLevel → Int
  | debug => 10
  | info => 20
  | warning => 30
  | error => 40
  | critical => 50

def names : List (String × LogLevel) :=
  [debug, info, warning, error, critical].map fun level => (level.name, level)

end LogLevel

structure Settings where
  logLevel : LogLevel := .info
  historyExchanges : Int := 5
  collaboratorTimeout : Float := 30
  geminiModel : String := "gemini-2.5-flash"
  geminiApiKey : Option String := none
  temperature : Float := 0.7
  maxOutputTokens : Int := 1024
  storageDir : String := "./.blueprintflow_storage"

namespace Settings

/-- What the name of a variable starts with. -/
def mark : String := "blueprintflow_"

/-- The names of the fields. -/
def fieldNames : List String :=
  ["log_level", "history_exchanges", "collaborator_timeout", "gemini_model", "gemini_api_key",
    "temperature", "max_output_tokens", "storage_dir"]

/-- The usual names of the variables. -/
def usualNames : List String :=
  fieldNames.map fun name => String.ofList ((mark ++ name).toList.map Char.toUpper)

/-- The variables of an environment that are settings, under the names of their fields. -/
def fields (environment : List (String × String)) : Json.Fields :=
  Json.Fields.ofPairs (environment.filterMap fun (key, value) =>
    let key := String.ofList (key.toList.map Char.toLower)
    if key.startsWith mark then some ((key.drop mark.length).toString, .string value) else none)

def check (r : Record) : Checked Settings :=
  let given : Settings := {}
  (fun logLevel historyExchanges collaboratorTimeout geminiModel geminiApiKey temperature
      maxOutputTokens storageDir =>
      { logLevel := logLevel.getD given.logLevel
        historyExchanges := historyExchanges.getD given.historyExchanges
        collaboratorTimeout := collaboratorTimeout.getD given.collaboratorTimeout
        geminiModel := geminiModel.getD given.geminiModel
        geminiApiKey
        temperature := temperature.getD given.temperature
        maxOutputTokens := maxOutputTokens.getD given.maxOutputTokens
        storageDir := storageDir.getD given.storageDir }) <$>
    r.optional (.plain "log_level") (Check.literal LogLevel.names) <*>
    r.optional (.plain "history_exchanges") (Check.atLeast 0 Check.integer) <*>
    r.optional (.plain "collaborator_timeout") (Check.numberAbove 0 Check.number) <*>
    r.optional (.plain "gemini_model") Check.text <*>
    r.optional (.plain "gemini_api_key") Check.text <*>
    r.optional (.plain "temperature") (Check.numberAtLeast 0 (Check.numberAtMost 2 Check.number)) <*>
    r.optional (.plain "max_output_tokens") (Check.above 0 Check.integer) <*>
    r.optional (.plain "storage_dir") Check.text

/-- The settings of an environment, given as names and values in order. -/
def read (environment : List (String × String)) : Checked Settings := check ⟨fields environment⟩

def toJson (s : Settings) : Json :=
  .object [("log_level", .string s.logLevel.name), ("history_exchanges", .int s.historyExchanges),
    ("collaborator_timeout", .double s.collaboratorTimeout),
    ("gemini_model", .string s.geminiModel),
    ("gemini_api_key", Json.nullable .string s.geminiApiKey),
    ("temperature", .double s.temperature), ("max_output_tokens", .int s.maxOutputTokens),
    ("storage_dir", .string s.storageDir)]

end Settings

end Flowchart

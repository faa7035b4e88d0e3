import Flowchart.Catalog.Basic

/-!
# The built-in node types

`Catalog.builtin` holds the steps of an automation that makes and publishes short videos.
-/

namespace Flowchart

def executionPin (id name : String) : Pin := { id, name, kind := .execution }

/-- A data pin has its id for a name and says whether it is required. -/
def dataPin (id : String) (kind : Kind) (required : Bool) : Pin :=
  { id, name := id, kind, required := some required }

def executionIn : Pin := executionPin "exec-in" "In"

def executionOut : Pin := executionPin "exec-out" "Then"

namespace NodeType

/-- Has no execution input, so it is an entry of a flowchart. -/
def trigger : NodeType where
  id := "trigger"
  name := "Trigger"
  category := "input"
  description := "Starting point of the automation"
  icon := "⚡"
  color := "#8B5CF6"
  configurable := false
  outputPins := [executionOut]
  schema := [(.plain "schedule", .nullable .text), (.plain "enabled", .flag)]

def aiThinking : NodeType where
  id := "ai-thinking"
  name := "AI Thinking"
  category := "process"
  description := "AI analyzes trends and generates content ideas"
  icon := "🧠"
  color := "#DC2626"
  inputPins :=
    [executionIn,
      { dataPin "topic" .string true with description := .value "Subject to brainstorm about" }]
  outputPins := [executionOut, dataPin "ideas" .array false, dataPin "script" .string false]
  schema :=
    [(.plain "prompt", .nullable .text), (.plain "model", .nullable .text),
      (.plain "temperature", .nullable (.numberWithin 0 2)),
      (⟨"ideaCount", "idea_count"⟩, .integer 1 20)]

def videoCreator : NodeType where
  id := "video-creator"
  name := "Video Creator"
  category := "process"
  description := "Creates video content with visuals and narration"
  icon := "🎬"
  color := "#DC2626"
  inputPins := [executionIn, dataPin "script" .string true]
  outputPins := [executionOut, dataPin "video" .object false]
  schema :=
    [(.plain "style", .nullable .text), (.plain "voice", .nullable .text),
      (⟨"durationSeconds", "duration_seconds"⟩, .integer 1 180),
      (⟨"aspectRatio", "aspect_ratio"⟩, .choice ["9:16", "16:9", "1:1"])]

def youtubeUpload : NodeType where
  id := "youtube-upload"
  name := "YouTube Upload"
  category := "output"
  description := "Uploads video to YouTube channel"
  icon := "📺"
  color := "#16A34A"
  inputPins :=
    [executionIn, dataPin "video" .object true, dataPin "title" .string true,
      { dataPin "description" .string false with defaultValue := some (.string "") }]
  outputPins := [executionOut, dataPin "url" .string false]
  schema :=
    [(.plain "privacy", .choice ["public", "unlisted", "private"]), (.plain "tags", .texts),
      (⟨"madeForKids", "made_for_kids"⟩, .flag)]

/-- Is often wired back into earlier steps. -/
def feedbackLoop : NodeType where
  id := "feedback-loop"
  name := "Feedback Loop"
  category := "process"
  description := "Monitors performance and learns from feedback"
  icon := "📊"
  color := "#16A34A"
  inputPins := [executionIn, dataPin "url" .string true]
  outputPins := [executionOut, dataPin "metrics" .object false]
  schema := [(⟨"intervalHours", "interval_hours"⟩, .numberAbove 0), (.plain "metric", .text)]

def condition : NodeType where
  id := "condition"
  name := "Condition"
  category := "condition"
  description := "Decision point based on conditions"
  icon := "❓"
  color := "#F59E0B"
  inputPins := [executionIn, dataPin "condition" .boolean true]
  outputPins := [executionPin "true" "True", executionPin "false" "False"]
  schema := [(.plain "expression", .nullable .text)]

def delay : NodeType where
  id := "delay"
  name := "Delay"
  category := "action"
  description := "Wait for specified time before next step"
  icon := "⏱️"
  color := "#6366F1"
  inputPins :=
    [executionIn, { dataPin "duration" .number false with defaultValue := some (.int 60) }]
  outputPins := [executionOut]
  schema := [(.plain "unit", .pattern ["seconds", "minutes", "hours"])]

end NodeType

def Catalog.builtin : Catalog :=
  ⟨[.aiThinking, .condition, .delay, .feedbackLoop, .trigger, .videoCreator, .youtubeUpload]⟩

end Flowchart

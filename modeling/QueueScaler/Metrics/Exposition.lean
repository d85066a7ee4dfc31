import QueueScaler.Metrics.Gauge
/-!
# The exposition of gauges

The gauges as lines of text for a metrics collector: two comment lines and a line for each sample.
The names of queues and of the application are label values between double quotes.

## Main definitions

* `Exposition.escapeLabel`: a label value as it stands between the quotes, by three replacements.
* `Exposition.sampleLine`: the line of a sample.
* `Exposition.render`: all lines.
-/

namespace QueueScaler.Exposition

/-- Puts some characters in the place of each occurrence of one. -/
def replaceChar (c : Char) (substitute cs : List Char) : List Char :=
  cs.flatMap fun d ↦ if d = c then substitute else [d]

/-- A label value as it stands between the quotes. The backslashes of the value are doubled before
any other is written. -/
def escapeLabel (cs : List Char) : List Char :=
  replaceChar '\n' ['\\', 'n'] (replaceChar '"' ['\\', '"'] (replaceChar '\\' ['\\', '\\'] cs))

/-- The name of the metric. -/
def metric : String := "cascade_messages_in_queue"

/-- The comment lines that say what the metric is. -/
def header : List Char :=
  s!"# HELP {metric} Approximate number of messages waiting in a queue.\n".toList ++
    s!"# TYPE {metric} gauge\n".toList

/-- The line of a sample: the metric, the queue and the application, and the number of
messages. -/
def sampleLine (application : String) (sample : String × Nat) : List Char :=
  metric.toList ++ "\x7bqueue=\"".toList ++ escapeLabel sample.1.toList ++
    "\",application=\"".toList ++ escapeLabel application.toList ++ "\"\x7d ".toList ++
    (toString sample.2).toList ++ ['\n']

/-- The lines for some samples, in their order. -/
def render (application : String) (samples : List (String × Nat)) : String :=
  String.ofList (header ++ samples.flatMap (sampleLine application))

end QueueScaler.Exposition

namespace QueueScaler

/-- The exposition of all gauges. -/
def Gauges.render (g : Gauges) : String := Exposition.render g.application g.readings

end QueueScaler

/-!
# Log entries

What happened on the way to a result is reported as data: a list of entries, each with a level. The
outer layer decides which levels to show.
-/

namespace UiMarkup

/-- The severity of a log entry, from the least to the greatest. -/
inductive Level where
  | debug
  | info
  | warning
  deriving Repr, DecidableEq

namespace Level

/-- The name of a level. -/
def name : Level → String
  | debug => "DEBUG"
  | info => "INFO"
  | warning => "WARNING"

/-- The position of a level in the order of severity. -/
def rank : Level → Nat
  | debug => 0
  | info => 1
  | warning => 2

end Level

/-- One reported event. -/
structure LogEntry where
  level : Level
  message : String
  deriving Repr, DecidableEq

/-- The entries that are at least as severe as `threshold`. -/
def LogEntry.atLeast (threshold : Level) (entries : List LogEntry) : List LogEntry :=
  entries.filter fun e => threshold.rank ≤ e.level.rank

end UiMarkup

import ChannelLog.Path
import ChannelLog.Text.LowerCase
import ChannelLog.Text.Natural

/-!
# Settings

What the parts of a node take from the environment, and what they use when it says nothing. A
number that does not read as one counts as not said.
-/

namespace ChannelLog

abbrev Environment := String → Option String

/-- Whether a value switches something on. -/
def switchesOn (value : String) : Bool :=
  let value := Text.lowerCase value
  value == "true" || value == "1"

theorem LogSettings.one_le_eight : 1 ≤ 8 := by decide

/-- How many blocks a log may read at a time. -/
structure LogSettings where
  readConcurrency : Nat := 8
  one_le : 1 ≤ readConcurrency := by exact LogSettings.one_le_eight
deriving DecidableEq

namespace LogSettings

/-- Reads `n` blocks at a time, and at least one. -/
def reading (n : Nat) : LogSettings := ⟨max n 1, Nat.le_max_right n 1⟩

def ofEnvironment (env : Environment) : LogSettings :=
  match (env "IL_READ_CONCURRENCY").bind (Text.readNatural? UInt64.size ·.toList) with
  | some n => reading n
  | none => {}

end LogSettings

/-- Where a folder store lies, and whether appends are flushed to disk. -/
structure FolderSettings where
  rootDir : Path := ⟨"./ledger-data"⟩
  syncWrites : Bool := false
deriving BEq

def FolderSettings.ofEnvironment (env : Environment) : FolderSettings where
  rootDir := ⟨(env "IL_STORAGE_DIR").getD "./ledger-data"⟩
  syncWrites := ((env "IL_STORAGE_SYNC").map switchesOn).getD false

/-- What is logged, and in which form. -/
structure TelemetrySettings where
  serviceName : String := "invoice-ledger"
  logLevel : String := "info"
  jsonLogs : Bool := false
  ansi : Bool := true
deriving DecidableEq

namespace TelemetrySettings

/-- Inside a container logs are JSON unless the environment says otherwise. -/
def ofEnvironment (env : Environment) : TelemetrySettings where
  serviceName := (env "IL_SERVICE_NAME").getD "invoice-ledger"
  logLevel := ((env "IL_LOG_LEVEL").or (env "RUST_LOG")).getD "info"
  jsonLogs := ((env "IL_JSON_LOGS").map switchesOn).getD
    ((env "KUBERNETES_SERVICE_HOST").isSome || (env "DOCKER_CONTAINER").isSome)
  ansi := ((env "IL_LOG_ANSI").map switchesOn).getD true

end TelemetrySettings

end ChannelLog

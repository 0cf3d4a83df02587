/-!
# Settings

The tunables of the coordinator and their defaults.
-/

namespace IndexCoordinator

def defaultFileSizeLimit : Nat := 2560000

structure IndexingSettings where
  /-- leave out the built-in index of file names -/
  skipFilenameIndex : Bool := false
  /-- larger files are only offered to indexes of metadata, unless their type is exempt -/
  fileSizeLimit : Nat := defaultFileSizeLimit
  /-- how often blocked waiters look at their token, in milliseconds -/
  pollIntervalMs : Nat := 10
deriving DecidableEq, Repr

namespace IndexingSettings

/-- the poll interval in milliseconds, never 0 -/
def pollInterval (s : IndexingSettings) : Nat := max s.pollIntervalMs 1

theorem pollInterval_pos (s : IndexingSettings) : 0 < s.pollInterval := by
  unfold pollInterval; omega

def debug (s : IndexingSettings) : String :=
  "IndexingSettings \x7b skip_superseded_filename_index: " ++ toString s.skipFilenameIndex ++
    ", file_size_limit: " ++ toString s.fileSizeLimit ++ ", await_poll_interval_ms: " ++
    toString s.pollIntervalMs ++ " \x7d"

/-- the diagnostic text of what surrounds a cycle, of which only the settings are shown -/
def debugContext (s : IndexingSettings) : String :=
  "IndexingContext \x7b settings: " ++ s.debug ++ ", .. \x7d"

end IndexingSettings

end IndexCoordinator

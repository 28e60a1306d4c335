import AgentRunner.EmittedEvents
import AgentRunner.Events
import AgentRunner.Shards
import Mathlib.Data.String.Basic

/-! The events of a log directory as they were written, and the month files they lie
in: a reader sees the newest two files only. -/
namespace AgentRunner.MonthFiles
open PyValue Events EmittedEvents Shards

/-- The events of a log directory as they were written, each with its month. -/
abbrev Journal := List (String × Event)

/-- The month files they are in. -/
def logDir (journal : Journal) : LogDir := ⟨(files journal).map Prod.snd⟩

def write (journal : Journal) (e : Emitted) : Journal := journal ++ [(e.month, e.event)]

theorem tailEvents_logDir (journal : Journal) :
    tailEvents (logDir journal) = (newest 2 journal).flatMap Prod.snd := by
  rw [tailEvents, newestMonthFiles, logDir, newest, List.length_map, ← List.map_drop,
    List.flatMap_def]

end AgentRunner.MonthFiles

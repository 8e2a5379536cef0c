import ParameterServer.Config.Table

/-!
# Checkpoint schedules
-/

namespace ParameterServer

/-- Versions `after`, `after + frequency`, `after + 2 * frequency`, ... are due; no
version is when the frequency is zero. -/
structure CheckpointSchedule where
  after : UInt64 := 0
  frequency : UInt64 := 0
deriving DecidableEq, Repr

namespace CheckpointSchedule

/-- The schedule that a configuration asks for. -/
def ofConfig (config : TableConfig) : CheckpointSchedule :=
  ⟨config.checkpointAfter, config.checkpointFrequency⟩

/-- Whether a version is due. -/
def isDue (schedule : CheckpointSchedule) (version : UInt64) : Bool :=
  0 < schedule.frequency && schedule.after ≤ version
    && (version - schedule.after) % schedule.frequency = 0

end CheckpointSchedule

end ParameterServer

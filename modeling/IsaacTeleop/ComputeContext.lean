/-
Execution events and the per-step compute context.

`ExecutionEvents` is the pair of application signals (a one-step reset pulse
and the lifecycle state) that every node of a retargeting graph sees through
its `ComputeContext`.  The same values cross the boundary between the
application thread and the pipelined worker.
-/
import Mathlib

/-- Execution lifecycle state (`ExecutionState` in `execution_events.py`). -/
inductive ExecutionState
  | unknown
  | stopped
  | paused
  | running
  deriving DecidableEq, Repr, Inhabited

/-- Per-step execution signals available to retargeters. -/
structure ExecutionEvents where
  reset : Bool := false
  executionState : ExecutionState := .unknown
  deriving DecidableEq, Repr, Inhabited

/-- Timestamps for a single compute step, in nanoseconds. -/
structure GraphTime where
  simTimeNs : ℤ
  realTimeNs : ℤ
  deriving DecidableEq, Repr, Inhabited

/-- Context handed to every `_compute_fn` of one step. -/
structure ComputeContext where
  graphTime : GraphTime
  executionEvents : ExecutionEvents
  deriving DecidableEq, Repr, Inhabited

import XmemoryTemporal.Lib.HalfEven
import XmemoryTemporal.Python.Value
import XmemoryTemporal.Python.Time
import XmemoryTemporal.Dto
import XmemoryTemporal.Dto.Projection
import XmemoryTemporal.Errors
import XmemoryTemporal.Errors.RetryHint
import XmemoryTemporal.Config
import XmemoryTemporal.Activities
import XmemoryTemporal.Activities.Timeout
import XmemoryTemporal.Activities.Failure
import XmemoryTemporal.Lib.Loop
import XmemoryTemporal.Lib.CappedGrowth
import XmemoryTemporal.Lib.TwoRuns
import XmemoryTemporal.WorkflowApi
import XmemoryTemporal.Durable.Turn
import XmemoryTemporal.Durable.Outcome
import XmemoryTemporal.Durable.Deadline
import XmemoryTemporal.Durable.NoFalseTimeout
import XmemoryTemporal.Durable.Backoff
import XmemoryTemporal.Durable.Termination
import XmemoryTemporal.Durable.Range
import XmemoryTemporal.ErrorContract
import XmemoryTemporal.Facade
import XmemoryTemporal.Interceptor
import XmemoryTemporal.Interceptor.Deadline
import XmemoryTemporal.Interceptor.Sampling
import XmemoryTemporal.Lib.ContextVar
import XmemoryTemporal.Plugin
import XmemoryTemporal.Execution
import XmemoryTemporal.Execution.AtMostOnce
import XmemoryTemporal.Execution.Metadata
import XmemoryTemporal.Execution.History
import XmemoryTemporal.Execution.Provenance
import XmemoryTemporal.Execution.Function
import XmemoryTemporal.ClientFactory
import XmemoryTemporal.Durable.PollCount
import XmemoryTemporal.Durable.Responsive
import XmemoryTemporal.Durable.Warnings
import XmemoryTemporal.Plugin.Lifecycle
import XmemoryTemporal.Plugin.RunContext
import XmemoryTemporal.Interceptor.Attempts
import XmemoryTemporal.Interceptor.Rate
import XmemoryTemporal.Execution.Compatibility
import XmemoryTemporal.Plugin.Worker
import XmemoryTemporal.Execution.Recorded
import XmemoryTemporal.Execution.Growth
import XmemoryTemporal.Execution.Disclosure
import XmemoryTemporal.Execution.Completion

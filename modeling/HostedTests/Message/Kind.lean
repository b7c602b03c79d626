namespace HostedTests.Message

inductive Kind where
  | discoveryInitialize
  | startDiscovery
  | testCasesFound
  | discoveryComplete
  | executionInitialize
  | startRunWithSources
  | startRunWithTests
  | runStatsChange
  | executionComplete
  | remark
  | cancelRun
  | abortRun
  | sessionEnd
  | launchUnderDebugger
  | launchedUnderDebugger
  deriving DecidableEq, Repr

namespace Kind

def wire : Kind → String
  | discoveryInitialize => "TestDiscovery.Initialize"
  | startDiscovery => "TestDiscovery.Start"
  | testCasesFound => "TestDiscovery.TestFound"
  | discoveryComplete => "TestDiscovery.Completed"
  | executionInitialize => "TestExecution.Initialize"
  | startRunWithSources => "TestExecution.StartWithSources"
  | startRunWithTests => "TestExecution.StartWithTests"
  | runStatsChange => "TestExecution.StatsChange"
  | executionComplete => "TestExecution.Completed"
  | remark => "TestSession.Message"
  | cancelRun => "TestExecution.Cancel"
  | abortRun => "TestExecution.Abort"
  | sessionEnd => "TestSession.Terminate"
  | launchUnderDebugger => "TestExecution.LaunchAdapterProcessWithDebuggerAttached"
  | launchedUnderDebugger => "TestExecution.LaunchAdapterProcessWithDebuggerAttachedCallback"

def all : List Kind :=
  [discoveryInitialize, startDiscovery, testCasesFound, discoveryComplete, executionInitialize,
    startRunWithSources, startRunWithTests, runStatsChange, executionComplete, remark, cancelRun,
    abortRun, sessionEnd, launchUnderDebugger, launchedUnderDebugger]

theorem mem_all (k : Kind) : k ∈ all := by cases k <;> decide

theorem wire_injective {a b : Kind} (h : a.wire = b.wire) : a = b := by
  cases a <;> cases b <;> simp_all [wire]

end Kind

end HostedTests.Message

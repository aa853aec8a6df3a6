import ReplicaClient.Workload

/-!
# The command line

Runs a workload with the settings given as arguments.
-/

def main (args : List String) : IO UInt32 := do
  let (outcome, _) := (ReplicaClient.Workload.ofArgs args).run .isolated
  for line in outcome.lines do
    IO.println line
  for text in outcome.complaint? do
    IO.eprintln text
  return outcome.exitCode

import MetricLedger.Cli.Program
import Std.Time.DateTime.Timestamp

/-!
# The program as it runs

Reads the clock, the environment and random bits, and prints what a run says.
-/

namespace MetricLedger.Main

def now : IO Instant := do
  let t ← Std.Time.Timestamp.now
  return (Instant.ofMicros? (t.toNanosecondsSinceUnixEpoch.val / 1000)).getD default

def freshStamp : IO Stamp := do
  let bytes ← IO.getRandomBytes 16
  let bits := bytes.data.foldl (fun n b => n * 256 + b.toNat) 0
  return ⟨.ofRandom (BitVec.ofNat 128 bits), ← now⟩

/-- The variables that a run may look at. -/
def environment : IO (String → Option String) := do
  let names := Cli.filterVariable :: Cli.Command.main.named.filterMap (·.source)
  let pairs ← names.filterMapM fun name => do
    return (← IO.getEnv name).map fun value => (name, value)
  return fun name => pairs.lookup name

def print (events : List Log.Event) : IO Unit := do
  events.forM fun e => do IO.print (e.lineAt (← now))
  (← IO.getStdout).flush

/-- Records sample after sample. -/
partial def keepServing (run : Cli.Run) (interval : UInt32) : IO Unit := do
  print (run.sampleEvents 1)
  IO.sleep interval
  keepServing run interval

end MetricLedger.Main

open MetricLedger in
def main (args : List String) : IO UInt32 := do
  let run := Cli.run (.isolated false) (← Main.environment) (← Main.freshStamp) args
  Main.print run.events
  match run.ending with
  | .exited code output complaint =>
    IO.print output
    IO.eprint complaint
    return code.toUInt32
  | .serving l =>
    Main.keepServing run ((l.sampleInterval.getD 1000).toNat.toUInt32)
    return 0

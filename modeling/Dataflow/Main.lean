import Dataflow.Demo.Catalog

/-! The command line: run the named demonstration and print its lines. -/

/-- Run a demonstration by name, with the remaining arguments passed on to it. -/
def main (arguments : List String) : IO UInt32 := do
  match arguments with
  | name :: rest =>
      match Dataflow.Demo.run? name rest with
      | some report =>
          report.lines.forM IO.println
          return report.status.toUInt32
      | none =>
          IO.eprintln s!"unknown demonstration: {name}"
          return 2
  | [] =>
      IO.eprintln "usage: dataflow (liveness [--trace] | scopes)"
      return 2

import GraduatedFit.Localization.Program

/-!
The command line of the localization program.
-/

open GraduatedFit GraduatedFit.Localization

def main (words : List String) : IO UInt32 := do
  let report := program words ((← IO.getEnv "RUST_LOG").getD "")
  for line in report.lines do
    IO.println s!"[{line.level.label} {line.target}] {line.text}"
  IO.print report.help
  IO.eprint report.complaint
  return report.exit.toUInt32

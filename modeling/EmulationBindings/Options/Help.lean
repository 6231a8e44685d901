import EmulationBindings.Text.Basic

/-!
# Usage and help

The texts that the command shows about itself, laid out for eighty columns.
-/

namespace EmulationBindings.Options

def program : Text := "emulation-codegen"

def usage : Text :=
  "usage: emulation-codegen [-h] [--manifest-dir MANIFEST_DIR] [--cargo CARGO]\n" ++
  "                         [--track-source] [--check] [--report REPORT] [-v]\n"

def help : Text :=
  usage ++
  "\nemulation_codegen — generate TypeScript/Rust bindings from wreq-util's\n" ++
  "emulation table\n" ++
  "\noptions:\n" ++
  "  -h, --help            show this help message and exit\n" ++
  "  --manifest-dir MANIFEST_DIR\n" ++
  "                        Crate directory holding Cargo.toml (default:\n" ++
  "                        $CARGO_MANIFEST_DIR)\n" ++
  "  --cargo CARGO         cargo binary (default: $CARGO or 'cargo')\n" ++
  "  --track-source        Also re-run when the scanned wreq-util source changes\n" ++
  "  --check               Fail if generated files are out of date instead of\n" ++
  "                        writing them\n" ++
  "  --report REPORT       Write a JSON report of the run to this path\n" ++
  "  -v, --verbose         Enable verbose logging\n"

end EmulationBindings.Options

import Allowlist.Command.Options

/-!
# Help

The usage and the full help, laid out for 80 columns.
-/
namespace Allowlist.Command

def usage : Text :=
  "usage: policygen [-h] [--variant \x7bpermissive,strict\x7d | --strict] [--check]\n" ++
  "                 [--config CONFIG]\n" ++
  "                 [--log-level \x7bDEBUG,INFO,WARNING,ERROR,CRITICAL\x7d]\n" ++
  "                 [--log-format \x7bauto,human,json\x7d]\n" ++
  "                 [source] [destination]\n"

def help : Text :=
  usage ++
  "\n" ++
  "Compile the stdlib surface document into the allow-list policy document\n" ++
  "\n" ++
  "positional arguments:\n" ++
  "  source                Surface document path\n" ++
  "  destination           Policy document path\n" ++
  "\n" ++
  "options:\n" ++
  "  -h, --help            show this help message and exit\n" ++
  "  --variant \x7bpermissive,strict\x7d\n" ++
  "                        Pipeline variant (default: permissive)\n" ++
  "  --strict              Shorthand for --variant strict\n" ++
  "  --check               Check that DESTINATION is up to date instead of\n" ++
  "                        writing it\n" ++
  "  --config CONFIG       YAML settings file\n" ++
  "  --log-level \x7bDEBUG,INFO,WARNING,ERROR,CRITICAL\x7d\n" ++
  "                        Log level (default: WARNING)\n" ++
  "  --log-format \x7bauto,human,json\x7d\n" ++
  "                        Log format (default: auto)\n"

def usageText (e : UsageError) : Text := usage ++ "policygen: error: " ++ e.message ++ "\n"

end Allowlist.Command

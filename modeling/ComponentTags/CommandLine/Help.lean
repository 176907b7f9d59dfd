import ComponentTags.CommandLine.Grammar

/-!
# Help texts

The help for the program and for each command, laid out for 80 columns, and the version.
-/

namespace ComponentTags.CommandLine

/-- Lines as one text. -/
def page (lines : List String) : String :=
  String.join (lines.map (· ++ "\n"))

def versionText : String := page ["bladetags 1.0.0"]

def mainHelp : List String :=
  ["usage: bladetags [-h] [--version] [-v] <command> ...",
   "",
   "Compile custom component tags into Blade directives",
   "",
   "options:",
   "  -h, --help     show this help message and exit",
   "  --version      show program's version number and exit",
   "  -v, --verbose  Enable debug logging on stderr",
   "",
   "commands:",
   "  <command>",
   "    compile      Compile a template's component tags into Blade directives",
   "    components   List registered components in compile order"]

def compileHelp : List String :=
  ["usage: bladetags compile [-h] [--output OUTPUT] [--report] [--config CONFIG]",
   "                         [--prefix PREFIX] [--json]",
   "                         [path]",
   "",
   "positional arguments:",
   "  path                  Template file to compile ('-' or omitted reads stdin)",
   "",
   "options:",
   "  -h, --help            show this help message and exit",
   "  --output OUTPUT, -o OUTPUT",
   "                        Write compiled template to this file instead of stdout",
   "  --report              Print a rewrite report to stderr",
   "  --config CONFIG       Path to a bladetags YAML config (default:",
   "                        ./bladetags.yaml if present)",
   "  --prefix PREFIX       Tag prefix, e.g. 'x-' to match <x-card> (overrides",
   "                        config)",
   "  --json                Output as JSON"]

def componentsHelp : List String :=
  ["usage: bladetags components [-h] [--config CONFIG] [--prefix PREFIX] [--json]",
   "",
   "options:",
   "  -h, --help       show this help message and exit",
   "  --config CONFIG  Path to a bladetags YAML config (default: ./bladetags.yaml",
   "                   if present)",
   "  --prefix PREFIX  Tag prefix, e.g. 'x-' to match <x-card> (overrides config)",
   "  --json           Output as JSON"]

/-- The help for a command, or for the program. -/
def helpText : Option Command → String
  | none => page mainHelp
  | some .compile => page compileHelp
  | some .components => page componentsHelp

end ComponentTags.CommandLine

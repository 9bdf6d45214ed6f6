/-!
# Help

What the program prints about itself.
-/

namespace SourcePreview.Help

/-- The name and version of the program. -/
def version : String := "glance 0.1.0\n"

/-- The options with their descriptions, which all start in the same column. -/
def optionLines : List String :=
  ["  -t, --theme <ID>        Theme id (see --list-themes)",
    "  -l, --language <LANG>   Force a language instead of detecting it (see --list-languages)",
    "      --deadline-ms <MS>  Highlighting budget in milliseconds",
    "      --max-lines <N>     Show files with more lines than this unstyled",
    "      --no-cache          Skip the on-disk cache for this run",
    "      --json              Print results as JSON instead of coloured text",
    "      --stats             Print cache and pipeline statistics to stderr",
    "      --clear-cache       Delete all cached highlights and exit",
    "      --list-languages    List supported languages and exit",
    "      --list-themes       List available themes and exit",
    "  -h, --help              Print help",
    "  -V, --version           Print version"]

/-- The lines of the help. -/
def lines : List String :=
  ["Fast cached syntax-highlighted file preview",
    "",
    "Usage: glance [OPTIONS] [PATHS]...",
    "",
    "Arguments:",
    "  [PATHS]...  Files to preview",
    "",
    "Options:"] ++ optionLines

/-- The help. -/
def text : String :=
  String.join (lines.map fun line => line ++ "\n")

end SourcePreview.Help

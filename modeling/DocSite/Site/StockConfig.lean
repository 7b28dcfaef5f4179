import DocSite.Site.Config
/-! A configuration file with every key at its default, and with words on each. -/
namespace DocSite.Site.Config

def stockLines : List String := [
  "# docweave configuration",
  "# ======================",
  "# All settings are optional. Remove or comment out any you don't need.",
  "# Values shown below are the defaults. Unknown keys will cause an error.",
  "",
  "# Site title, available to templates as [[+site.name]].",
  "site_name = \"Unknown\"",
  "",
  "# Copyright notice, available as [[+site.copyright]].",
  "copyright = \"\"",
  "",
  "# Theme name, available as [[+site.theme]].",
  "theme = \"default\"",
  "",
  "# Layout chunk used for pages whose front matter names none.",
  "# May itself contain tags, e.g. \"[[+site.theme]]/page\".",
  "layout = \"default\"",
  "",
  "# Source paths to skip. A trailing \"/\" skips a directory.",
  "exclude = []",
  "",
  "# Label of the current documentation version, shown in the version picker.",
  "version = \"\"",
  "",
  "# Subdirectories holding older versions. Each is built into the matching",
  "# subdirectory of the output. Requires \x60version\x60 to be set.",
  "versions = []",
  "",
  "# ---------------------------------------------------------------------------",
  "# Template lookup",
  "# ---------------------------------------------------------------------------",
  "[templates]",
  "# Directories searched for chunks (<name>.html), relative to the source root.",
  "# Later entries take priority over earlier ones.",
  "chunk_dirs = [\"layouts\"]",
  "",
  "# Directories searched for snippets (<name>.sh executables).",
  "snippet_dirs = [\"layouts\"]",
  "",
  "# ---------------------------------------------------------------------------",
  "# Processing",
  "# ---------------------------------------------------------------------------",
  "[processing]",
  "# Maximum parallel page renderers.",
  "# Omit or comment out to auto-detect (= number of CPU cores).",
  "# max_processes = 4"]

/-- The text that is printed for those who begin a site. -/
def stockText : String := String.join (stockLines.map (· ++ "\n"))

end DocSite.Site.Config

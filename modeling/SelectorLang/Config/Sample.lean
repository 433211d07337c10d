set_option autoImplicit false

namespace SelectorLang.Config

def sampleLines : List String :=
  ["# entity-query Configuration",
   "#",
   "# Environment variables override these settings:",
   "# - ENTITY_QUERY_DEFAULT_FIELDS (comma separated)",
   "# - ENTITY_QUERY_MAX_DEPTH",
   "# - ENTITY_QUERY_LOG_LEVEL",
   "# - ENTITY_QUERY_LOG_FORMAT",
   "",
   "[parser]",
   "# Fields searched when a query contains plain text",
   "default_fields = [\"name\"]",
   "",
   "# Groups and qrefs nested deeper than this are dropped",
   "max_depth = 32",
   "",
   "# Entity classes that qref clauses (field<\x7bClass ...\x7d>) may target",
   "classes = []",
   "",
   "[logging]",
   "# Log level: trace, debug, info, warn, error",
   "level = \"warn\"",
   "",
   "# Log format: pretty (for development) or json (for production)",
   "format = \"pretty\""]

def sample : String := String.join (sampleLines.map (fun line => line ++ "\n"))

end SelectorLang.Config

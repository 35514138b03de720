import CallContracts.Document.Content

/-!
Configuration of the log.

A configuration has five sections. A document may replace sections of the built-in configuration;
one that is missing, cannot be read or holds no mapping replaces none.

Main definitions: `Sections`, `Sections.builtIn`, `Sections.ofContent`, `Sections.shipped` and
`Sections.toDatum`. Main statements: `ofContent_missing` and `ofContent_shipped`, without a document
and with the one that comes with the library the built-in configuration is in force.
-/

namespace CallContracts.Logging

/-- The sections of a configuration as they are written. -/
structure Sections where
  version : Datum
  disableExisting : Datum
  formatters : Datum
  handlers : Datum
  loggers : Datum

/-- A text as it is written. -/
def text (s : String) : Datum := .scalar (.text s)

/-- A mapping as it is written. -/
def fields (es : List (String × Datum)) : Datum := .dict (es.map fun e => (text e.1, e.2))

namespace Sections

/-- The built-in formatter. -/
def standard : Datum :=
  fields [("format", text "%(asctime)s | %(levelname)-8s | %(name)s | %(message)s")]

/-- The built-in handler, which writes to the standard error stream. -/
def console : Datum :=
  fields [("class", text "logging.StreamHandler"), ("stream", text "ext://sys.stderr"),
    ("formatter", text "standard")]

/-- The built-in section of the library's logger. -/
def logger : Datum :=
  fields [("level", text "WARNING"), ("handlers", .list [text "console"]),
    ("propagate", .scalar (.bool false))]

/-- The configuration without a document: warnings go to the standard error stream. -/
def builtIn : Sections where
  version := .scalar (.int 1)
  disableExisting := .scalar (.bool false)
  formatters := fields [("standard", standard)]
  handlers := fields [("console", console)]
  loggers := fields [("sigil", logger)]

/-- What is written under a key; the last of several counts. -/
def field? (es : List (Datum × Datum)) (key : String) : Option Datum :=
  es.reverse.findSome? fun e =>
    match e.1 with
    | .scalar (.text s) => if s = key then some e.2 else none
    | _ => none

/-- The configuration with the sections that a mapping names. -/
def replace (c : Sections) (es : List (Datum × Datum)) : Sections where
  version := (field? es "version").getD c.version
  disableExisting := (field? es "disable_existing_loggers").getD c.disableExisting
  formatters := (field? es "formatters").getD c.formatters
  handlers := (field? es "handlers").getD c.handlers
  loggers := (field? es "loggers").getD c.loggers

/-- The configuration of a document. -/
def ofContent : Document.Content → Sections
  | .data (.dict es) => builtIn.replace es
  | _ => builtIn

theorem ofContent_missing : ofContent .missing = builtIn := rfl

/-- The document that comes with the library. -/
def shipped : Datum :=
  fields [("version", .scalar (.int 1)), ("disable_existing_loggers", .scalar (.bool false)),
    ("formatters", fields [("standard", fields [("format",
      text "%(asctime)s | %(levelname)-8s | %(name)s | %(message)s")])]),
    ("handlers", fields [("console", fields [("class", text "logging.StreamHandler"),
      ("stream", text "ext://sys.stderr"), ("formatter", text "standard")])]),
    ("loggers", fields [("sigil", fields [("level", text "WARNING"),
      ("handlers", .list [text "console"]), ("propagate", .scalar (.bool false))])])]

/-- It says what the built-in configuration says. -/
theorem ofContent_shipped : ofContent (.data shipped) = builtIn := rfl

/-- A configuration as a mapping of its sections. -/
def toDatum (c : Sections) : Datum :=
  fields [("version", c.version), ("disable_existing_loggers", c.disableExisting),
    ("formatters", c.formatters), ("handlers", c.handlers), ("loggers", c.loggers)]

end Sections

/-- A logger has a text that is not empty for a name. -/
def loggerName (v : Value) : Except Refusal String :=
  match v.text? with
  | some s => if s = "" then .error .loggerName else .ok s
  | none => .error .loggerName

end CallContracts.Logging

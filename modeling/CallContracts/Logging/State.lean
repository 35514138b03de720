import CallContracts.Logging.Makers

/-!
What configurations do to the library's logger.

Applying a configuration goes through its sections in order: version, formatters, handlers,
loggers. A section that makes no sense stops it; what the sections before have done stays. Behind
the version, the handlers that were given to loggers before are shut, and one that cannot be shut
stops everything else. The logger is given its level, then loses its handlers, then is given those
of the configuration, then its switch for handing records on.

A log that is configured is left as it is, unless a call is forced.

Main definitions: `State`, `Sections.apply`, `Log.configure` and `Log.run`.
-/

namespace CallContracts.Logging

/-- What is in force for the library's logger, and around it. -/
structure State where
  level : Int
  /-- Whether records are handed on to the loggers above. -/
  propagate : Scalar
  /-- The kinds of the handlers. -/
  handlers : List String
  /-- The numbers of the named levels. -/
  names : LevelNames
  /-- Whether a logger has a handler that cannot be shut. -/
  jammed : Bool
  deriving DecidableEq

namespace State

/-- What the built-in configuration puts in force. -/
def initial : State := ⟨30, .bool false, ["StreamHandler"], standardNames, false⟩

end State

/-- The name of the library's logger. -/
def loggerRoot : String := "sigil"

/-! ### Loggers -/

/-- Gives handlers to a logger until one is not there; each is given once. -/
def addHandlers (table : List (Scalar × Handler)) (given : List Scalar) (s : State) :
    List Datum → State × Except Mishap Unit
  | [] => (s, .ok ())
  | .scalar name :: ds =>
    if given.any (·.eq name) then addHandlers table given s ds
    else
      match table.find? fun e => e.1.eq name with
      | some (_, h) =>
        addHandlers table (name :: given)
          { s with handlers := s.handlers ++ [h.kind], jammed := s.jammed || !h.shuts } ds
      | none => (s, .error .value)
  | _ :: _ => (s, .error .value)

/-- The names that stand for handlers: those of a sequence, the keys of a mapping or the characters
of a text. -/
def handlerNames (d : Datum) : Except Mishap (List Datum) :=
  match given? d "handlers" with
  | none => .ok []
  | some (.list ds) | some (.tuple ds) | some (.set ds) => .ok ds
  | some (.dict es) => .ok (es.map (·.1))
  | some (.scalar (.text s)) => .ok (s.toList.map fun c => .scalar (.text (String.singleton c)))
  | some _ => .error .value

/-- Hands records on, or not, if the logger's section says so. -/
def setPropagate (d : Datum) (s : State) : State :=
  match set? d "propagate" with
  | none => s
  | some (.scalar p) => { s with propagate := p }
  | some p => { s with propagate := .bool (truth p) }

/-- Applies the section of a logger. -/
def applyLogger (table : List (Scalar × Handler)) (d : Datum) (s : State) :
    State × Except Mishap Unit :=
  match d with
  | .dict _ =>
    let levelled : Option State :=
      match set? d "level" with
      | none => some s
      | some l => (level? s.names l).map fun n => { s with level := n }
    match levelled with
    | none => (s, .error .value)
    | some s =>
      let cleared := { s with handlers := [] }
      match handlerNames d with
      | .error m => (cleared, .error m)
      | .ok ds =>
        match addHandlers table [] cleared ds with
        | (s, .ok ()) =>
          -- there are no filters that a logger could be given
          if (given? d "filters").isSome then (s, .error .value) else (setPropagate d s, .ok ())
        | (s, .error m) => (s, .error m)
  | _ => (s, .error .value)

/-- Applies the section of a logger by name. Only the library's own logger is kept track of, and
whether another one has got a handler that cannot be shut. -/
def applyNamed (table : List (Scalar × Handler)) (name : Scalar) (d : Datum) (s : State) :
    State × Except Mishap Unit :=
  if (nameText? name).isNone && name.truth then (s, .error .value)
  else if name.eq (.text loggerRoot) then applyLogger table d s
  else
    match applyLogger table d ⟨0, .bool true, [], s.names, s.jammed⟩ with
    | (other, outcome) => ({ s with jammed := other.jammed }, outcome)

/-- Applies the sections of loggers in their order. -/
def applyLoggers (table : List (Scalar × Handler)) (s : State) :
    List (Scalar × Datum) → State × Except Mishap Unit
  | [] => (s, .ok ())
  | (name, d) :: rest =>
    match applyNamed table name d s with
    | (s, .ok ()) => applyLoggers table s rest
    | (s, .error m) => (s, .error m)

/-! ### Configurations -/

/-- Whether a configuration is of the first version, the only one that there is. -/
def Sections.isFirst (c : Sections) : Bool :=
  match c.version with
  | .scalar v => v.number?.any (·.eq (.int 1))
  | _ => false

/-- Goes on behind the entries of a section, unless it fails there. -/
def Listing.close (l : Listing) (s : State) (next : State → State × Except Mishap Unit) :
    State × Except Mishap Unit :=
  match l.failure with
  | some e => (s, .error e)
  | none => next s

/-- Applies a configuration in which the references are resolved. -/
def Sections.applyResolved (m : Makers) (c : Sections) (s : State) : State × Except Mishap Unit :=
  if !c.isFirst then (s, .error .value)
  else if s.jammed then (s, .error .type)
  else
    let formatters := listing c.formatters
    match m.formatters s.names (formatters.entries.map (·.2)) with
    | (names, false) => ({ s with names }, .error .value)
    | (names, true) => formatters.close { s with names } fun s =>
      let handlers := orderedListing c.handlers
      match m.handlers (formatters.entries.map (·.1)) s.names handlers.entries with
      | (names, none) => ({ s with names }, .error .value)
      | (names, some table) => handlers.close { s with names } fun s =>
        let loggers := listing c.loggers
        match applyLoggers table s loggers.entries with
        | (s, .error e) => (s, .error e)
        | (s, .ok ()) => loggers.close s fun s => (s, .ok ())

/-- Applies a configuration. -/
def Sections.apply (m : Makers) (c : Sections) (s : State) : State × Except Mishap Unit :=
  (m.resolve c).applyResolved m s

/-! ### Calls -/

/-- A call that configures the log. -/
structure Call where
  force : Bool
  /-- What is found under the name of the document, or how looking there fails. -/
  file : Except Mishap Document.Content

/-- The configuration that a call applies. A folder cannot be read. -/
def Call.sections (c : Call) : Except Mishap Sections :=
  match c.file with
  | .error e => .error e
  | .ok .folder => .error .folder
  | .ok content => .ok (.ofContent content)

/-- The log: whether it is configured, and what is in force. -/
structure Log where
  configured : Bool
  state : State
  deriving DecidableEq

namespace Log

/-- Configures the log. Once it is configured, only a forced call looks at its document. -/
def configure (m : Makers) (c : Call) (l : Log) : Log × Except Mishap Unit :=
  if l.configured && !c.force then (l, .ok ())
  else
    match c.sections with
    | .error e => (l, .error e)
    | .ok sections =>
      match sections.apply m l.state with
      | (s, .ok ()) => (⟨true, s⟩, .ok ())
      | (s, .error e) => ({ l with state := s }, .error e)

/-- What several calls leave, whether they go through or fail. -/
def run (m : Makers) (l : Log) (calls : List Call) : Log :=
  calls.foldl (fun l c => (l.configure m c).1) l

end Log

/-- What each of several calls leaves in force for a log that is configured. -/
def configureAll (s : State) (calls : List (Bool × Document.Content)) :
    List (State × Except Mishap Unit) :=
  go ⟨true, s⟩ (calls.map fun c => ⟨c.1, .ok c.2⟩)
where
  /-- The calls in turn. -/
  go (l : Log) : List Call → List (State × Except Mishap Unit)
    | [] => []
    | c :: calls =>
      match l.configure .standard c with
      | (l, outcome) => (l.state, outcome) :: go l calls

end CallContracts.Logging

import CallContracts.Logging.Sections

/-!
The formatters and handlers that a configuration names.

A configuration describes formatters and handlers, or names a function that makes one. Making one
may rename levels, also if it fails. A text in it may also refer to an object of the language
(`ext://`) or to another part of the configuration (`cfg://`). The log leaves all this to *makers*,
of which it has standard ones: formats in percent style, handlers that write to a stream or nowhere,
and a function that makes nothing but names a level. The standard makers resolve no references but
those to streams.

Main definitions: `Listing` and `listing`, the entries of a section, `level?`, the level that is
written, `Makers` and `Makers.standard`.
-/

namespace CallContracts.Logging

/-! ### Sections -/

/-- Puts an entry where one with its key stands, or else behind all others. -/
def put (es : List (Scalar × Datum)) (k : Scalar) (d : Datum) : List (Scalar × Datum) :=
  if es.any (·.1.eq k) then es.map fun e => if e.1.eq k then (e.1, d) else e else es ++ [(k, d)]

/-- The entries of a mapping, each key once with its last value. -/
def distinct (es : List (Datum × Datum)) : List (Scalar × Datum) :=
  es.foldl (fun done e =>
    match e.1 with
    | .scalar k => put done k e.2
    | _ => done) []

/-- The entries of a section in the order in which they are looked up, and how the lookup fails
behind the last one, if it does. -/
structure Listing where
  entries : List (Scalar × Datum)
  failure : Option Mishap

/-- The place that an item of a sequence names, counted from the end if it is negative. -/
def place? (length : Nat) (item : Datum) : Option Nat := do
  let .scalar s := item | none
  let n ← match s with
    | .int n => some n
    | .bool b => some (if b then 1 else 0)
    | _ => none
  let i := if n < 0 then n + length else n
  if 0 ≤ i && i < length then some i.toNat else none

/-- The items that the items of a sequence name by their places. What was made of an item stands in
its place from then on; it names nothing, and nothing is made of it. -/
def named (ds : List Datum) (made : List Nat) : List (Datum × Nat) → List (Scalar × Datum)
  | [] => []
  | (item, i) :: rest =>
    match place? ds.length item, item with
    | some j, .scalar name =>
      if i ∈ made || j ∈ made then []
      else (name, ds.getD j item) :: named ds (j :: made) rest
    | _, _ => []

/-- The entries of a section. A sequence is read as if its items were the keys, which cannot go
through: an item that is described by a mapping is no key. -/
def listing : Datum → Listing
  | .dict es => ⟨distinct es, none⟩
  | .list ds => ⟨named ds [] ds.zipIdx, if ds.isEmpty then none else some .value⟩
  | .tuple ds | .set ds => ⟨[], if ds.isEmpty then none else some .value⟩
  | .scalar (.text s) => ⟨[], if s = "" then none else some .value⟩
  | _ => ⟨[], some .type⟩

/-- The text of a name. -/
def nameText? : Scalar → Option String
  | .text s => some s
  | _ => none

/-- Whether names can be put in order: they are all texts or all numbers. -/
def comparable (names : List Datum) : Bool :=
  names.length ≤ 1 || names.all isText || names.all isNumber
where
  /-- Whether a name is a text. -/
  isText : Datum → Bool
    | .scalar s => (nameText? s).isSome
    | _ => false
  /-- Whether a name is a number. -/
  isNumber : Datum → Bool
    | .scalar s => s.number?.isSome
    | _ => false

/-- Puts an entry in front of the first one whose name does not come before its own. -/
def insertByName (e : Scalar × Datum) : List (Scalar × Datum) → List (Scalar × Datum)
  | [] => [e]
  | q :: qs =>
    if (nameText? e.1).getD "" ≤ (nameText? q.1).getD "" then e :: q :: qs
    else q :: insertByName e qs

/-- The names in a section. -/
def namesIn : Datum → List Datum
  | .list ds => ds
  | .dict es => es.map (·.1)
  | _ => []

/-- The entries of a section whose names can be put in order, by their texts. -/
def orderedListing (d : Datum) : Listing :=
  if comparable (namesIn d) then
    { listing d with entries := (listing d).entries.foldr insertByName [] }
  else ⟨[], some .type⟩

/-- What is written under a key of a mapping. -/
def under? (d : Datum) (key : String) : Option Datum :=
  match d with
  | .dict es => Sections.field? es key
  | _ => none

/-- Whether a datum counts as true. -/
def truth : Datum → Bool
  | .scalar s => s.truth
  | .list ds | .tuple ds | .set ds => !ds.isEmpty
  | .dict es => !es.isEmpty
  | _ => true

/-- What is written under a key of a mapping, unless it counts as false. -/
def given? (d : Datum) (key : String) : Option Datum := (under? d key).filter truth

/-- What is written under a key of a mapping, unless it is null. -/
def set? (d : Datum) (key : String) : Option Datum :=
  (under? d key).filter fun
    | .scalar .null => false
    | _ => true

/-! ### Levels -/

/-- The numbers of the named levels; the first of several counts. -/
abbrev LevelNames := List (String × Int)

/-- The levels that have names from the start. -/
def standardNames : LevelNames :=
  [("CRITICAL", 50), ("FATAL", 50), ("ERROR", 40), ("WARN", 30), ("WARNING", 30), ("INFO", 20),
    ("DEBUG", 10), ("NOTSET", 0)]

/-- The level that is written, by number or by name. -/
def level? (names : LevelNames) : Datum → Option Int
  | .scalar (.text s) => names.lookup s
  | .scalar (.int n) => some n
  | .scalar (.bool b) => some (if b then 1 else 0)
  | _ => none

/-! ### Formatters -/

/-- Whether a format names a field of a record. -/
def hasField : List Char → Bool
  | [] => false
  | c :: cs =>
    (c == '%' && cs.head? == some '(' &&
      (let name := (cs.drop 1).takeWhile Text.isWord
       let rest := cs.drop (1 + name.length)
       !name.isEmpty && rest.head? == some ')' && isConversion (rest.drop 1))) || hasField cs
where
  /-- Flags, width and precision, and a letter for the conversion. -/
  isConversion (cs : List Char) : Bool :=
    let cs := cs.dropWhile fun c => c ∈ ['#', '0', '+', ' ', '-']
    let size (cs : List Char) : List Char :=
      if cs.head? == some '*' then cs.drop 1 else cs.dropWhile Text.isDigit
    let cs := size cs
    let cs := if cs.head? == some '.' then size (cs.drop 1) else cs
    cs.head?.any fun c => c.toLower ∈ "diouxefgcrsa%".toList

/-- Whether a formatter in percent style makes sense: a format, if there is one, must name a field,
unless it says that this does not matter. -/
def isFormatter (d : Datum) : Bool :=
  let percent := match under? d "style" with
    | none => true
    | some (.scalar s) => s.eq (.text "%")
    | some _ => false
  let plain := match given? d "class" with
    | none => true
    | some (.scalar s) => s.eq (.text "logging.Formatter")
    | some _ => false
  let checked := (under? d "validate").all truth
  let format := match given? d "format" with
    | none => true
    | some (.scalar (.text s)) => !checked || hasField s.toList
    | some _ => !checked
  percent && plain && format

/-- The level that a function of the log names: its name and number. -/
def renaming? (d : Datum) : Option (String × Int) := do
  let .dict es := d | none
  let keys := (distinct es).map (·.1)
  if keys.all (· ∈ [.text "()", .text "level", .text "levelName"]) then
    match under? d "()", under? d "level", under? d "levelName" with
    | some (.scalar (.text "logging.addLevelName")), some (.scalar (.int n)),
      some (.scalar (.text s)) => some (s, n)
    | _, _, _ => none
  else none

/-! ### Handlers -/

/-- A handler that was made. -/
structure Handler where
  kind : String
  /-- Whether it can be flushed and closed. -/
  shuts : Bool
  deriving DecidableEq

/-- The kinds of handlers. -/
def handlerKinds : List (String × String) :=
  [("logging.StreamHandler", "StreamHandler"), ("logging.NullHandler", "NullHandler")]

/-- The settings that a kind of handler takes besides the common ones. -/
def ownSettings (kind : String) : List String :=
  if kind = "StreamHandler" then ["stream"] else []

/-- Whether the stream of a handler can be flushed, if there is such a stream. A text may stand for
an object: the standard streams can be flushed, and so can what has nothing to flush, but a kind of
streams cannot. -/
def flushes? : Option Datum → Option Bool
  | some (.scalar (.text s)) =>
    if s ∈ ["ext://sys.stderr", "ext://sys.stdout"] then some true
    else if s = "ext://io.StringIO" then some false
    else if s.startsWith "ext://" || s.startsWith "cfg://" then none
    else some true
  | _ => some true

/-- The handler that makes sense with the formatters that there are. -/
def handler? (names : LevelNames) (formatters : List Scalar) (d : Datum) : Option Handler := do
  let .dict es := d | none
  let kind ← match under? d "class" with
    | some (.scalar (.text s)) => handlerKinds.lookup s
    | _ => none
  let formatted := match given? d "formatter" with
    | none => true
    | some (.scalar s) => formatters.any (·.eq s)
    | some _ => false
  let levelled := (set? d "level").all fun l => (level? names l).isSome
  let settings := (["class", "formatter", "level", "filters"] ++ ownSettings kind).map Scalar.text
  let known := (distinct es).all fun e => e.1 ∈ settings
  let shuts ← flushes? (under? d "stream")
  if formatted && levelled && known && (given? d "filters").isNone then some ⟨kind, shuts⟩ else none

/-! ### Makers -/

/-- What resolves references, and makes formatters and handlers. Besides, it may rename levels. -/
structure Makers where
  /-- The configuration with what its texts refer to in their places. -/
  resolve (c : Sections) : Sections
  /-- Makes a formatter, or does not. -/
  formatter (d : Datum) (names : LevelNames) : LevelNames × Bool
  /-- Makes a handler, or does not, with the formatters that there are. -/
  handler (formatters : List Scalar) (d : Datum) (names : LevelNames) : LevelNames × Option Handler

namespace Makers

/-- The standard makers. -/
def standard : Makers where
  resolve c := c
  formatter d names :=
    match d, under? d "()" with
    | .dict _, none => (names, isFormatter d)
    | _, some _ =>
      match renaming? d with
      | some renamed => (renamed :: names, true)
      | none => (names, false)
    | _, none => (names, false)
  handler formatters d names := (names, handler? names formatters d)

variable (m : Makers)

/-- Makes formatters until one cannot be made. -/
def formatters (names : LevelNames) : List Datum → LevelNames × Bool
  | [] => (names, true)
  | d :: ds =>
    match m.formatter d names with
    | (names, true) => formatters names ds
    | (names, false) => (names, false)

/-- Makes handlers until one cannot be made. -/
def handlers (formatters : List Scalar) (names : LevelNames) :
    List (Scalar × Datum) → LevelNames × Option (List (Scalar × Handler))
  | [] => (names, some [])
  | (name, d) :: es =>
    match m.handler formatters d names with
    | (names, none) => (names, none)
    | (names, some h) =>
      match handlers formatters names es with
      | (names, table?) => (names, table?.map ((name, h) :: ·))

end Makers

end CallContracts.Logging

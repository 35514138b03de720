import CallContracts.Document.Scalar

/-!
Reading documents of nested mappings and sequences.

A document is written in blocks, whose structure shows by indentation, or in flow, between
brackets and braces. A key stands on one line with a colon behind it; an entry of a sequence
stands behind a dash. Words without quotes may run over several lines, whose ends count as blanks.
A document may open with `---` and close with `...`; there must be only one.

Main definitions: `Document.Source`, the readers `node`, `mapping`, `sequence`, `flow`, and
`Document.read?`.
-/

namespace CallContracts.Document

/-! ### The source -/

/-- What is left of a document, and the column where it stands. -/
structure Source where
  rest : List Char
  column : Nat

namespace Source

/-- The source behind a number of characters of the same line. -/
def skipChars (s : Source) (n : Nat) : Source := ⟨s.rest.drop n, s.column + n⟩

/-- A character that ends a word: a blank, a tab or the end of a line. -/
def isGap (c : Char) : Bool := c == ' ' || c == '\t' || c == '\n'

/-- Whether a text starts with a gap or is at its end. -/
def startsGap (cs : List Char) : Bool := cs.head?.all isGap

/-- Skips blanks, comments and line ends; tells whether a line has ended. -/
def skipFrom (comment crossed : Bool) (column : Nat) : List Char → Source × Bool
  | [] => (⟨[], column⟩, true)
  | c :: cs =>
    if c = '\n' then skipFrom false true 0 cs
    else if comment || c = ' ' then skipFrom comment crossed (column + 1) cs
    else if c = '#' then skipFrom true crossed (column + 1) cs
    else (⟨c :: cs, column⟩, crossed)

/-- Skips to the next word; tells whether a line has ended. -/
def skip (s : Source) : Source × Bool := skipFrom false false s.column s.rest

/-- Whether a marker of three characters stands at the start of a line. -/
def isMarker (marker : List Char) (s : Source) : Bool :=
  s.column == 0 && marker.isPrefixOf s.rest && startsGap (s.rest.drop marker.length)

/-- The mark that opens a document. -/
def opening : List Char := ['-', '-', '-']

/-- The mark that closes a document. -/
def closing : List Char := ['.', '.', '.']

/-- Whether a document has no more content. -/
def isAtEnd (s : Source) : Bool :=
  s.rest.isEmpty || s.isMarker opening || s.isMarker closing

/-- Whether an entry of a sequence starts here. -/
def isAtEntry (s : Source) : Bool := s.rest.head? == some '-' && startsGap (s.rest.drop 1)

end Source

open Source

/-! ### Words -/

/-- The characters that have a meaning in flow. -/
def isFlowMark (c : Char) : Bool := c ∈ [',', '[', ']', '\x7b', '\x7d']

/-- Whether a colon stands here that ends a key. -/
def isKeyEnd (inFlow : Bool) : List Char → Bool
  | ':' :: cs => startsGap cs || inFlow && cs.head?.any isFlowMark
  | _ => false

/-- Whether a word cannot go on here. -/
def endsWord (inFlow : Bool) (cs : List Char) : Bool :=
  startsGap cs || isKeyEnd inFlow cs || inFlow && cs.head?.any fun c => isFlowMark c || c == '?'

/-- The part of a word on one line, without blanks at its end, and the rest. -/
def wordLine (inFlow spaced : Bool) : List Char → List Char × List Char
  | [] => ([], [])
  | c :: cs =>
    if c = ' ' then
      match wordLine inFlow true cs with
      | ([], _) => ([], c :: cs)
      | (t, rest) => (c :: t, rest)
    else if (spaced && c = '#') || endsWord inFlow (c :: cs) then ([], c :: cs)
    else
      let (t, rest) := wordLine inFlow false cs
      (c :: t, rest)

/-- Whether a word without quotes can start here. -/
def startsWord (inFlow : Bool) : List Char → Bool
  | [] => false
  | c :: cs =>
    if c = '-' then !startsGap cs
    else if c = '?' || c = ':' then !inFlow && !startsGap cs
    else
      !isGap c && !isFlowMark c &&
        !(c ∈ ['#', '&', '*', '!', '|', '>', '\'', '"', '%', '@', '\x60'])

/-- Skips blanks and line ends; counts the line ends. -/
def skipLines (breaks column : Nat) : List Char → Nat × Source
  | [] => (breaks, ⟨[], column⟩)
  | c :: cs =>
    if c = '\n' then skipLines (breaks + 1) 0 cs
    else if c = ' ' then skipLines breaks (column + 1) cs
    else (breaks, ⟨c :: cs, column⟩)

/-- Line ends inside a word: one counts as a blank, and of more the first is left out. -/
def fold (breaks : Nat) : List Char :=
  if breaks = 1 then [' '] else List.replicate (breaks - 1) '\n'

/-- A word over several lines; in a block its lines must stand deeper than the block. -/
def wordLines (inFlow : Bool) (indent : Int) : (fuel : Nat) → Source → List Char × Source
  | 0, s => ([], s)
  | fuel + 1, s =>
    let (t, rest) := wordLine inFlow false s.rest
    let here : Source := ⟨rest, s.column + t.length⟩
    let (breaks, next) := skipLines 0 here.column rest
    if breaks = 0 || next.isAtEnd || next.rest.head? == some '#' ||
        (!inFlow && (next.column : Int) ≤ indent) || endsWord inFlow next.rest then (t, here)
    else
      let (more, last) := wordLines inFlow indent fuel next
      (t ++ fold breaks ++ more, last)

/-- A word without quotes. -/
def word? (inFlow : Bool) (indent : Int) (s : Source) : Option (Scalar × Source) :=
  if startsWord inFlow s.rest then
    let (t, last) := wordLines inFlow indent (s.rest.length + 1) s
    (Word.resolve? (String.ofList t)).map (·, last)
  else none

/-! ### Quotes -/

/-- The escapes of one letter between double quotes. -/
def escape? : Char → Option Char
  | '0' => some (Char.ofNat 0)
  | 'a' => some '\x07'
  | 'b' => some '\x08'
  | 't' => some '\t'
  | '\t' => some '\t'
  | 'n' => some '\n'
  | 'v' => some '\x0b'
  | 'f' => some '\x0c'
  | 'r' => some '\r'
  | 'e' => some '\x1b'
  | ' ' => some ' '
  | '"' => some '"'
  | '/' => some '/'
  | '\\' => some '\\'
  | 'N' => some (Char.ofNat 0x85)
  | '_' => some (Char.ofNat 0xA0)
  | 'L' => some (Char.ofNat 0x2028)
  | 'P' => some (Char.ofNat 0x2029)
  | _ => none

/-- The number of digits of an escape by number. -/
def escapeWidth? : Char → Option Nat
  | 'x' => some 2
  | 'u' => some 4
  | 'U' => some 8
  | _ => none

/-- Drops blanks and tabs in front of a line. -/
def dropGaps (s : Source) : Source :=
  let gaps := s.rest.takeWhile fun c => c == ' ' || c == '\t'
  s.skipChars gaps.length

/-- A quoted text after its opening quote; a line end inside counts as a blank, and of several
the first is left out. -/
def quotedFrom (quote : Char) : (fuel : Nat) → Source → Option (List Char × Source)
  | 0, _ => none
  | fuel + 1, s =>
    let go (taken : List Char) (n : Nat) : Option (List Char × Source) :=
      (quotedFrom quote fuel (s.skipChars n)).map fun (t, last) => (taken ++ t, last)
    match s.rest with
    | [] => none
    | c :: cs =>
      if c = quote then
        if quote = '\'' && cs.head? == some '\'' then go ['\''] 2
        else some ([], s.skipChars 1)
      else if c = '\\' && quote = '"' then
        match cs with
        | [] => none
        | e :: more =>
          if e = '\n' then
            quotedFrom quote fuel (dropGaps ⟨more, 0⟩)
          else
            match escape? e, escapeWidth? e with
            | some x, _ => go [x] 2
            | none, some width =>
              let ds := more.take width
              if ds.length = width && ds.all (fun d => (Text.plainDigit? 16 d).isSome) then
                go [Char.ofNat (Word.number 16 ds)] (2 + width)
              else none
            | none, none => none
      else if isGap c then
        let gaps := s.rest.takeWhile fun c => c == ' ' || c == '\t'
        let after := s.skipChars gaps.length
        if after.rest.head? == some '\n' then
          let (breaks, next) := lines 0 (s.rest.length + 1) after
          if next.isMarker opening || next.isMarker closing then none
          else
            (quotedFrom quote fuel next).map fun (t, last) => (fold breaks ++ t, last)
        else go gaps gaps.length
      else go [c] 1
where
  /-- Line ends with the gaps around them. -/
  lines (breaks : Nat) : Nat → Source → Nat × Source
    | 0, s => (breaks, s)
    | fuel + 1, s =>
      match s.rest with
      | '\n' :: cs => lines (breaks + 1) fuel (dropGaps ⟨cs, 0⟩)
      | _ => (breaks, s)

/-- A quoted text. -/
def quoted? (s : Source) : Option (Scalar × Source) :=
  match s.rest with
  | [] => none
  | c :: _ =>
    if c = '"' || c = '\'' then
      (quotedFrom c (s.rest.length + 1) (s.skipChars 1)).map fun (t, last) =>
        (.text (String.ofList t), last)
    else none

/-- Whether no line ends between two places of a document. -/
def sameLine (first last : Source) : Bool :=
  !(first.rest.take (first.rest.length - last.rest.length)).contains '\n'

/-- A word or a quoted text. -/
def scalar? (inFlow : Bool) (indent : Int) (s : Source) : Option (Scalar × Source) :=
  (quoted? s).or (word? inFlow indent s)

/-! ### Flow -/

/-- Skips to the next word if it is a given character, and behind that. -/
def expect? (c : Char) (s : Source) : Option Source :=
  let next := s.skip.1
  if next.rest.head? == some c then some (next.skipChars 1) else none

mutual

/-- A value in flow. -/
def flow : (fuel : Nat) → Source → Option (Datum × Source)
  | 0, _ => none
  | fuel + 1, s =>
    let s := s.skip.1
    match s.rest with
    | '[' :: _ => flowItems fuel [] (s.skipChars 1)
    | '\x7b' :: _ => flowEntries fuel [] (s.skipChars 1)
    | _ => (scalar? true 0 s).map fun (x, last) => (.scalar x, last)

/-- A value in flow, and whether a colon makes it a key. -/
def flowKey : (fuel : Nat) → Source → Option (Datum × Bool × Source)
  | 0, _ => none
  | fuel + 1, s =>
    let s := s.skip.1
    match flow fuel s with
    | none => none
    | some (d, last) =>
      let (next, crossed) := last.skip
      if next.rest.head? == some ':' && !crossed then
        match d with
        | .scalar _ => if sameLine s last then some (d, true, next.skipChars 1) else none
        | _ => none
      else some (d, false, last)

/-- The value behind a colon, which may be left out. -/
def flowValue : (fuel : Nat) → Source → Option (Datum × Source)
  | 0, _ => none
  | fuel + 1, s =>
    let next := s.skip.1
    if next.rest.head?.any fun c => c ∈ [',', ']', '\x7d'] then some (.scalar .null, next)
    else flow fuel next

/-- The items of a sequence in flow, up to its bracket. -/
def flowItems : (fuel : Nat) → List Datum → Source → Option (Datum × Source)
  | 0, _, _ => none
  | fuel + 1, done, s =>
    match expect? ']' s with
    | some last => some (.list done, last)
    | none =>
      match flowKey fuel s with
      | none => none
      | some (d, isKey, next) =>
        let item := if isKey then
            (flowValue fuel next).map fun (v, last) => (Datum.dict [(d, v)], last)
          else some (d, next)
        match item with
        | none => none
        | some (d, next) =>
          match expect? ',' next with
          | some more => flowItems fuel (done ++ [d]) more
          | none => (expect? ']' next).map fun last => (.list (done ++ [d]), last)

/-- The entries of a mapping in flow, up to its brace. -/
def flowEntries : (fuel : Nat) → List (Datum × Datum) → Source → Option (Datum × Source)
  | 0, _, _ => none
  | fuel + 1, done, s =>
    match expect? '\x7d' s with
    | some last => some (.dict done, last)
    | none =>
      match flowKey fuel s with
      | some (.scalar k, isKey, next) =>
        let value := if isKey then flowValue fuel next else some (.scalar .null, next)
        match value with
        | none => none
        | some (v, next) =>
          let done := done ++ [(.scalar k, v)]
          match expect? ',' next with
          | some more => flowEntries fuel done more
          | none => (expect? '\x7d' next).map fun last => (.dict done, last)
      | _ => none

end

/-! ### Blocks -/

/-- A key of a block mapping with its colon. -/
def key? (s : Source) : Option (Scalar × Source) :=
  let word : Option (Scalar × Source) :=
    if startsWord false s.rest then
      let (t, _) := wordLine false false s.rest
      (Word.resolve? (String.ofList t)).map (·, s.skipChars t.length)
    else none
  match (quoted? s).or word with
  | none => none
  | some (k, last) =>
    let blanks := (last.rest.takeWhile (· == ' ')).length
    let colon := last.skipChars blanks
    if sameLine s last && isKeyEnd false colon.rest then some (k, colon.skipChars 1) else none

/-- A value that ends its line: flow, quotes or a word. -/
def inline (indent : Int) (s : Source) : Option (Datum × Source) :=
  let value := match s.rest with
    | '[' :: _ => flow (4 * s.rest.length + 4) s
    | '\x7b' :: _ => flow (4 * s.rest.length + 4) s
    | _ => (scalar? false indent s).map fun (x, last) => (.scalar x, last)
  match value with
  | none => none
  | some (d, last) =>
    let (next, crossed) := last.skip
    if crossed then some (d, next) else none

mutual

/-- A value that stands deeper than a column. Keys and entries may start it only where a line or
an entry starts. -/
def node : (fuel : Nat) → (indent : Int) → (keys : Bool) → Source → Option (Datum × Source)
  | 0, _, _, _ => none
  | fuel + 1, indent, keys, s =>
    if s.isAtEntry then if keys then sequence fuel false [] s else none
    else if keys && (key? s).isSome then mapping fuel [] s
    else inline indent s

/-- The value of a key or an entry at a column: on its line, or deeper on lines below. A sequence
below a key may stand at the column of the key. -/
def below : (fuel : Nat) → (column : Nat) → (ofKey : Bool) → Source → Option (Datum × Source)
  | 0, _, _, _ => none
  | fuel + 1, column, ofKey, s =>
    let (next, crossed) := s.skip
    if next.isAtEnd then some (.scalar .null, next)
    else if !crossed then node fuel column (!ofKey) next
    else if column < next.column then node fuel column true next
    else if ofKey && next.column = column && next.isAtEntry then sequence fuel true [] next
    else some (.scalar .null, next)

/-- The entries of a mapping at the column where it starts. -/
def mapping : (fuel : Nat) → List (Datum × Datum) → Source → Option (Datum × Source)
  | 0, _, _ => none
  | fuel + 1, done, s =>
    match key? s with
    | none => none
    | some (k, colon) =>
      match below fuel s.column true colon with
      | none => none
      | some (v, next) =>
        let done := done ++ [(.scalar k, v)]
        if next.isAtEnd || next.column < s.column then some (.dict done, next)
        else if next.column = s.column then mapping fuel done next
        else none

/-- The entries of a sequence at the column where it starts; one below a key ends where a line
without a dash starts. -/
def sequence : (fuel : Nat) → (ofKey : Bool) → List Datum → Source → Option (Datum × Source)
  | 0, _, _, _ => none
  | fuel + 1, ofKey, done, s =>
    match below fuel s.column false (s.skipChars 1) with
    | none => none
    | some (v, next) =>
      let done := done ++ [v]
      if next.isAtEnd || next.column < s.column then some (.list done, next)
      else if next.column = s.column then
        if next.isAtEntry then sequence fuel ofKey done next
        else if ofKey then some (.list done, next)
        else none
      else none

end

/-! ### Documents -/

/-- The characters that a document may hold. -/
def isAllowed (c : Char) : Bool :=
  let n := c.toNat
  n == 9 || n == 10 || (0x20 ≤ n && n ≤ 0x7E) || n == 0x85 || (0xA0 ≤ n && n ≤ 0xFFFD) ||
    0x10000 ≤ n

/-- Ends every line with a line feed. -/
def withLineFeeds : List Char → List Char
  | '\r' :: '\n' :: cs => '\n' :: withLineFeeds cs
  | c :: cs => (if c = '\r' || c.toNat = 0x85 then '\n' else c) :: withLineFeeds cs
  | [] => []

/-- Whether nothing follows a document but its closing mark. -/
def isClosed (s : Source) : Bool :=
  if s.isMarker closing then (s.skipChars 3).skip.1.rest.isEmpty else s.rest.isEmpty

/-- Reads a document; the empty one is null. -/
def read? (text : String) : Option Datum :=
  let cs := withLineFeeds text.toList
  let cs := if cs.head?.any (·.toNat == 0xFEFF) then cs.drop 1 else cs
  if !cs.all isAllowed then none
  else
    let start := (Source.skip ⟨cs, 0⟩).1
    let (start, fresh) :=
      if start.isMarker opening then (start.skipChars 3).skip else (start, true)
    if start.isAtEnd then if isClosed start then some (.scalar .null) else none
    else
      match node (4 * cs.length + 4) (-1) fresh start with
      | some (d, last) => if isClosed last then some d else none
      | none => none

end CallContracts.Document

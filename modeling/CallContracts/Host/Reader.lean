import CallContracts.Host.Literal
import CallContracts.Number.Numeral
import CallContracts.Text.Word

/-!
Reading literals.

    sum     := factor (("+" | "-") factor)*
    factor  := ("+" | "-") factor | primary
    primary := atom ("(" ")")*
    atom    := number | text+ | name | "..." | "(" items ")" | "[" items "]" | "{" entries "}"

Blanks and comments between the parts do not count. Lines may end only between brackets, behind a
backslash or around the whole, and no line around it is indented but the first. A text is quoted in
one of several ways, with escapes or without; escapes by the name of a character are left out. Any
other expression does not read here.

Main definitions: `LiteralText.number?`, `LiteralText.string?`, `LiteralText.sum` and
`LiteralText.read?`.
-/

namespace CallContracts.LiteralText

/-! ### Blanks -/

/-- Skips blanks, tabs, form feeds and joined lines; between brackets also line ends and
comments. Behind the last line nothing is joined. -/
def skip (inside comment : Bool) : List Char → List Char
  | [] => []
  | c :: cs =>
    if comment then
      if c = '\n' then (if inside then skip inside false cs else c :: cs) else skip inside true cs
    else if c = ' ' || c = '\t' || c = '\x0c' then skip inside false cs
    else if c = '#' then skip inside true cs
    else if inside && c = '\n' then skip inside false cs
    else
      match c, cs with
      | '\\', '\n' :: rest => if rest.isEmpty then c :: cs else skip inside false rest
      | _, _ => c :: cs

/-- The column in which a line starts: blanks and tabs count, a form feed starts over. The column of
a line that others are joined to counts for them. -/
def indentation (joined column : Nat) : List Char → Nat × List Char
  | [] => (if joined = 0 then column else joined, [])
  | c :: cs =>
    if c = ' ' || c = '\t' then indentation joined (column + 1) cs
    else if c = '\x0c' then indentation joined 0 cs
    else
      match c, cs with
      | '\\', '\n' :: rest =>
        if rest.isEmpty then (if joined = 0 then column else joined, c :: cs)
        else indentation (if joined = 0 then column else joined) column rest
      | _, _ => (if joined = 0 then column else joined, c :: cs)

/-- Drops blank lines and lines that hold only a comment; what comes then must not be indented. -/
def dropLines : (fuel : Nat) → List Char → Option (List Char)
  | 0, _ => none
  | fuel + 1, cs =>
    match indentation 0 0 cs with
    | (_, '\n' :: rest) => dropLines fuel rest
    | (_, '#' :: rest) =>
      match rest.dropWhile (· != '\n') with
      | [] => some []
      | _ :: rest => dropLines fuel rest
    | (column, rest) => if column = 0 then some rest else none

/-! ### Numbers -/

/-- The base that a letter behind a zero stands for. -/
def base? (c : Char) : Option Nat :=
  if c = 'x' || c = 'X' then some 16
  else if c = 'o' || c = 'O' then some 8
  else if c = 'b' || c = 'B' then some 2
  else none

/-- A character that may follow another in a name or a number. -/
def continues (c : Char) : Bool := Text.isWord c

/-- A number must not run into a name. -/
def ended {α : Type} (r : α × List Char) : Option (α × List Char) :=
  if r.2.head?.any continues then none else some r

/-- Digits of a base behind its letter; one underscore may stand in front of each. -/
def based (base : Nat) (cs : List Char) : Option (Nat × List Char) :=
  let cs := if cs.head? == some '_' then cs.drop 1 else cs
  match Numeral.takeDigits (Text.plainDigit? base) cs with
  | ([], _) => none
  | (ds, rest) => some (ds.foldl (fun n d => base * n + d) 0, rest)

/-- The greatest number of decimal digits that a whole number may have. -/
def greatestLength : Nat := 4300

/-- A whole number must not start with a zero unless it is zero, nor be too long. -/
def isPlainWhole (cs rest : List Char) : Bool :=
  let digits := (cs.take (cs.length - rest.length)).filter (· != '_')
  (cs.head? != some '0' || digits.all (· == '0')) && digits.length ≤ greatestLength

/-- A decimal number: whole, with a point or an exponent, or imaginary. -/
def decimal? (cs : List Char) : Option (Scalar × List Char) :=
  match Numeral.takeUnsigned (Text.plainDigit? 10) false cs with
  | none => none
  | some (n, rest) =>
    match rest with
    | 'j' :: more => ended (.complex (.zero false) n.toBinary64, more)
    | 'J' :: more => ended (.complex (.zero false) n.toBinary64, more)
    | _ =>
      if n.isFractional then ended (.float n.toBinary64, rest)
      else if isPlainWhole cs rest then ended (.int n.coefficient, rest)
      else none

/-- An unsigned number. -/
def number? (cs : List Char) : Option (Scalar × List Char) :=
  match cs with
  | '0' :: c :: rest =>
    match base? c with
    | some base => (based base rest).bind fun (n, rest) => ended (.int n, rest)
    | none => decimal? cs
  | _ => decimal? cs

/-! ### Texts -/

/-- How a quoted text is read. -/
structure Quoting where
  /-- Bytes in place of characters. -/
  bytes : Bool
  /-- Without escapes. -/
  raw : Bool
  quote : Char
  /-- Between three quotes, with line ends. -/
  long : Bool

/-- The letters in front of a quote. -/
def marks? (letters : List Char) : Option (Bool × Bool) :=
  let word := String.ofList (letters.map Char.toLower)
  if word = "" || word = "u" then some (false, false)
  else if word = "r" then some (false, true)
  else if word = "b" then some (true, false)
  else if word = "br" || word = "rb" then some (true, true)
  else none

/-- The opening of a quoted text. -/
def opening? (cs : List Char) : Option (Quoting × List Char) :=
  let letters := cs.takeWhile fun c => c != '\'' && c != '"' && continues c
  match cs.drop letters.length with
  | q :: rest =>
    if q = '\'' || q = '"' then
      match marks? letters with
      | none => none
      | some (bytes, raw) =>
        match rest with
        | a :: b :: more =>
          if a = q && b = q then some (⟨bytes, raw, q, true⟩, more)
          else some (⟨bytes, raw, q, false⟩, rest)
        | _ => some (⟨bytes, raw, q, false⟩, rest)
    else none
  | [] => none

/-- The character of a number; a number of no character is replaced. -/
def charOf (n : Nat) : Char := if (Char.ofNat n).toNat = n then Char.ofNat n else Char.ofNat 0xFFFD

/-- Exactly so many hexadecimal digits. -/
def hexDigits? (width : Nat) (cs : List Char) : Option (Nat × List Char) :=
  let ds := (cs.take width).filterMap (Text.plainDigit? 16)
  if ds.length = width then some (ds.foldl (fun n d => 16 * n + d) 0, cs.drop width) else none

/-- At most three digits of base eight. -/
def octalDigits (cs : List Char) : Nat × List Char :=
  let ds := (cs.take 3).takeWhile fun c => (Text.plainDigit? 8 c).isSome
  ((ds.filterMap (Text.plainDigit? 8)).foldl (fun n d => 8 * n + d) 0, cs.drop ds.length)

/-- What a letter behind a backslash stands for. -/
def letter? : Char → Option Char
  | '\\' => some '\\'
  | '\'' => some '\''
  | '"' => some '"'
  | 'a' => some '\x07'
  | 'b' => some '\x08'
  | 'f' => some '\x0c'
  | 'n' => some '\n'
  | 'r' => some '\r'
  | 't' => some '\t'
  | 'v' => some '\x0b'
  | _ => none

/-- An escape behind its backslash: the characters that it stands for. An unknown escape stands for
itself. -/
def escape? (k : Quoting) (cs : List Char) : Option (List Char × List Char) :=
  let byNumber (width : Nat) (rest : List Char) : Option (List Char × List Char) :=
    match hexDigits? width rest with
    | some (n, rest) => if n < 0x110000 then some ([charOf n], rest) else none
    | none => none
  match cs with
  | [] => none
  | c :: rest =>
    if k.bytes && 128 ≤ c.toNat then none
    else if k.raw then some (['\\', c], rest)
    else if c = '\n' then some ([], rest)
    else
      match letter? c with
      | some x => some ([x], rest)
      | none =>
        if (Text.plainDigit? 8 c).isSome then
          let (n, rest) := octalDigits cs
          some ([charOf (if k.bytes then n % 256 else n)], rest)
        else if c = 'x' then byNumber 2 rest
        else if !k.bytes && c = 'u' then byNumber 4 rest
        else if !k.bytes && c = 'U' then byNumber 8 rest
        else if !k.bytes && c = 'N' then none
        else some (['\\', c], rest)

/-- Whether the closing quotes stand here; the rest behind them. -/
def closing? (k : Quoting) (cs : List Char) : Option (List Char) :=
  match cs with
  | a :: rest =>
    if a != k.quote then none
    else if !k.long then some rest
    else
      match rest with
      | b :: c :: more => if b = k.quote && c = k.quote then some more else none
      | _ => none
  | [] => none

/-- The characters of a quoted text up to its closing quotes. -/
def body (k : Quoting) : (fuel : Nat) → List Char → Option (List Char × List Char)
  | 0, _ => none
  | fuel + 1, cs =>
    match closing? k cs with
    | some rest => some ([], rest)
    | none =>
      match cs with
      | [] => none
      | c :: rest =>
        if c = '\\' then
          (escape? k rest).bind fun (xs, rest) =>
            (body k fuel rest).map fun (t, last) => (xs ++ t, last)
        else if (c = '\n' && !k.long) || (k.bytes && 128 ≤ c.toNat) then none
        else (body k fuel rest).map fun (t, last) => (c :: t, last)

/-- One quoted text. -/
def string? (cs : List Char) : Option (Scalar × List Char) :=
  (opening? cs).bind fun (k, rest) =>
    (body k (rest.length + 1) rest).map fun (t, last) =>
      let content := if k.bytes then .bytes (t.map fun c => UInt8.ofNat c.toNat)
        else .text (String.ofList t)
      (content, last)

/-- A quoted text joined to another of its kind. -/
def join? : Scalar → Scalar → Option Scalar
  | .text s, .text t => some (.text (s ++ t))
  | .bytes s, .bytes t => some (.bytes (s ++ t))
  | _, _ => none

/-- Quoted texts one after the other, which count as one. -/
def strings (inside : Bool) : (fuel : Nat) → Scalar → List Char → Option (Scalar × List Char)
  | 0, _, _ => none
  | fuel + 1, first, cs =>
    let rest := skip inside false cs
    if (opening? rest).isSome then
      (string? rest).bind fun (next, last) =>
        (join? first next).bind fun s => strings inside fuel s last
    else some (first, cs)

/-! ### Expressions -/

/-- The words that are no names. -/
def keywords : List String :=
  ["and", "as", "assert", "async", "await", "break", "class", "continue", "def", "del", "elif",
   "else", "except", "finally", "for", "from", "global", "if", "import", "in", "is", "lambda",
   "nonlocal", "not", "or", "pass", "raise", "return", "try", "while", "with", "yield"]

/-- A word: a constant, or a name. -/
def word? (s : String) : Option Literal :=
  if s = "None" then some (.constant .null)
  else if s = "True" then some (.constant (.bool true))
  else if s = "False" then some (.constant (.bool false))
  else if s = "" || s ∈ keywords then none
  else some (.name s)

/-- A sign, if there is one. -/
def sign? : Char → Option Bool
  | '-' => some true
  | '+' => some false
  | _ => none

/-- How deeply brackets nest. -/
def deepestLevel : Nat := 200

/-- An expression, and what is left of the text. -/
abbrev Found := Literal × List Char

/-- Expressions with commas between them, whether the last comma has none behind it, and what is
left of the text. -/
abbrev FoundAll := List Literal × Bool × List Char

mutual

/-- Terms with signs between them, inside so many brackets. -/
def sum (level : Nat) : (fuel : Nat) → List Char → Option Found
  | 0, _ => none
  | fuel + 1, cs => (factor level fuel cs).bind fun (first, rest) => moreTerms level fuel first rest
termination_by structural fuel => fuel

/-- The terms behind those that are read already. -/
def moreTerms (level : Nat) : (fuel : Nat) → Literal → List Char → Option Found
  | 0, _, _ => none
  | fuel + 1, first, cs =>
    match skip (level != 0) false cs with
    | [] => some (first, [])
    | c :: rest =>
      match sign? c with
      | none => some (first, c :: rest)
      | some negative =>
        (factor level fuel rest).bind fun (next, rest) =>
          moreTerms level fuel (.sum negative first next) rest
termination_by structural fuel => fuel

/-- A term, perhaps with signs. -/
def factor (level : Nat) : (fuel : Nat) → List Char → Option Found
  | 0, _ => none
  | fuel + 1, cs =>
    match skip (level != 0) false cs with
    | [] => none
    | c :: rest =>
      match sign? c with
      | some negative => (factor level fuel rest).map fun (e, rest) => (.signed negative e, rest)
      | none => (atom level fuel c rest).bind fun (e, rest) => calls level fuel e rest
termination_by structural fuel => fuel

/-- The calls of an expression. -/
def calls (level : Nat) : (fuel : Nat) → Literal → List Char → Option Found
  | 0, _, _ => none
  | fuel + 1, f, cs =>
    match skip (level != 0) false cs with
    | '(' :: rest =>
      match skip true false rest with
      | ')' :: rest => if level < deepestLevel then calls level fuel (.call f) rest else none
      | _ => none
    | rest => some (f, rest)
termination_by structural fuel => fuel

/-- An expression without signs and calls; its first character is given. -/
def atom (level : Nat) : (fuel : Nat) → Char → List Char → Option Found
  | 0, _, _ => none
  | fuel + 1, c, rest =>
    let cs := c :: rest
    if c = '(' || c = '[' || c = '\x7b' then
      if deepestLevel ≤ level then none
      else if c = '(' then
        (items (level + 1) fuel ')' rest).map fun (es, comma, rest) =>
          match es, comma with
          | [e], false => (e, rest)
          | es, _ => (.tuple es, rest)
      else if c = '[' then
        (items (level + 1) fuel ']' rest).map fun (es, _, rest) => (.list es, rest)
      else braces (level + 1) fuel rest
    else if (opening? cs).isSome then
      (string? cs).bind fun (s, rest) =>
        (strings (level != 0) cs.length s rest).map fun (s, rest) => (.constant s, rest)
    else if ['.', '.', '.'].isPrefixOf cs then some (.constant .ellipsis, cs.drop 3)
    else if (Text.plainDigit? 10 c).isSome || c = '.' then
      (number? cs).map fun (s, rest) => (.constant s, rest)
    else
      let name := cs.takeWhile continues
      if Text.isDigit c then none
      else (word? (String.ofList name)).map fun e => (e, cs.drop name.length)
termination_by structural fuel => fuel

/-- Expressions with commas between them up to a closing mark. -/
def items (level : Nat) : (fuel : Nat) → (close : Char) → List Char → Option FoundAll
  | 0, _, _ => none
  | fuel + 1, close, cs =>
    let cs := skip true false cs
    if cs.head? == some close then some ([], false, cs.drop 1)
    else (sum level fuel cs).bind fun (e, rest) => moreItems level fuel close e rest
termination_by structural fuel => fuel

/-- The expressions behind one that is read already. -/
def moreItems (level : Nat) : (fuel : Nat) → (close : Char) → Literal → List Char → Option FoundAll
  | 0, _, _, _ => none
  | fuel + 1, close, first, cs =>
    match skip true false cs with
    | [] => none
    | c :: rest =>
      if c = ',' then
        (items level fuel close rest).map fun (es, comma, rest) =>
          (first :: es, comma || es.isEmpty, rest)
      else if c = close then some ([first], false, rest)
      else none
termination_by structural fuel => fuel

/-- A set or a dictionary up to its brace. -/
def braces (level : Nat) : (fuel : Nat) → List Char → Option Found
  | 0, _ => none
  | fuel + 1, cs =>
    let cs := skip true false cs
    if cs.head? == some '\x7d' then some (.dict [], cs.drop 1)
    else
      (sum level fuel cs).bind fun (first, rest) =>
        let rest := skip true false rest
        if rest.head? == some ':' then
          (entry level fuel first (rest.drop 1)).map fun (es, rest) => (.dict es, rest)
        else
          (moreItems level fuel '\x7d' first rest).map fun (es, _, rest) => (.set es, rest)
termination_by structural fuel => fuel

/-- The value of a key behind its colon, and the entries behind it up to the brace. -/
def entry (level : Nat) : (fuel : Nat) → (key : Literal) → List Char →
    Option (List (Literal × Literal) × List Char)
  | 0, _, _ => none
  | fuel + 1, key, cs =>
    (sum level fuel cs).bind fun (e, rest) =>
      match skip true false rest with
      | [] => none
      | c :: rest =>
        if c = '\x7d' then some ([(key, e)], rest)
        else if c = ',' then
          let rest := skip true false rest
          if rest.head? == some '\x7d' then some ([(key, e)], rest.drop 1)
          else
            (sum level fuel rest).bind fun (next, rest) =>
              let rest := skip true false rest
              if rest.head? == some ':' then
                (entry level fuel next (rest.drop 1)).map fun (es, rest) => ((key, e) :: es, rest)
              else none
        else none
termination_by structural fuel => fuel

end

/-! ### Whole texts -/

/-- Expressions with commas between them to the end of the line. -/
def line (fuel : Nat) : (count : Nat) → List Char → Option FoundAll
  | 0, _ => none
  | n + 1, cs =>
    (sum 0 fuel cs).bind fun (e, rest) =>
      match skip false false rest with
      | ',' :: rest =>
        match skip false false rest with
        | [] => some ([e], true, [])
        | '\n' :: rest => some ([e], true, '\n' :: rest)
        | rest => (line fuel n rest).map fun (es, _, rest) => (e :: es, true, rest)
      | rest => some ([e], false, rest)

/-- Whether only blanks and comments are left behind an expression. -/
def isDone (cs : List Char) : Bool :=
  match skip false false cs with
  | [] => true
  | '\n' :: rest => (dropLines (rest.length + 1) rest).any List.isEmpty
  | _ => false

/-- Ends every line with a line feed. -/
def withLineFeeds : List Char → List Char
  | '\r' :: '\n' :: cs => '\n' :: withLineFeeds cs
  | c :: cs => (if c = '\r' then '\n' else c) :: withLineFeeds cs
  | [] => []

/-- Reads a whole text as one expression; with commas it is a tuple. Blanks and tabs may stand in
front of its first line only, and the character zero nowhere. -/
def read? (text : String) : Option Literal :=
  let cs := (withLineFeeds text.toList).dropWhile fun c => c == ' ' || c == '\t'
  if text.toList.contains (Char.ofNat 0) then none
  else
    (dropLines (cs.length + 1) cs).bind fun cs =>
      (line (4 * cs.length + 8) (cs.length + 1) cs).bind fun (es, comma, rest) =>
        if isDone rest then
          match es, comma with
          | [e], false => some e
          | es, _ => some (.tuple es)
        else none

end CallContracts.LiteralText

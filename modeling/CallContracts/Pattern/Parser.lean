import CallContracts.Number.Numeral
import CallContracts.Pattern.Basic
import CallContracts.Script.Mishap

/-!
Reading patterns.

    pattern  := branch ("|" branch)*
    branch   := (atom times?)*
    atom     := character | "." | "^" | "$" | escape | "[" set "]" | "(" group ")"
    times    := ("*" | "+" | "?" | "{" least "," most "}") ("?" | "+")?

A brace that starts no count stands for itself. Options may stand in front of the whole pattern, or
at the start of a group for the group alone; one of them lets blanks and comments stand between the
parts. Reading fails where the text is no pattern: nothing to repeat, a repeated repetition, an open
or stray parenthesis, a range that runs backwards, an unknown escape, a group that is not there, and
a look backwards whose width varies. It fails in another way for a count that is too large, and for
options that exclude each other. Characters by name and the options for locales and templates are
left out.

Main definitions: `Pattern.width`, `PatternText.read` and `Pattern.search`.
-/

namespace CallContracts

/-! ### Widths -/

/-- A least number of characters, and a greatest one if there is one. -/
abbrev Width := Nat × Option Nat

mutual

/-- The least number of characters that a pattern takes, and the greatest if there is one; the
widths of earlier groups are given. -/
def Pattern.width (groups : List (Nat × Width)) : Pattern → Width
  | .char _ | .any | .set .. => (1, some 1)
  | .anchor _ | .ahead .. | .behind .. => (0, some 0)
  | .sequence ps => Pattern.widthAll groups ps
  | .choice ps => Pattern.widthAny groups ps
  | .cluster _ p | .atomic p | .group _ p => p.width groups
  | .conditional _ yes no =>
    let (lo, hi) := yes.width groups
    let (lo', hi') := no.width groups
    (min lo lo', match hi, hi' with
      | some h, some h' => some (max h h')
      | _, _ => none)
  | .again n => (groups.lookup n).getD (0, none)
  | .repeated least most _ p =>
    let (lo, hi) := p.width groups
    (lo * least, match hi, most with
      | some h, some m => some (h * m)
      | some 0, none | none, some 0 => some 0
      | _, _ => none)

/-- The width of patterns one after the other. -/
def Pattern.widthAll (groups : List (Nat × Width)) : List Pattern → Width
  | [] => (0, some 0)
  | p :: ps =>
    let (lo, hi) := p.width groups
    let (lo', hi') := Pattern.widthAll groups ps
    (lo + lo', match hi, hi' with
      | some h, some h' => some (h + h')
      | _, _ => none)

/-- The width of one of several patterns. -/
def Pattern.widthAny (groups : List (Nat × Width)) : List Pattern → Width
  | [] => (0, some 0)
  | [p] => p.width groups
  | p :: ps =>
    let (lo, hi) := p.width groups
    let (lo', hi') := Pattern.widthAny groups ps
    (min lo lo', match hi, hi' with
      | some h, some h' => some (max h h')
      | _, _ => none)

end

/-- The width of a pattern that always takes the same number of characters. -/
def Pattern.fixedWidth? (groups : List (Nat × Width)) (p : Pattern) : Option Nat :=
  match p.width groups with
  | (lo, some hi) => if lo = hi then some lo else none
  | (_, none) => none

namespace PatternText

/-! ### The source -/

/-- What is left of a pattern's text, and its groups so far. -/
structure Source where
  rest : List Char
  /-- The number of the next group. -/
  next : Nat
  /-- The groups that are closed, with their widths. -/
  closed : List (Nat × Width)
  /-- The first group inside the outermost look backwards that is open. -/
  behind : Option Nat
  names : List (String × Nat)
  /-- The groups, perhaps later ones, that decide between two patterns. -/
  asked : List Nat
  options : PatternOptions
  /-- Blanks and comments may stand between the parts. -/
  spaced : Bool
  /-- The characters of all scripts were asked for by name. -/
  unicode : Bool

/-- A reader of a part of a pattern. -/
abbrev Reader := StateT Source (Except Mishap)

/-- The text is no pattern. -/
def fail {α : Type} : Reader α := throw .pattern

/-- The next character, which stays. -/
def peek : Reader (Option Char) := return (← get).rest.head?

/-- Takes the next character. -/
def take? : Reader (Option Char) := do
  let s ← get
  match s.rest with
  | [] => return none
  | c :: cs =>
    set { s with rest := cs }
    return some c

/-- Takes the next character, which must be there. -/
def take : Reader Char := do
  match ← take? with
  | some c => return c
  | none => fail

/-- Takes a character if it is the next one. -/
def accept (c : Char) : Reader Bool := do
  if (← peek) == some c then
    let _ ← take?
    return true
  else return false

/-- Takes the characters that a test accepts, at most a number of them. -/
def takeWhile (test : Char → Bool) (most : Nat) : Reader (List Char) := do
  let s ← get
  let cs := (s.rest.take most).takeWhile test
  set { s with rest := s.rest.drop cs.length }
  return cs

/-- The value of a hexadecimal digit. -/
def hexValue? (c : Char) : Option Nat := Text.plainDigit? 16 c

/-- A plain decimal digit. -/
def isPlainDigit (c : Char) : Bool := '0' ≤ c && c ≤ '9'

/-- A digit of base eight. -/
def isOctal (c : Char) : Bool := '0' ≤ c && c ≤ '7'

/-- A plain letter. -/
def isPlainLetter (c : Char) : Bool := ('a' ≤ c && c ≤ 'z') || ('A' ≤ c && c ≤ 'Z')

/-- The number that digits write. -/
def number (base : Nat) (cs : List Char) : Nat :=
  cs.foldl (fun n c => base * n + (hexValue? c).getD 0) 0

/-- The number of a character with exactly `width` hexadecimal digits. -/
def hexNumber (width : Nat) : Reader Nat := do
  let cs ← takeWhile (fun c => (hexValue? c).isSome) width
  let n := number 16 cs
  if cs.length = width ∧ n < 0x110000 then return n else fail

/-- The character with a number; a number without a character matches nothing. -/
def character (n : Nat) : Pattern :=
  if (Char.ofNat n).toNat = n then .char (Char.ofNat n) else .set false []

/-- Drops a comment up to its end mark. A backslash goes with the character behind it. -/
def dropComment (stop : Char) : List Char → Option (List Char)
  | [] => none
  | '\\' :: _ :: cs => dropComment stop cs
  | c :: cs => if c = stop then some cs else dropComment stop cs

/-! ### Escapes -/

/-- The control characters that have an escape. -/
def control? : Char → Option Char
  | 'a' => some '\x07'
  | 'f' => some '\x0c'
  | 'n' => some '\n'
  | 'r' => some '\r'
  | 't' => some '\t'
  | 'v' => some '\x0b'
  | '\\' => some '\\'
  | _ => none

/-- The classes that have an escape. -/
def class? : Char → Option SetItem
  | 'd' => some (.member .digit false)
  | 'D' => some (.member .digit true)
  | 's' => some (.member .blank false)
  | 'S' => some (.member .blank true)
  | 'w' => some (.member .word false)
  | 'W' => some (.member .word true)
  | _ => none

/-- The anchors that have an escape. -/
def anchor? : Char → Option Anchor
  | 'A' => some .textStart
  | 'Z' => some .textEnd
  | 'b' => some .boundary
  | 'B' => some .notBoundary
  | _ => none

/-- The character of an escape by number or by itself; the backslash and `c` are taken. -/
def escapedChar (c : Char) : Reader Nat := do
  if let some x := control? c then return x.toNat
  else if c = 'x' then hexNumber 2
  else if c = 'u' then hexNumber 4
  else if c = 'U' then hexNumber 8
  else if isPlainLetter c || isPlainDigit c then fail
  else return c.toNat

/-- The character of an octal escape. -/
def octalChar (digits : List Char) : Reader Nat :=
  let n := number 8 digits
  if n < 256 then return n else fail

/-- A group inside a look backwards that is open must not be asked for there. -/
def isOutside (n : Nat) : Reader Bool := do
  let s ← get
  return s.behind.all fun first => n < first && (s.closed.lookup n).isSome

/-- What an earlier group kept. The group must be closed, and must not lie inside a look backwards
that is still open. -/
def earlier (n : Nat) : Reader Pattern := do
  let s ← get
  if (s.closed.lookup n).isSome && (← isOutside n) then return .again n else fail

/-- A backslash in front of a digit other than zero: an octal number of three digits, or a group
that is closed. -/
def reference (c : Char) : Reader Pattern := do
  let s ← get
  match s.rest with
  | d :: rest =>
    if isPlainDigit d then
      match rest with
      | e :: more =>
        if isOctal c && isOctal d && isOctal e then
          set { s with rest := more }
          return character (← octalChar [c, d, e])
        else
          set { s with rest := rest }
          group [c, d]
      | [] =>
        set { s with rest := rest }
        group [c, d]
    else group [c]
  | [] => group [c]
where
  /-- The group with a number. -/
  group (digits : List Char) : Reader Pattern := do
    earlier (number 10 digits)

/-- An escape outside a set; the backslash is taken. -/
def escape : Reader Pattern := do
  let c ← take
  if let some item := class? c then return .set false [item]
  else if let some a := anchor? c then return .anchor a
  else if c = '0' then
    let ds ← takeWhile isOctal 2
    return character (← octalChar ds)
  else if isPlainDigit c then reference c
  else return character (← escapedChar c)

/-- An escape inside a set; the backslash is taken. -/
def escapeInSet : Reader SetItem := do
  let c ← take
  let single (n : Nat) : SetItem := .range n n
  if let some item := class? c then return item
  else if c = 'b' then return single 8
  else if isOctal c then
    let ds ← takeWhile isOctal 2
    return single (← octalChar (c :: ds))
  else return single (← escapedChar c)

/-! ### Sets -/

/-- One end of a range in a set. -/
def setEnd (c : Char) : Reader SetItem :=
  if c = '\\' then escapeInSet else return .range c.toNat c.toNat

/-- The range between two items, both of which must be characters in order. -/
def range? : SetItem → SetItem → Option SetItem
  | .range a _, .range b _ => if a ≤ b then some (.range a b) else none
  | _, _ => none

/-- The items of a set up to its bracket; a bracket in the first place is an item. -/
def setItems : (fuel : Nat) → (items : List SetItem) → Reader (List SetItem)
  | 0, _ => fail
  | fuel + 1, items => do
    let c ← take
    if c = ']' ∧ items ≠ [] then return items
    else
      let first ← setEnd c
      if ← accept '-' then
        let d ← take
        if d = ']' then return items ++ [first, .range '-'.toNat '-'.toNat]
        else
          match range? first (← setEnd d) with
          | some r => setItems fuel (items ++ [r])
          | none => fail
      else setItems fuel (items ++ [first])

/-! ### Repetitions -/

/-- The number of rounds that no repetition may reach. -/
def countLimit : Nat := 4294967295

/-- The least and greatest number of rounds that a brace asks for; a brace that asks for none
stands for itself. The brace is taken. -/
def counts : Reader (Option (Nat × Option Nat)) := do
  let s ← get
  if s.rest.head? == some '\x7d' then return none
  else
    let lo ← takeWhile isPlainDigit s.rest.length
    let hi ← if ← accept ',' then takeWhile isPlainDigit s.rest.length else pure lo
    if ← accept '\x7d' then
      if countLimit ≤ number 10 lo || countLimit ≤ number 10 hi then throw .overflow
      else return some (number 10 lo, if hi.isEmpty then none else some (number 10 hi))
    else
      set s
      return none

/-- A pattern that may be repeated: no anchor, and no repetition. -/
def isRepeatable : Pattern → Bool
  | .anchor _ | .repeated .. => false
  | _ => true

/-- Repeats the last of the patterns read so far, which stand in reverse. -/
def repeatLast (least : Nat) (most : Option Nat) : List Pattern → Reader (List Pattern)
  | [] => fail
  | p :: ps => do
    if most.any (· < least) || !isRepeatable p then fail
    else
      if ← accept '?' then return .repeated least most .lazy p :: ps
      else if ← accept '+' then return .repeated least most .possessive p :: ps
      else return .repeated least most .greedy p :: ps

/-! ### Groups -/

/-- The characters up to an end mark, which is taken too. -/
def takeUntil (c : Char) : Reader String := do
  let s ← get
  match s.rest.dropWhile (· != c) with
  | [] => fail
  | _ :: rest =>
    set { s with rest := rest }
    return String.ofList (s.rest.takeWhile (· != c))

/-- A name starts with a letter and holds word characters. -/
def isName (s : String) : Bool :=
  match s.toList with
  | [] => false
  | c :: cs => Text.isWord c && !Text.isDigit c && cs.all Text.isWord

/-- Options without a change. -/
def unchanged : OptionChange := ⟨none, none, none, none⟩

/-- What letters ask for: options, and blanks and comments between the parts. -/
structure Letters where
  change : OptionChange
  spaced : Option Bool
  /-- The letters so far. -/
  letters : List Char

/-- No letters. -/
def Letters.empty : Letters := ⟨unchanged, none, []⟩

/-- One letter more, which switches something on or off. Which characters count can only be switched
on, and in one way. -/
def Letters.add? (ls : Letters) (on : Bool) (c : Char) : Option Letters :=
  let ls := { ls with letters := c :: ls.letters }
  let change := ls.change
  match c with
  | 'i' => some { ls with change := { change with ignoreCase := some on } }
  | 's' => some { ls with change := { change with dotAll := some on } }
  | 'm' => some { ls with change := { change with lines := some on } }
  | 'x' => some { ls with spaced := some on }
  | 'a' =>
    if on && !ls.letters.contains 'u' then
      some { ls with change := { change with ascii := some true } }
    else none
  | 'u' =>
    if on && !ls.letters.contains 'a' then
      some { ls with change := { change with ascii := some false } }
    else none
  | _ => none

/-- The letters that switch something on, of which there is one at least, and the mark behind them;
the first character is given. -/
def lettersOn : (fuel : Nat) → Letters → Char → Reader (Letters × Char)
  | 0, _, _ => fail
  | fuel + 1, ls, c =>
    match ls.add? true c with
    | none => fail
    | some ls => do
      let d ← take
      if d = ')' || d = '-' || d = ':' then return (ls, d) else lettersOn fuel ls d

/-- The letters that switch something off, up to a colon. None of them has switched it on. -/
def lettersOff : (fuel : Nat) → (on : List Char) → Letters → Reader Letters
  | 0, _, _ => fail
  | fuel + 1, on, ls => do
    let c ← take
    match ls.add? false c with
    | none => fail
    | some ls =>
      if on.contains c then fail
      else if ← accept ':' then return ls
      else lettersOff fuel on ls

/-- Opens a group, perhaps under a name. -/
def openGroup (name? : Option String) : Reader Nat := do
  let s ← get
  let names := match name? with
    | some name => (name, s.next) :: s.names
    | none => s.names
  set { s with next := s.next + 1, names := names }
  return s.next

/-- Closes a group. -/
def closeGroup (n : Nat) (p : Pattern) : Reader Unit :=
  modify fun s => { s with closed := (n, p.width s.closed) :: s.closed }

/-- The parenthesis that ends a group. -/
def closing : Reader Unit := do
  if ← accept ')' then return () else fail

/-- The number of the group that decides between two patterns, by its name or its number. -/
def deciding (name : String) : Reader Nat := do
  let s ← get
  if isName name then
    match s.names.lookup name with
    | some n => return n
    | none => fail
  else
    match Numeral.parse Text.digitValue? (Text.trim name.toList) with
    | none => fail
    | some m =>
      if m.isFractional || m.negative || m.coefficient = 0 then fail
      else
        set { s with asked := m.coefficient :: s.asked }
        return m.coefficient

mutual

/-- A pattern, up to its end or a parenthesis that closes it; blanks may stand between its parts, or
not. -/
def pattern (fuel : Nat) (top spaced : Bool) : Reader Pattern := do
  match fuel with
  | 0 => fail
  | fuel + 1 =>
    let first ← branch fuel top spaced []
    let s ← get
    let others ← branches fuel (if top then s.spaced else spaced)
    return if others.isEmpty then first else .choice (first :: others)

/-- The branches after the first. -/
def branches (fuel : Nat) (spaced : Bool) : Reader (List Pattern) := do
  match fuel with
  | 0 => fail
  | fuel + 1 =>
    if ← accept '|' then
      let p ← branch fuel false spaced []
      let ps ← branches fuel spaced
      return p :: ps
    else return []

/-- A branch; `done` holds its patterns so far in reverse. Options for the whole may stand only at
the start of the first branch. -/
def branch (fuel : Nat) (first spaced : Bool) (done : List Pattern) : Reader Pattern := do
  match fuel with
  | 0 => fail
  | fuel + 1 =>
    match ← peek with
    | none => return .sequence done.reverse
    | some '|' => return .sequence done.reverse
    | some ')' => return .sequence done.reverse
    | some _ =>
      let c ← take
      if spaced && (c = ' ' || '\t' ≤ c && c ≤ '\r') then branch fuel first spaced done
      else if spaced && c = '#' then
        modify fun s => { s with rest := (dropComment '\n' s.rest).getD [] }
        branch fuel first spaced done
      else if c = '*' then branch fuel first spaced (← repeatLast 0 none done)
      else if c = '+' then branch fuel first spaced (← repeatLast 1 none done)
      else if c = '?' then branch fuel first spaced (← repeatLast 0 (some 1) done)
      else if c = '\x7b' then
        match ← counts with
        | some (least, most) => branch fuel first spaced (← repeatLast least most done)
        | none => branch fuel first spaced (.char c :: done)
      else if c = '.' then branch fuel first spaced (.any :: done)
      else if c = '^' then branch fuel first spaced (.anchor .start :: done)
      else if c = '$' then branch fuel first spaced (.anchor .finish :: done)
      else if c = '\\' then branch fuel first spaced ((← escape) :: done)
      else if c = '[' then
        let negated ← accept '^'
        let items ← setItems ((← get).rest.length + 1) []
        branch fuel first spaced (.set negated items :: done)
      else if c = '(' then
        let p? ← parenthesis fuel (first && done.isEmpty) spaced
        let s ← get
        branch fuel first (spaced || first && s.spaced) (p?.toList ++ done)
      else branch fuel first spaced (.char c :: done)

/-- What stands in parentheses; comments, and options for the whole, leave no pattern. -/
def parenthesis (fuel : Nat) (atStart spaced : Bool) : Reader (Option Pattern) := do
  match fuel with
  | 0 => fail
  | fuel + 1 =>
    if ← accept '?' then
      let c ← take
      if c = ':' then return some (.cluster unchanged (← enclosed fuel spaced))
      else if c = '>' then return some (.atomic (← enclosed fuel spaced))
      else if c = '=' || c = '!' then return some (.ahead (c = '=') (← enclosed fuel spaced))
      else if c = '#' then
        let s ← get
        match dropComment ')' s.rest with
        | some rest =>
          set { s with rest := rest }
          return none
        | none => fail
      else if c = 'P' then
        if ← accept '<' then
          let name ← takeUntil '>'
          if isName name && ((← get).names.lookup name).isNone then
            return some (← capture fuel (some name) spaced)
          else fail
        else if ← accept '=' then
          let name ← takeUntil ')'
          match (← get).names.lookup name with
          | some n => return some (← earlier n)
          | none => fail
        else fail
      else if c = '<' then
        let d ← take
        if d = '=' || d = '!' then
          let outer := (← get).behind
          modify fun s => { s with behind := some (outer.getD s.next) }
          let p ← pattern fuel false spaced
          modify fun s => { s with behind := outer }
          closing
          match p.fixedWidth? (← get).closed with
          | some w => return some (.behind (d = '=') w p)
          | none => fail
        else fail
      else if c = '(' then
        let n ← deciding (← takeUntil ')')
        if !(← isOutside n) then fail
        else
          let yes ← branch fuel false spaced []
          let no ← if ← accept '|' then branch fuel false spaced [] else pure (.sequence [])
          closing
          return some (.conditional n yes no)
      else lettered fuel atStart spaced c
    else return some (← capture fuel none spaced)

/-- A group whose options come first, or the options for the whole. -/
def lettered (fuel : Nat) (atStart spaced : Bool) (c : Char) : Reader (Option Pattern) := do
  match fuel with
  | 0 => fail
  | fuel + 1 =>
    let s ← get
    let (ls, mark) ← if c = '-' then pure (Letters.empty, c)
      else lettersOn (s.rest.length + 1) .empty c
    if mark = ')' then
      if !atStart then fail
      else
        modify fun s => { s with
          options := { s.options.under ls.change with
            ascii := s.options.ascii || ls.letters.contains 'a' }
          spaced := ls.spaced.getD s.spaced
          unicode := s.unicode || ls.letters.contains 'u' }
        return none
    else
      let ls ← if mark = '-' then lettersOff (s.rest.length + 1) ls.letters ls else pure ls
      return some (.cluster ls.change (← enclosed fuel (ls.spaced.getD spaced)))

/-- A pattern and the parenthesis that ends it. -/
def enclosed (fuel : Nat) (spaced : Bool) : Reader Pattern := do
  match fuel with
  | 0 => fail
  | fuel + 1 =>
    let p ← pattern fuel false spaced
    closing
    return p

/-- A group that keeps what it matches. -/
def capture (fuel : Nat) (name? : Option String) (spaced : Bool) : Reader Pattern := do
  match fuel with
  | 0 => fail
  | fuel + 1 =>
    let n ← openGroup name?
    let p ← enclosed fuel spaced
    closeGroup n p
    return .group n p

end

/-- Reads a whole text as a pattern with its options. -/
def read (text : String) : Except Mishap (PatternOptions × Pattern) := do
  let cs := text.toList
  -- a backslash at the end has nothing to go with
  if (cs.reverse.takeWhile (· == '\\')).length % 2 = 1 then throw .pattern
  let source : Source := ⟨cs, 1, [], none, [], [], ⟨false, false, false, false⟩, false, false⟩
  let (p, s) ← (pattern (6 * cs.length + 6) true false).run source
  if s.options.ascii && s.unicode then throw .value
  else if !s.rest.isEmpty || s.asked.any (s.next ≤ ·) then throw .pattern
  else return (s.options, p)

end PatternText

/-- Reads a pattern; it tells in which texts the pattern matches anywhere. -/
def Pattern.search (pattern : String) : Except Mishap (String → Bool) :=
  (PatternText.read pattern).map fun (o, p) => p.occursIn o

end CallContracts

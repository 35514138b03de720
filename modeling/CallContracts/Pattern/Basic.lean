import CallContracts.Text.Blank
import CallContracts.Text.Digit
import CallContracts.Text.Fold
import CallContracts.Text.Word

/-!
Patterns of texts, and where they match.

A pattern is matched from a *cursor*: the characters before it, the characters after it and the
groups matched so far. `Pattern.run` passes each way to match on to a continuation, in order of
preference, until one succeeds; `Pattern.occursIn` asks for a match anywhere in a text.

Main definitions: `Pattern`, `Cursor`, `Pattern.run`, `Pattern.occursIn`.
-/

namespace CallContracts

/-! ### Patterns -/

/-- A class of characters that has a letter of its own. -/
inductive CharacterClass where
  | digit
  | blank
  | word
  deriving Repr, DecidableEq

/-- One item of a set of characters. -/
inductive SetItem where
  /-- The characters with numbers in a range. -/
  | range (first last : Nat)
  | member (k : CharacterClass) (negated : Bool)
  deriving Repr, DecidableEq

/-- A place that a pattern can ask for. -/
inductive Anchor where
  /-- The start of the text, or of a line if lines count. -/
  | start
  /-- The end of the text, also before a final line feed, or of a line if lines count. -/
  | finish
  | textStart
  | textEnd
  /-- Between a word character and another. -/
  | boundary
  | notBoundary
  deriving Repr, DecidableEq

/-- How a repetition chooses the number of its rounds. -/
inductive Preference where
  /-- As many as possible. -/
  | greedy
  /-- As few as possible. -/
  | lazy
  /-- As many as possible, and no others. -/
  | possessive
  deriving Repr, DecidableEq

/-- How a pattern, or a part of one, is matched. -/
structure PatternOptions where
  ignoreCase : Bool
  /-- The dot takes a line feed too. -/
  dotAll : Bool
  /-- Anchors see the ends of lines. -/
  lines : Bool
  /-- Letters, digits and blanks are those of ASCII alone. -/
  ascii : Bool
  deriving Repr, DecidableEq

/-- Options for a part of a pattern, as far as they are not those around it. -/
structure OptionChange where
  ignoreCase : Option Bool
  dotAll : Option Bool
  lines : Option Bool
  ascii : Option Bool
  deriving Repr, DecidableEq

/-- Options with a change. -/
def PatternOptions.under (o : PatternOptions) (change : OptionChange) : PatternOptions where
  ignoreCase := change.ignoreCase.getD o.ignoreCase
  dotAll := change.dotAll.getD o.dotAll
  lines := change.lines.getD o.lines
  ascii := change.ascii.getD o.ascii

/-- A pattern of texts. -/
inductive Pattern where
  | char (c : Char)
  | any
  | set (negated : Bool) (items : List SetItem)
  | anchor (a : Anchor)
  /-- One after the other. -/
  | sequence (ps : List Pattern)
  /-- The first that matches. -/
  | choice (ps : List Pattern)
  /-- Parentheses that keep nothing, perhaps with options of their own. -/
  | cluster (change : OptionChange) (p : Pattern)
  /-- Matches in the way it prefers, and in no other. -/
  | atomic (p : Pattern)
  /-- One of two patterns, the first if a group has kept something. -/
  | conditional (n : Nat) (yes no : Pattern)
  /-- Parentheses that keep what they matched. -/
  | group (n : Nat) (p : Pattern)
  /-- What a group kept, once more. -/
  | again (n : Nat)
  /-- Matches, or does not, from here on, and takes nothing. -/
  | ahead (positive : Bool) (p : Pattern)
  /-- Matches, or does not, the given number of characters before. -/
  | behind (positive : Bool) (width : Nat) (p : Pattern)
  | repeated (least : Nat) (most : Option Nat) (preference : Preference) (p : Pattern)
  deriving Repr

/-! ### Cursors -/

/-- A place in a text, with the groups matched so far. -/
structure Cursor where
  /-- The characters before, the nearest first. -/
  before : List Char
  after : List Char
  groups : List (Nat × List Char)
  deriving Repr

namespace Cursor

/-- The start of a text. -/
def ofText (cs : List Char) : Cursor := ⟨[], cs, []⟩

/-- The number of characters before the cursor. -/
def position (c : Cursor) : Nat := c.before.length

/-- The next character and the cursor behind it. -/
def next? (c : Cursor) : Option (Char × Cursor) :=
  match c.after with
  | [] => none
  | x :: rest => some (x, { c with before := x :: c.before, after := rest })

/-- The cursor a number of characters earlier. -/
def back? : Cursor → Nat → Option Cursor
  | c, 0 => some c
  | c, n + 1 =>
    match c.before with
    | [] => none
    | x :: rest => back? { c with before := rest, after := x :: c.after } n

end Cursor

/-! ### Tests of places and characters -/

/-- The lower-case form of a letter of ASCII. -/
def asciiLower (c : Char) : Char := if 'A' ≤ c && c ≤ 'Z' then Char.ofNat (c.toNat + 32) else c

/-- Membership in a class of characters. -/
def CharacterClass.holds (o : PatternOptions) : CharacterClass → Char → Bool
  | .digit, c => if o.ascii then '0' ≤ c && c ≤ '9' else Text.isDigit c
  | .blank, c => if o.ascii then c == ' ' || '\t' ≤ c && c ≤ '\r' else Text.isBlank c
  | .word, c =>
    if o.ascii then
      c == '_' || '0' ≤ c && c ≤ '9' || 'a' ≤ asciiLower c && asciiLower c ≤ 'z'
    else Text.isWord c

/-- Whether a word character stands next to a cursor on exactly one side. -/
def Cursor.isAtBoundary (o : PatternOptions) (c : Cursor) : Bool :=
  let isWord := CharacterClass.word.holds o
  c.before.head?.any isWord != c.after.head?.any isWord

/-- Whether an anchor holds at a cursor. A text without characters has no boundaries of either
kind. -/
def Anchor.holds (o : PatternOptions) (c : Cursor) : Anchor → Bool
  | .start => c.before.isEmpty || o.lines && c.before.head? == some '\n'
  | .finish =>
    c.after.isEmpty || c.after == ['\n'] || o.lines && c.after.head? == some '\n'
  | .textStart => c.before.isEmpty
  | .textEnd => c.after.isEmpty
  | .boundary => c.isAtBoundary o
  | .notBoundary => !(c.before.isEmpty && c.after.isEmpty) && !c.isAtBoundary o

/-- The characters that differ from one in case alone. -/
def PatternOptions.forms (o : PatternOptions) (c : Char) : List Char :=
  if o.ascii then
    if 'a' ≤ c && c ≤ 'z' then [c, Char.ofNat (c.toNat - 32)] else [c, asciiLower c]
  else Text.forms c

/-- Whether an item of a set takes a character. -/
def SetItem.takes (o : PatternOptions) (c : Char) : SetItem → Bool
  | .range first last =>
    let within (x : Char) : Bool := first ≤ x.toNat && x.toNat ≤ last
    within c || o.ignoreCase && (o.forms c).any within
  | .member k negated => k.holds o c != negated

/-! ### Matching -/

namespace Pattern

/-- Whether two characters are the same to a pattern. -/
def sameChar (o : PatternOptions) (a b : Char) : Bool :=
  a == b || o.ignoreCase &&
    if o.ascii then asciiLower a == asciiLower b else Text.isSameLetter a b

/-- Whether a character repeats one that a group kept. -/
def isRepeat (o : PatternOptions) (a b : Char) : Bool :=
  a == b || o.ignoreCase &&
    if o.ascii then asciiLower a == asciiLower b else Text.toLower a == Text.toLower b

/-- Takes one character that a test accepts. -/
def takeChar (test : Char → Bool) (c : Cursor) (k : Cursor → Option Cursor) : Option Cursor :=
  match c.next? with
  | some (x, c') => if test x then k c' else none
  | none => none

/-- Takes the characters that a group kept once more. -/
def takeRun (o : PatternOptions) : List Char → Cursor → (Cursor → Option Cursor) → Option Cursor
  | [], c, k => k c
  | x :: xs, c, k => takeChar (isRepeat o x) c fun c' => takeRun o xs c' k

/-- A step of a match: it passes the cursors that it can reach on, until one is accepted. -/
abbrev Step := Cursor → (Cursor → Option Cursor) → Option Cursor

/-- Rounds of a repetition beyond the required ones: `rounds` bounds their number, and a round
that took nothing is the last. -/
def optionalRounds (step : Step) (preferMore : Bool) : Nat → Option Nat → Step
  | 0, _, c, k => k c
  | rounds + 1, last, c, k =>
    let more : Unit → Option Cursor := fun _ =>
      if last == some c.position then none
      else step c fun c' => optionalRounds step preferMore rounds (some c.position) c' k
    if preferMore then
      match more () with
      | some r => some r
      | none => k c
    else
      match k c with
      | some r => some r
      | none => more ()

/-- The required rounds of a repetition, then the others. -/
def requiredRounds (step rest : Step) : Nat → Step
  | 0, c, k => rest c k
  | n + 1, c, k => step c fun c' => requiredRounds step rest n c' k

/-- A repetition. Optional rounds are bounded by their greatest number and by the characters that
are left. -/
def rounds (step : Step) (least : Nat) (most : Option Nat) (preferMore : Bool) : Step :=
  fun c k =>
    let rest : Step := fun c k =>
      let left := c.after.length + 1
      let bound := match most with
        | some m => min (m - least) left
        | none => left
      optionalRounds step preferMore bound none c k
    requiredRounds step rest least c k

mutual

/-- The ways in which a pattern matches from a cursor. -/
def run (o : PatternOptions) : Pattern → Step
  | .char x, c, k => takeChar (sameChar o x) c k
  | .any, c, k => takeChar (fun x => o.dotAll || x != '\n') c k
  | .set negated items, c, k =>
    takeChar (fun x => (items.any (SetItem.takes o x)) != negated) c k
  | .anchor a, c, k => if a.holds o c then k c else none
  | .sequence ps, c, k => runAll o ps c k
  | .choice ps, c, k => runAny o ps c k
  | .cluster change p, c, k => run (o.under change) p c k
  | .atomic p, c, k =>
    match run o p c some with
    | some c' => k c'
    | none => none
  | .conditional n yes no, c, k =>
    if (c.groups.lookup n).isSome then run o yes c k else run o no c k
  | .group n p, c, k =>
    run o p c fun c' =>
      let taken := (c'.before.take (c'.position - c.position)).reverse
      k { c' with groups := (n, taken) :: c'.groups }
  | .again n, c, k =>
    match c.groups.lookup n with
    | some cs => takeRun o cs c k
    | none => none
  | .ahead positive p, c, k =>
    match run o p c some with
    | some c' => if positive then k { c with groups := c'.groups } else none
    | none => if positive then none else k c
  | .behind positive width p, c, k =>
    match (c.back? width).bind fun b => run o p b some with
    | some c' => if positive then k { c with groups := c'.groups } else none
    | none => if positive then none else k c
  | .repeated least most preference p, c, k =>
    match preference with
    | .greedy => rounds (run o p) least most true c k
    | .lazy => rounds (run o p) least most false c k
    | .possessive =>
      match rounds (run o p) least most true c some with
      | some c' => k c'
      | none => none

/-- The ways in which patterns match one after the other. -/
def runAll (o : PatternOptions) : List Pattern → Step
  | [], c, k => k c
  | p :: ps, c, k => run o p c fun c' => runAll o ps c' k

/-- The ways in which one of several patterns matches. -/
def runAny (o : PatternOptions) : List Pattern → Step
  | [], _, _ => none
  | p :: ps, c, k =>
    match run o p c k with
    | some r => some r
    | none => runAny o ps c k

end

/-- Whether a pattern matches at a cursor or somewhere behind it; `left` characters follow. -/
def occursFrom (o : PatternOptions) (p : Pattern) : (left : Nat) → Cursor → Bool
  | 0, c => (run o p c some).isSome
  | n + 1, c =>
    (run o p c some).isSome ||
      match c.next? with
      | some (_, c') => occursFrom o p n c'
      | none => false

/-- Whether a pattern matches anywhere in a text. -/
def occursIn (o : PatternOptions) (p : Pattern) (text : String) : Bool :=
  occursFrom o p text.toList.length (.ofText text.toList)

end Pattern

end CallContracts

import Curator.Yaml.Cursor
/-!
The text of YAML scalars: plain, quoted and block. Each reader starts at the first character of the
scalar and gives its text and the place after it; none when the scalar is malformed. Line breaks
inside a scalar are folded: a single one reads as a space, more of them as one less.
-/

set_option autoImplicit false

namespace Curator.Yaml

structure Gap where
  blanks : List Char
  breaks : List Char
  escaped : Bool

namespace Gap

def none : Gap := ⟨[], [], false⟩

def hasBreak (gap : Gap) : Bool := gap.escaped || !gap.breaks.isEmpty

def text (gap : Gap) : List Char :=
  if gap.escaped then gap.breaks
  else match gap.breaks with
    | [] => gap.blanks
    | ['\n'] => [' ']
    | '\n' :: more => more
    | breaks => breaks

end Gap

def readGap (margin : Nat) : Nat → Gap → Cursor → Option (Gap × Cursor)
  | 0, gap, cursor => some (gap, cursor)
  | fuel + 1, gap, cursor =>
      match cursor.peek with
      | some c =>
          if isBlank c then
            if gap.hasBreak then
              if c = '\t' ∧ cursor.column < margin then Option.none
              else readGap margin fuel gap cursor.next
            else readGap margin fuel { gap with blanks := gap.blanks ++ [c] } cursor.next
          else if isBreak c then
            let (read, after) := cursor.nextLine
            readGap margin fuel { gap with breaks := gap.breaks ++ read.toList } after
          else some (gap, cursor)
      | Option.none => some (gap, cursor)

/-! ## Plain scalars -/

def isFlowMark (c : Char) : Bool := c = ',' || c = '[' || c = ']' || c = '{' || c = '}'

-- The characters of a plain scalar up to the next gap or to the end of the scalar. Inside a flow
-- collection a colon may not stand right before a flow mark or a question mark.
def plainWord (inFlow : Bool) : Nat → Cursor → Option (List Char × Cursor)
  | 0, cursor => some ([], cursor)
  | fuel + 1, cursor =>
      match cursor.peek with
      | some c =>
          if isBlank c || isBreak c then some ([], cursor)
          else if inFlow && c = ':' && (cursor.peekAt 1).any (fun d => isFlowMark d || d = '?') then
            Option.none
          else if (c = ':' && cursor.gapAt 1) || (inFlow && isFlowMark c) then some ([], cursor)
          else (plainWord inFlow fuel cursor.next).map fun (word, after) => (c :: word, after)
      | Option.none => some ([], cursor)

def plainWords (inFlow : Bool) (margin : Nat) : Nat → Gap → Cursor →
    Option (List Char × Cursor × Bool)
  | 0, _, _ => Option.none
  | fuel + 1, gap, cursor =>
      if cursor.atAnyDocumentMark || cursor.isAt '#' then some ([], cursor, gap.hasBreak)
      else
        match plainWord inFlow (cursor.rest.length + 1) cursor with
        | Option.none => Option.none
        | some (word, after) =>
            let before := if word.isEmpty then [] else gap.text
            if !(after.blankAt 0 || after.breakAt 0) then
              some (before ++ word, after, word.isEmpty && gap.hasBreak)
            else
              match readGap margin (after.rest.length + 1) Gap.none after with
              | Option.none => Option.none
              | some (between, here) =>
                  if !inFlow && here.column < margin then
                    some (before ++ word, here, between.hasBreak)
                  else
                    (plainWords inFlow margin fuel between here).map fun (text, place, broken) =>
                      (before ++ word ++ text, place, broken)

/-! ## Quoted scalars -/

def hexDigit? (c : Char) : Option Nat :=
  if '0' ≤ c ∧ c ≤ '9' then some (c.toNat - '0'.toNat)
  else if 'a' ≤ c ∧ c ≤ 'f' then some (c.toNat - 'a'.toNat + 10)
  else if 'A' ≤ c ∧ c ≤ 'F' then some (c.toNat - 'A'.toNat + 10)
  else Option.none

def hexNumber? (digits : List Char) (count : Nat) : Option Nat :=
  if digits.length = count then
    digits.foldlM (fun total c => (hexDigit? c).map (total * 16 + ·)) 0
  else Option.none

def escapedChar? : Char → Option Char
  | '0' => some '\x00'
  | 'a' => some '\x07'
  | 'b' => some '\x08'
  | 't' | '\t' => some '\t'
  | 'n' => some '\n'
  | 'v' => some '\x0b'
  | 'f' => some '\x0c'
  | 'r' => some '\r'
  | 'e' => some '\x1b'
  | ' ' => some ' '
  | '"' => some '"'
  | '/' => some '/'
  | '\\' => some '\\'
  | 'N' => some '\u0085'
  | '_' => some '\u00a0'
  | 'L' => some '\u2028'
  | 'P' => some '\u2029'
  | _ => Option.none

def escapeLength? : Char → Option Nat
  | 'x' => some 2
  | 'u' => some 4
  | 'U' => some 8
  | _ => Option.none

def readEscape (cursor : Cursor) : Option (Char × Cursor) :=
  match cursor.peekAt 1 with
  | Option.none => Option.none
  | some c =>
      match escapeLength? c with
      | some count =>
          match hexNumber? ((cursor.rest.drop 2).take count) count with
          | some code =>
              if code.isValidChar then some (Char.ofNat code, cursor.skip (count + 2))
              else Option.none
          | Option.none => Option.none
      | Option.none => (escapedChar? c).map fun plain => (plain, cursor.skip 2)

def quotedWord (quote : Char) : Nat → Cursor → Option (List Char × Cursor × Bool)
  | 0, _ => Option.none
  | fuel + 1, cursor =>
      match cursor.peek with
      | Option.none => some ([], cursor, false)
      | some c =>
          if isBlank c || isBreak c then some ([], cursor, false)
          else if c = quote then
            if quote = '\'' ∧ cursor.peekAt 1 = some '\'' then
              (quotedWord quote fuel (cursor.skip 2)).map fun (word, rest) => ('\'' :: word, rest)
            else some ([], cursor, false)
          else if quote = '"' ∧ c = '\\' then
            if cursor.breakAt 1 then some ([], cursor.next.nextLine.2, true)
            else match readEscape cursor with
              | Option.none => Option.none
              | some (plain, after) =>
                  (quotedWord quote fuel after).map fun (word, rest) => (plain :: word, rest)
          else (quotedWord quote fuel cursor.next).map fun (word, rest) => (c :: word, rest)

def quotedWords (quote : Char) : Nat → Cursor → Option (List Char × Cursor)
  | 0, _ => Option.none
  | fuel + 1, cursor =>
      if cursor.atAnyDocumentMark || cursor.atEnd then Option.none
      else
        match quotedWord quote (cursor.rest.length + 1) cursor with
        | Option.none => Option.none
        | some (word, after, escaped) =>
            if after.isAt quote then some (word, after.next)
            else
              match readGap 0 (after.rest.length + 1) ⟨[], [], escaped⟩ after with
              | Option.none => Option.none
              | some (gap, here) =>
                  (quotedWords quote fuel here).map fun (text, place) =>
                    (word ++ gap.text ++ text, place)

def readQuoted (quote : Char) (cursor : Cursor) : Option (List Char × Cursor) :=
  quotedWords quote (cursor.rest.length + 1) cursor.next

/-! ## Block scalars -/

inductive Chomp where
  | strip
  | clip
  | keep
deriving DecidableEq, Repr

def chomp? : Option Char → Option Chomp
  | some '+' => some .keep
  | some '-' => some .strip
  | _ => Option.none

def readBlockMarks (cursor : Cursor) : Option (Chomp × Option Nat × Cursor) :=
  let depthAt (cursor : Cursor) : Option (Option Nat × Cursor) :=
    match cursor.peek with
    | some c =>
        if c = '0' then Option.none
        else if c.isDigit then some (some (c.toNat - '0'.toNat), cursor.next)
        else some (Option.none, cursor)
    | Option.none => some (Option.none, cursor)
  match chomp? cursor.peek with
  | some chomp => (depthAt cursor.next).map fun (depth, after) => (chomp, depth, after)
  | Option.none =>
      (depthAt cursor).map fun (depth, after) =>
        match depth, chomp? after.peek with
        | some _, some chomp => (chomp, depth, after.next)
        | _, _ => (.clip, depth, after)

def blockBreaks (depth : Option Nat) : Nat → Nat → List Char → Cursor →
    Option (List Char × Nat × Cursor)
  | 0, _, _, _ => Option.none
  | fuel + 1, widest, breaks, cursor =>
      let within (column : Nat) : Bool := depth.all (column < ·)
      let spaces := (cursor.rest.takeWhile (· = ' ')).length
      let count := match depth with
        | some depth => min spaces (depth - cursor.column)
        | Option.none => spaces
      let here := cursor.skip count
      let widest := max widest here.column
      if within here.column && here.isAt '\t' then Option.none
      else if here.breakAt 0 then
        let (read, after) := here.nextLine
        blockBreaks depth fuel widest (breaks ++ read.toList) after
      else some (breaks, widest, here)

-- The lines of a block scalar. `held` is the break that ended the line before, `breaks` the
-- empty lines since, and `leadingBlank` says whether the line before began with a blank.
def blockLines (literal : Bool) (chomp : Chomp) (depth : Nat) : Nat → List Char → List Char → Bool →
    Cursor → Option (List Char × Cursor)
  | 0, _, _, _, _ => Option.none
  | fuel + 1, held, breaks, leadingBlank, cursor =>
      if cursor.column = depth ∧ !cursor.atEnd then
        let blank := cursor.blankAt 0
        let before :=
          if !literal && held == ['\n'] && !leadingBlank && !blank then
            if breaks.isEmpty then [' '] else breaks
          else held ++ breaks
        let (line, after) := cursor.span fun c => !isBreak c
        let (read, below) := after.nextLine
        match blockBreaks (some depth) (below.rest.length + 1) 0 [] below with
        | Option.none => Option.none
        | some (more, _, here) =>
            (blockLines literal chomp depth fuel read.toList more blank here).map
              fun (text, place) => (before ++ line ++ text, place)
      else
        match chomp with
        | .strip => some ([], cursor)
        | .clip => some (held, cursor)
        | .keep => some (held ++ breaks, cursor)

def readBlock (literal : Bool) (parent : Int) (cursor : Cursor) : Option (List Char × Cursor) := do
  let (chomp, increment, afterMarks) ← readBlockMarks cursor.next
  let (_, afterBlanks) := afterMarks.span isBlank
  let (_, lineEnd) :=
    if afterBlanks.isAt '#' then afterBlanks.span fun c => !isBreak c else ([], afterBlanks)
  if !(lineEnd.atEnd || lineEnd.breakAt 0) then Option.none
  let (_, below) := lineEnd.nextLine
  let declared := increment.map fun increment =>
    if 0 ≤ parent then parent.toNat + increment else increment
  let (breaks, widest, here) ← blockBreaks declared (below.rest.length + 1) 0 [] below
  let depth := declared.getD (max (max widest (parent + 1).toNat) 1)
  blockLines literal chomp depth (here.rest.length + 2) [] breaks false here

end Curator.Yaml

import Curator.Yaml.Scalar
/-!
The tokens of a YAML text. Indentation becomes explicit: a token opens each block collection and
one closes it. A key that is recognised only by the colon after it gets its key token where it
began, which has to be on the same line and at most 1024 characters back.
-/

set_option autoImplicit false

namespace Curator.Yaml

inductive Style where
  | plain
  | quoted
  | literal
  | folded
deriving DecidableEq, Repr

inductive Token where
  | streamEnd
  | versionDirective (major minor : Nat)
  | tagDirective (handle stem : String)
  | documentStart
  | documentEnd
  | blockSequenceStart
  | blockMappingStart
  | blockEnd
  | flowSequenceStart
  | flowSequenceEnd
  | flowMappingStart
  | flowMappingEnd
  | blockEntry
  | flowEntry
  | key
  | value
  | aliasOf (name : String)
  | anchor (name : String)
  | tag (handle suffix : String)
  | scalar (text : String) (style : Style)
deriving DecidableEq, Repr

structure Candidate where
  required : Bool
  number : Nat
  index : Nat
  line : Nat
  column : Nat
deriving Repr

structure Scanner where
  cursor : Cursor
  -- Column of the innermost block collection, -1 outside of any.
  indent : Int
  outerIndents : List Int
  keyAllowed : Bool
  candidate : Option Candidate
  outerCandidates : List (Option Candidate)
  tokens : Array Token

namespace Scanner

def inFlow (scanner : Scanner) : Bool := !scanner.outerCandidates.isEmpty

def emit (token : Token) (scanner : Scanner) : Scanner :=
  { scanner with tokens := scanner.tokens.push token }

def moveTo (cursor : Cursor) (scanner : Scanner) : Scanner := { scanner with cursor }

def allowKey (allowed : Bool) (scanner : Scanner) : Scanner :=
  { scanner with keyAllowed := allowed }

def dropCandidate (scanner : Scanner) : Option Scanner :=
  match scanner.candidate with
  | some candidate =>
      if candidate.required then none else some { scanner with candidate := none }
  | none => some scanner

def markCandidate (scanner : Scanner) : Option Scanner :=
  if scanner.keyAllowed then
    scanner.dropCandidate.map fun scanner =>
      { scanner with candidate := some {
          required := !scanner.inFlow && scanner.indent == scanner.cursor.column
          number := scanner.tokens.size
          index := scanner.cursor.index
          line := scanner.cursor.line
          column := scanner.cursor.column } }
  else some scanner

def isStale (cursor : Cursor) (candidate : Candidate) : Bool :=
  candidate.line < cursor.line || candidate.index + 1024 < cursor.index

def dropIfStale (cursor : Cursor) : Option Candidate → Option (Option Candidate)
  | some candidate =>
      if isStale cursor candidate then if candidate.required then none else some none
      else some (some candidate)
  | none => some none

def dropStale (scanner : Scanner) : Option Scanner := do
  let candidate ← dropIfStale scanner.cursor scanner.candidate
  let outerCandidates ← scanner.outerCandidates.mapM (dropIfStale scanner.cursor)
  return { scanner with candidate, outerCandidates }

def insertAt (number : Nat) (token : Token) (scanner : Scanner) : Scanner :=
  let before := scanner.tokens.extract 0 number
  let after := scanner.tokens.extract number scanner.tokens.size
  { scanner with tokens := before.push token ++ after }

def deepen (column : Nat) (number : Nat) (token : Token) (scanner : Scanner) : Scanner :=
  if scanner.inFlow || column ≤ scanner.indent then scanner
  else insertAt number token
    { scanner with indent := column, outerIndents := scanner.indent :: scanner.outerIndents }

def closeTo (column : Int) (outer : List Int) (scanner : Scanner) : Scanner :=
  if column < scanner.indent then
    match outer with
    | [] => { scanner with indent := -1, outerIndents := [] } |>.emit .blockEnd
    | indent :: rest =>
        closeTo column rest ({ scanner with indent, outerIndents := rest } |>.emit .blockEnd)
  else scanner

def shallow (column : Int) (scanner : Scanner) : Scanner :=
  if scanner.inFlow then scanner else closeTo column scanner.outerIndents scanner

-- Past blanks, comments and line breaks to the next token. A tab counts as a blank only where no
-- key may stand.
def toNextToken : Nat → Scanner → Scanner
  | 0, scanner => scanner
  | fuel + 1, scanner =>
      let blank (c : Char) : Bool := c = ' ' || ((scanner.inFlow || !scanner.keyAllowed) && c = '\t')
      let (_, afterBlanks) := scanner.cursor.span blank
      let (_, here) :=
        if afterBlanks.isAt '#' then afterBlanks.span fun c => !isBreak c else ([], afterBlanks)
      if here.breakAt 0 then
        let below := scanner.moveTo here.nextLine.2
        toNextToken fuel (if scanner.inFlow then below else below.allowKey true)
      else scanner.moveTo here

/-! ## One token -/

def fetchStreamEnd (scanner : Scanner) : Option Scanner := do
  let scanner ← (scanner.shallow (-1)).dropCandidate
  return (scanner.allowKey false).emit .streamEnd

def fetchDocumentMark (token : Token) (scanner : Scanner) : Option Scanner := do
  let scanner ← (scanner.shallow (-1)).dropCandidate
  return ((scanner.allowKey false).emit token).moveTo (scanner.cursor.skip 3)

def lineRest (cursor : Cursor) : Option Cursor :=
  let (_, afterBlanks) := cursor.span isBlank
  let (_, here) :=
    if afterBlanks.isAt '#' then afterBlanks.span fun c => !isBreak c else ([], afterBlanks)
  if here.atEnd || here.breakAt 0 then some here.nextLine.2 else none

def readVersion (cursor : Cursor) : Option (Token × Cursor) := do
  let (major, point) := (cursor.span isBlank).2.span Char.isDigit
  if !point.isAt '.' || major.isEmpty || 9 < major.length then none
  let (minor, after) := point.next.span Char.isDigit
  if minor.isEmpty || 9 < minor.length then none
  let number (digits : List Char) : Nat :=
    digits.foldl (fun total c => total * 10 + (c.toNat - '0'.toNat)) 0
  return (.versionDirective (number major) (number minor), after)

def readHandle (closed : Bool) (cursor : Cursor) : Option (List Char × Cursor) :=
  if cursor.isAt '!' then
    let (word, after) := cursor.next.span isWord
    if after.isAt '!' then some ('!' :: word ++ ['!'], after.next)
    else if closed && !word.isEmpty then none
    else some ('!' :: word, after)
  else none

def isUriChar (verbatim : Bool) (c : Char) : Bool :=
  isWord c || ";/?:@&=+$.!~*'()%".toList.contains c
    || (verbatim && (c = ',' || c = '[' || c = ']'))

def unescapeUri : List Char → Option (List Char)
  | [] => some []
  | '%' :: a :: b :: rest =>
      match hexNumber? [a, b] 2 with
      | some code => if code < 128 then (unescapeUri rest).map (Char.ofNat code :: ·) else none
      | none => none
  | '%' :: _ => none
  | c :: rest => (unescapeUri rest).map (c :: ·)

def readTagDirective (cursor : Cursor) : Option (Token × Cursor) := do
  let (handle, afterHandle) ← readHandle true (cursor.span isBlank).2
  if !afterHandle.blankAt 0 then none
  let (stem, after) := (afterHandle.span isBlank).2.span (isUriChar true)
  if stem.isEmpty || !after.gapAt 0 then none
  return (.tagDirective (String.ofList handle) (String.ofList (← unescapeUri stem)), after)

def fetchDirective (scanner : Scanner) : Option Scanner := do
  let scanner ← (scanner.shallow (-1)).dropCandidate
  let (name, after) := scanner.cursor.next.span isWord
  if !after.gapAt 0 then none
  let (token, place) ←
    if name = "YAML".toList then readVersion after
    else if name = "TAG".toList then readTagDirective after
    else none
  return ((scanner.allowKey false).emit token).moveTo (← lineRest place)

def fetchFlowStart (token : Token) (scanner : Scanner) : Option Scanner := do
  let scanner ← scanner.markCandidate
  let scanner := { scanner with
    candidate := none, outerCandidates := scanner.candidate :: scanner.outerCandidates }
  return ((scanner.allowKey true).emit token).moveTo scanner.cursor.next

def fetchFlowEnd (token : Token) (scanner : Scanner) : Option Scanner := do
  let scanner ← scanner.dropCandidate
  let scanner := match scanner.outerCandidates with
    | candidate :: outerCandidates => { scanner with candidate, outerCandidates }
    | [] => scanner
  return ((scanner.allowKey false).emit token).moveTo scanner.cursor.next

def fetchFlowEntry (scanner : Scanner) : Option Scanner := do
  let scanner ← scanner.dropCandidate
  return ((scanner.allowKey true).emit .flowEntry).moveTo scanner.cursor.next

def fetchBlockEntry (scanner : Scanner) : Option Scanner := do
  if !scanner.inFlow && !scanner.keyAllowed then none
  let scanner := scanner.deepen scanner.cursor.column scanner.tokens.size .blockSequenceStart
  let scanner ← scanner.dropCandidate
  return ((scanner.allowKey true).emit .blockEntry).moveTo scanner.cursor.next

def fetchKey (scanner : Scanner) : Option Scanner := do
  if !scanner.inFlow && !scanner.keyAllowed then none
  let scanner := scanner.deepen scanner.cursor.column scanner.tokens.size .blockMappingStart
  let scanner ← scanner.dropCandidate
  return ((scanner.allowKey (!scanner.inFlow)).emit .key).moveTo scanner.cursor.next

def fetchValue (scanner : Scanner) : Option Scanner := do
  let scanner ← match scanner.candidate with
    | some candidate =>
        let scanner := scanner.insertAt candidate.number .key
        let scanner := scanner.deepen candidate.column candidate.number .blockMappingStart
        some ({ scanner with candidate := none }.allowKey false)
    | none =>
        if scanner.inFlow then some (scanner.allowKey false)
        else if !scanner.keyAllowed then none
        else
          some <| allowKey true <|
            scanner.deepen scanner.cursor.column scanner.tokens.size .blockMappingStart
  return (scanner.emit .value).moveTo scanner.cursor.next

def nameEnds : List Char := ['?', ':', ',', ']', '}', '%', '@', '\x60']

def readName (cursor : Cursor) : Option (String × Cursor) :=
  let (name, after) := cursor.span isWord
  if name.isEmpty || !(after.gapAt 0 || (after.peekAt 0).any nameEnds.contains) then none
  else some (String.ofList name, after)

def fetchName (token : String → Token) (scanner : Scanner) : Option Scanner := do
  let scanner ← scanner.markCandidate
  let (name, after) ← readName scanner.cursor.next
  return ((scanner.allowKey false).emit (token name)).moveTo after

def readTag (cursor : Cursor) : Option (Token × Cursor) :=
  if cursor.peekAt 1 = some '<' then do
    let (uri, after) := (cursor.skip 2).span (isUriChar true)
    if uri.isEmpty || !after.isAt '>' then none
    return (.tag "" (String.ofList (← unescapeUri uri)), after.next)
  else do
    let (handle, afterHandle) ← readHandle false cursor
    if 1 < handle.length && handle.getLast? = some '!' then
      let (suffix, after) := afterHandle.span (isUriChar false)
      if suffix.isEmpty then none
      return (.tag (String.ofList handle) (String.ofList (← unescapeUri suffix)), after)
    else
      let (more, after) := afterHandle.span (isUriChar false)
      let suffix := handle.tail ++ more
      if suffix.isEmpty then return (.tag "" "!", after)
      return (.tag "!" (String.ofList (← unescapeUri suffix)), after)

def fetchTag (scanner : Scanner) : Option Scanner := do
  let scanner ← scanner.markCandidate
  let (token, after) ← readTag scanner.cursor
  if !(after.gapAt 0 || (scanner.inFlow && after.isAt ',')) then none
  return ((scanner.allowKey false).emit token).moveTo after

def fetchBlockScalar (literal : Bool) (scanner : Scanner) : Option Scanner := do
  let scanner ← scanner.dropCandidate
  let (text, after) ← readBlock literal scanner.indent scanner.cursor
  let token := Token.scalar (String.ofList text) (if literal then .literal else .folded)
  return ((scanner.allowKey true).emit token).moveTo after

def fetchQuoted (quote : Char) (scanner : Scanner) : Option Scanner := do
  let scanner ← scanner.markCandidate
  let (text, after) ← readQuoted quote scanner.cursor
  return ((scanner.allowKey false).emit (.scalar (String.ofList text) .quoted)).moveTo after

def fetchPlain (scanner : Scanner) : Option Scanner := do
  let scanner ← scanner.markCandidate
  let (text, after, broken) ← plainWords scanner.inFlow (scanner.indent + 1).toNat
    (scanner.cursor.rest.length + 1) Gap.none scanner.cursor
  return ((scanner.allowKey broken).emit (.scalar (String.ofList text) .plain)).moveTo after

def indicators : List Char :=
  ['-', '?', ':', ',', '[', ']', '{', '}', '#', '&', '*', '!', '|', '>', '\'', '"', '%', '@', '\x60']

def beginsPlain (scanner : Scanner) (c : Char) : Bool :=
  let cursor := scanner.cursor
  !(isBlank c || isBreak c || indicators.contains c)
    || (c = '-' && !cursor.blankAt 1)
    || (!scanner.inFlow && (c = '?' || c = ':') && !cursor.gapAt 1)

def fetchAt (scanner : Scanner) (c : Char) : Option Scanner :=
  let cursor := scanner.cursor
  let spaced := cursor.gapAt 1
  if cursor.column = 0 ∧ c = '%' then scanner.fetchDirective
  else if cursor.atDocumentMark '-' then scanner.fetchDocumentMark .documentStart
  else if cursor.atDocumentMark '.' then scanner.fetchDocumentMark .documentEnd
  else if c = '[' then scanner.fetchFlowStart .flowSequenceStart
  else if c = '{' then scanner.fetchFlowStart .flowMappingStart
  else if c = ']' then scanner.fetchFlowEnd .flowSequenceEnd
  else if c = '}' then scanner.fetchFlowEnd .flowMappingEnd
  else if c = ',' then scanner.fetchFlowEntry
  else if c = '-' ∧ spaced then scanner.fetchBlockEntry
  else if c = '?' ∧ (scanner.inFlow || spaced) then scanner.fetchKey
  else if c = ':' ∧ (scanner.inFlow || spaced) then scanner.fetchValue
  else if c = '*' then scanner.fetchName .aliasOf
  else if c = '&' then scanner.fetchName .anchor
  else if c = '!' then scanner.fetchTag
  else if c = '|' ∧ !scanner.inFlow then scanner.fetchBlockScalar true
  else if c = '>' ∧ !scanner.inFlow then scanner.fetchBlockScalar false
  else if c = '\'' ∨ c = '"' then scanner.fetchQuoted c
  else if scanner.beginsPlain c then scanner.fetchPlain
  else none

def run : Nat → Scanner → Option (Array Token)
  | 0, _ => none
  | fuel + 1, scanner => do
      let scanner ← (scanner.toNextToken (scanner.cursor.rest.length + 1)).dropStale
      let scanner := scanner.shallow scanner.cursor.column
      match scanner.cursor.peek with
      | some c => run fuel (← scanner.fetchAt c)
      | none => (scanner.fetchStreamEnd).map Scanner.tokens

end Scanner

def tokens? (text : String) : Option (List Token) :=
  if text.toList.all isPrintable then
    let scanner : Scanner := {
      cursor := Cursor.start text
      indent := -1, outerIndents := [], keyAllowed := true, candidate := none
      outerCandidates := [], tokens := #[] }
    (scanner.run (text.length + 2)).map Array.toList
  else none

end Curator.Yaml

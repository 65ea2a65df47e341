/-!
A place in a YAML text: what is left to read, and the line and column of its first character.
-/

set_option autoImplicit false

namespace Curator.Yaml

structure Cursor where
  rest : List Char
  index : Nat
  line : Nat
  column : Nat
deriving Repr

def isPrintable (c : Char) : Bool :=
  let n := c.toNat
  n == 0x09 || n == 0x0A || n == 0x0D || (0x20 ≤ n && n ≤ 0x7E) || n == 0x85
    || (0xA0 ≤ n && n ≤ 0xD7FF) || (0xE000 ≤ n && n ≤ 0xFFFD) || 0x10000 ≤ n

def isBlank (c : Char) : Bool := c = ' ' || c = '\t'

def isBreak (c : Char) : Bool :=
  c = '\n' || c = '\r' || c = '\u0085' || c = '\u2028' || c = '\u2029'

def isWord (c : Char) : Bool := c.isAlphanum || c = '_' || c = '-'

namespace Cursor

def start (text : String) : Cursor :=
  match text.toList with
  | '\uFEFF' :: rest => ⟨rest, 1, 0, 1⟩
  | rest => ⟨rest, 0, 0, 0⟩

def peek (cursor : Cursor) : Option Char := cursor.rest.head?

def peekAt (cursor : Cursor) (offset : Nat) : Option Char := cursor.rest[offset]?

def atEnd (cursor : Cursor) : Bool := cursor.rest.isEmpty

def isAt (cursor : Cursor) (c : Char) : Bool := cursor.peek == some c

def blankAt (cursor : Cursor) (offset : Nat) : Bool := (cursor.peekAt offset).any isBlank

def breakAt (cursor : Cursor) (offset : Nat) : Bool := (cursor.peekAt offset).any isBreak

def gapAt (cursor : Cursor) (offset : Nat) : Bool :=
  match cursor.peekAt offset with
  | some c => isBlank c || isBreak c
  | none => true

def next (cursor : Cursor) : Cursor :=
  { cursor with
    rest := cursor.rest.tail, index := cursor.index + 1, column := cursor.column + 1 }

def skip : Nat → Cursor → Cursor
  | 0, cursor => cursor
  | count + 1, cursor => skip count cursor.next

def nextLine (cursor : Cursor) : Option Char × Cursor :=
  match cursor.rest with
  | '\r' :: '\n' :: rest => (some '\n', ⟨rest, cursor.index + 2, cursor.line + 1, 0⟩)
  | c :: rest =>
      if isBreak c then
        (some (if c = '\u2028' ∨ c = '\u2029' then c else '\n'),
          ⟨rest, cursor.index + 1, cursor.line + 1, 0⟩)
      else (none, cursor)
  | [] => (none, cursor)

def span (cursor : Cursor) (test : Char → Bool) : List Char × Cursor :=
  let taken := cursor.rest.takeWhile test
  (taken, { cursor with
    rest := cursor.rest.dropWhile test, index := cursor.index + taken.length,
    column := cursor.column + taken.length })

def atDocumentMark (cursor : Cursor) (mark : Char) : Bool :=
  cursor.column == 0 && cursor.rest.take 3 == [mark, mark, mark] && cursor.gapAt 3

def atAnyDocumentMark (cursor : Cursor) : Bool :=
  cursor.atDocumentMark '-' || cursor.atDocumentMark '.'

end Cursor

end Curator.Yaml

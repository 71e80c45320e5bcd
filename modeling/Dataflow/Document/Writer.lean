import Dataflow.Document.Basic

/-! Writing a document as text, on one line or indented by two spaces a level. -/

namespace Dataflow.Document

/-- What a string spells out: quotes, backslashes and control characters. -/
def escapeChar (c : Char) : List Char :=
  if c = '"' then ['\\', '"']
  else if c = '\\' then ['\\', '\\']
  else if c = '\n' then ['\\', 'n']
  else if c = '\r' then ['\\', 'r']
  else if c = '\t' then ['\\', 't']
  else if c = '\x08' then ['\\', 'b']
  else if c = '\x0c' then ['\\', 'f']
  else if c.toNat < 0x20 then
    ['\\', 'u', '0', '0', Nat.digitChar (c.toNat / 16), Nat.digitChar (c.toNat % 16)]
  else [c]

/-- A string in quotes. One without characters is half a surrogate pair. -/
def quote : Option String → List Char
  | some s => '"' :: s.toList.flatMap escapeChar ++ ['"']
  | none => ['"', '\\', 'u', 'd', '8', '0', '0', '"']

def word : Bool → List Char
  | true => ['t', 'r', 'u', 'e']
  | false => ['f', 'a', 'l', 's', 'e']

def nullWord : List Char := ['n', 'u', 'l', 'l']

mutual

def compactChars : Document → List Char
  | null => nullWord
  | bool b => word b
  | number n => n.chars
  | text s => quote s
  | array [] => ['[', ']']
  | array (d :: ds) => '[' :: compactChars d ++ compactItems ds
  | object [] => ['{', '}']
  | object ((k, d) :: fs) => '{' :: quote k ++ ':' :: compactChars d ++ compactFields fs

def compactItems : List Document → List Char
  | [] => [']']
  | d :: ds => ',' :: compactChars d ++ compactItems ds

def compactFields : List (Option String × Document) → List Char
  | [] => ['}']
  | (k, d) :: fs => ',' :: quote k ++ ':' :: compactChars d ++ compactFields fs

end

def newLine (level : Nat) : List Char := '\n' :: List.replicate (2 * level) ' '

mutual

def prettyChars (level : Nat) : Document → List Char
  | null => nullWord
  | bool b => word b
  | number n => n.chars
  | text s => quote s
  | array [] => ['[', ']']
  | array (d :: ds) =>
    '[' :: newLine (level + 1) ++ prettyChars (level + 1) d ++ prettyItems level ds
  | object [] => ['{', '}']
  | object ((k, d) :: fs) =>
    '{' :: newLine (level + 1) ++ quote k ++ ':' :: ' ' :: prettyChars (level + 1) d ++
      prettyFields level fs

def prettyItems (level : Nat) : List Document → List Char
  | [] => newLine level ++ [']']
  | d :: ds =>
    ',' :: newLine (level + 1) ++ prettyChars (level + 1) d ++ prettyItems level ds

def prettyFields (level : Nat) : List (Option String × Document) → List Char
  | [] => newLine level ++ ['}']
  | (k, d) :: fs =>
    ',' :: newLine (level + 1) ++ quote k ++ ':' :: ' ' :: prettyChars (level + 1) d ++
      prettyFields level fs

end

/-- On one line, without spaces. -/
def compact (d : Document) : String := .ofList d.compactChars

def pretty (d : Document) : String := .ofList (d.prettyChars 0)

end Dataflow.Document

import Orchestration.Json.Basic
import Orchestration.Text.Decimal
import Orchestration.Text.Hexadecimal

namespace Orchestration.Json

open Orchestration.Text

def escapeChar (c : Char) : List Char :=
  if c = '"' then ['\\', '"']
  else if c = '\\' then ['\\', '\\']
  else if c = '\n' then ['\\', 'n']
  else if c = '\r' then ['\\', 'r']
  else if c = '\t' then ['\\', 't']
  else if c = '\x08' then ['\\', 'b']
  else if c = '\x0c' then ['\\', 'f']
  else if c.toNat < 32 then '\\' :: 'u' :: hexDigits 4 c.toNat
  else [c]

def quote (s : String) : List Char := '"' :: s.toList.flatMap escapeChar ++ ['"']

def scientific (n : Scientific) : List Char := signed n.mantissa ++ 'e' :: signed n.exponent

mutual

def chars : Json → List Char
  | .null | .unreadable => "null".toList
  | .bool true => "true".toList
  | .bool false => "false".toList
  | .int n => signed n
  | .number n => scientific n
  | .string s => quote s
  | .array items => '[' :: elementChars items
  | .object members => '\x7b' :: memberChars members

def elementChars : List Json → List Char
  | [] => [']']
  | [v] => v.chars ++ [']']
  | v :: vs => v.chars ++ ',' :: elementChars vs

def memberChars : List (String × Json) → List Char
  | [] => ['\x7d']
  | [(k, v)] => quote k ++ ':' :: v.chars ++ ['\x7d']
  | (k, v) :: ms => quote k ++ ':' :: v.chars ++ ',' :: memberChars ms

end

def text (v : Json) : String := String.ofList v.chars

def newline (depth : Nat) : List Char := '\n' :: List.replicate (2 * depth) ' '

mutual

def indented (depth : Nat) : Json → List Char
  | .array [] => ['[', ']']
  | .object [] => ['\x7b', '\x7d']
  | .array items => '[' :: indentedElements (depth + 1) items ++ newline depth ++ [']']
  | .object members => '\x7b' :: indentedMembers (depth + 1) members ++ newline depth ++ ['\x7d']
  | v => v.chars

def indentedElements (depth : Nat) : List Json → List Char
  | [] => []
  | [v] => newline depth ++ v.indented depth
  | v :: vs => newline depth ++ v.indented depth ++ ',' :: indentedElements depth vs

def indentedMembers (depth : Nat) : List (String × Json) → List Char
  | [] => []
  | [(k, v)] => newline depth ++ quote k ++ ':' :: ' ' :: v.indented depth
  | (k, v) :: ms =>
    newline depth ++ quote k ++ ':' :: ' ' :: v.indented depth ++ ',' :: indentedMembers depth ms

end

def prettyText (v : Json) : String := String.ofList (v.indented 0)

end Orchestration.Json

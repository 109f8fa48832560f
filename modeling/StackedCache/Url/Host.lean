import StackedCache.Text.Reading

/-!
# Hosts in addresses

A host is a name, or an IPv6 address in brackets.
-/

namespace StackedCache.Url

open Text

def isIpv4Part (text : List Char) : Bool :=
  (natural? text).any (· ≤ 255) && (text.length == 1 || text.head? != some '0')

def isIpv4 (text : List Char) : Bool :=
  let parts := pieces '.' text
  parts.length == 4 && parts.all isIpv4Part

def isIpv6Group (text : List Char) : Bool :=
  1 ≤ text.length && text.length ≤ 4 && text.all isHex

/-- How many groups there are; an IPv4 address at the end counts as two. -/
def countGroups? : List (List Char) → Option Nat
  | [] => some 0
  | [last] => if isIpv6Group last then some 1 else if isIpv4 last then some 2 else none
  | group :: groups => if isIpv6Group group then (countGroups? groups).map (· + 1) else none

def cutAtGap : List Char → Option (List Char × List Char)
  | ':' :: ':' :: rest => some ([], rest)
  | c :: rest => (cutAtGap rest).map fun (before, after) => (c :: before, after)
  | [] => none

def groups (text : List Char) : List (List Char) := if text = [] then [] else pieces ':' text

def isIpv6 (text : List Char) : Bool :=
  match cutAtGap text with
  | none => countGroups? (groups text) == some 8
  | some (before, after) =>
    (groups before).all isIpv6Group &&
      (countGroups? (groups after)).any fun n => (groups before).length + n ≤ 7

def isForbiddenInName (c : Char) : Bool :=
  c.toNat == 0 || " #/:<>?@[\\]^|".toList.contains c

def host? (text : List Char) : Option (List Char × List Char) :=
  match text with
  | '[' :: inner =>
    let host := inner.takeWhile (· != ']')
    match inner.dropWhile (· != ']') with
    | [_] => if isIpv6 host then some ('[' :: host ++ [']'], []) else none
    | _ :: ':' :: rest => if isIpv6 host then some ('[' :: host ++ [']'], ':' :: rest) else none
    | _ => none
  | _ =>
    let host := text.takeWhile (· != ':')
    if host.any isForbiddenInName then none else some (host, text.dropWhile (· != ':'))

end StackedCache.Url

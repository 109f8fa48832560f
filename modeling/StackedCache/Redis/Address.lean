import StackedCache.Url

/-!
# Addresses of Redis servers

An address is a URL: `redis://` with a host, or `unix://` with a path. Only
what decides whether it can be used is read.
-/

namespace StackedCache.Redis

open Text

inductive Address where
  | tcp (host : String) (port : Nat) (database : Int)
  | unix (path : String) (database : Int)
  deriving DecidableEq

namespace Address

/-- A segment without text at either end of a path says nothing. -/
def trimmedSegments (segments : List (List Char)) : List (List Char) :=
  ((segments.dropWhile List.isEmpty).reverse.dropWhile List.isEmpty).reverse

def pathDatabase? (segments : List (List Char)) : Option Int :=
  match trimmedSegments segments with
  | [] => some 0
  | [number] => int64? number
  | _ => none

def isProtocol (version : Bytes) : Bool :=
  ["2", "resp2", "3", "resp3"].any fun known => version == known.toUTF8.toList

def isText (bytes : Bytes) : Bool := (String.fromUTF8? ⟨bytes.toArray⟩).isSome

def text? (bytes : Bytes) : Option (List Char) :=
  (String.fromUTF8? ⟨bytes.toArray⟩).map String.toList

def queryDatabase? (url : Url) : Option Int :=
  match url.parameter? "db" with
  | none => some 0
  | some bytes => (text? bytes).bind int64?

def ofTcp? (url : Url) : Option Address := do
  guard (!url.host.isEmpty)
  guard (isText (Url.decoded url.user) && isText (Url.decoded url.password))
  let database ← pathDatabase? url.segments
  some (.tcp (String.ofList url.host) (url.port.getD 6379) database)

def ofUnix? (url : Url) : Option Address := do
  guard (url.host.isEmpty || url.host == "localhost".toList)
  guard (!url.segments.isEmpty)
  let database ← queryDatabase? url
  some (.unix (String.join (url.segments.map fun segment => "/" ++ String.ofList segment)) database)

def ofUrl? (text : String) : Option Address := do
  let url ← Url.parse? text
  guard ((url.parameter? "protocol").all isProtocol)
  if url.scheme = "redis" then ofTcp? url
  else if url.scheme = "unix" ∨ url.scheme = "redis+unix" then ofUnix? url
  else none

end Address

end StackedCache.Redis

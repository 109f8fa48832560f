import StackedCache.Proc
import StackedCache.Redis.Server
import StackedCache.Store
import StackedCache.Text.Reading

/-!
# Stores on a Redis server

A store turns each call into commands and reads the replies. Times to live go
out in milliseconds; a zero one sets no expiry.
-/

namespace StackedCache.Redis

abbrev ServerCalls : Signature := ⟨List Command, fun _ => List Reply⟩

def errorClass? : String → Option String
  | "ERR" => some "ResponseError"
  | "EXECABORT" => some "ExecAbortError"
  | "LOADING" => some "BusyLoadingError"
  | "NOSCRIPT" => some "NoScriptError"
  | "MOVED" => some "Moved"
  | "ASK" => some "Ask"
  | "TRYAGAIN" => some "TryAgain"
  | "CLUSTERDOWN" => some "ClusterDown"
  | "CROSSSLOT" => some "CrossSlot"
  | "MASTERDOWN" => some "MasterDown"
  | "READONLY" => some "ReadOnly"
  | "NOTBUSY" => some "NotBusy"
  | "NOSUB" => some "NoSub"
  | _ => none

def errorText (line : String) : String :=
  let (code, detail) := Text.cut ' ' line.toList
  let code := String.ofList code
  match errorClass? code, detail.map String.ofList with
  | some kind, some detail => "An error was signalled by the server - " ++ kind ++ ": " ++ detail
  | some kind, none => "An error was signalled by the server- " ++ kind
  | none, some detail => code ++ ": " ++ detail
  | none, none => code ++ ": Unknown extension error encountered"

/-- A failed command. Its nearest cause, the store's own error, has the same text. -/
def commandFailure (reason : String) : Failure :=
  ⟨"redis command failed: " ++ reason, ["redis command failed: " ++ reason, reason]⟩

def unreadable : Failure := commandFailure "parse error- ParseError"

def unexpected (reason : String) (reply : Reply) : Failure :=
  commandFailure ("Response was of incompatible type - TypeError: " ++ Text.quoted reason ++
    " (response was " ++ reply.text ++ ")")

def notNumeric (reply : Reply) : Failure :=
  unexpected "Response type not convertible to numeric." reply

def notVector (reply : Reply) : Failure :=
  unexpected "Response type not vector compatible." reply

mutual
/-- The first error in a reply, however deep it stands. An error in the content of a reply
comes before those in the remarks on it. No reply holds an integer beyond 64 bits. -/
def Reply.failure? : Reply → Option Failure
  | .error line => some (commandFailure (errorText line))
  | .garbled => some unreadable
  | .integer n => if Text.fitsInt64 n then none else some unreadable
  | .array items | .map items | .set items | .push _ items => firstFailure? items
  | .remarked remarks content => content.failure?.or (firstFailure? remarks)
  | _ => none
def firstFailure? : List Reply → Option Failure
  | [] => none
  | reply :: replies => reply.failure?.or (firstFailure? replies)
end

/-- A double without its fraction, or the bound that it lies beyond. What is no number counts
as zero. -/
def truncated (low high : Int) (d : Binary64) : Int :=
  if d.isNaN then 0
  else if d.isInfinite then (if d.isNegative then low else high)
  else
    let r := d.toRat
    max low (min high (if r < 0 then r.ceil else r.floor))

def numberIn? (low high : Int) (text : List Char) : Option Int :=
  if 0 ≤ low ∧ text.head? = some '-' then none
  else (Text.integer? text).filter fun n => low ≤ n && n ≤ high

def Reply.number? (low high : Int) (reply : Reply) : Except Failure Int :=
  let reply := reply.content
  let read (text : String) : Except Failure Int :=
    match numberIn? low high text.toList with
    | some n => .ok n
    | none => .error (unexpected "Could not convert from string." reply)
  match reply with
  | .integer n => .ok n
  | .status text => read text
  | .bulk bytes =>
    match String.fromUTF8? ⟨bytes.toArray⟩ with
    | some text => read text
    | none => .error (commandFailure "Invalid UTF-8- TypeError")
  | .double d => .ok (truncated low high d)
  | _ => .error (notNumeric reply)

def ttlOf (millis : Int) : Option Duration :=
  if 0 < millis then some (.ofNanos (millis.toNat * 10 ^ 6)) else none

def Reply.ttl? (reply : Reply) : Except Failure (Option Duration) :=
  (reply.number? (-2 ^ 63) (2 ^ 63 - 1)).map ttlOf

def Reply.byte? (reply : Reply) : Except Failure UInt8 :=
  (reply.number? 0 255).map UInt8.ofInt

/-- The elements of a collection, each read on its own. A map has its rows for elements, and
no element that is asked for is a row. -/
def Reply.elements? {α : Type} (read : Reply → Except Failure α) (reply : Reply) :
    Except Failure (List α) :=
  match reply with
  | .array items | .set items => items.mapM read
  | .map (key :: value :: _) => .error (notNumeric (.map [key, value]))
  | .map _ => .ok []
  | _ => .error (notVector reply)

/-- A value, or nothing for the absent one. A collection holds the bytes of the value one by
one. -/
def Reply.value? (reply : Reply) : Except Failure (Option Bytes) :=
  match reply.content with
  | .bulk bytes => .ok (some bytes)
  | .nil => .ok none
  | reply => (reply.elements? Reply.byte?).map some

def pairUp (found : Table Bytes) : List String → List (Option Bytes) → Table Bytes
  | key :: keys, value :: values =>
    pairUp (match value with | some value => found.insert key value | none => found) keys values
  | _, _ => found

def Reply.found? (keys : List String) (reply : Reply) : Except Failure (Table Bytes) :=
  match reply with
  | .bulk bytes => .ok (pairUp {} keys [some bytes])
  | .nil => .ok {}
  | _ => (reply.elements? Reply.value?).map (pairUp {} keys)

/-- Milliseconds to send: at least one, so that a short time still ends, and at most what
64 bits hold. -/
def ttlMillis (ttl : Duration) : Nat := max 1 (min ttl.millis (2 ^ 64 - 1))

/-- However short a time is, it is not sent as none. -/
theorem one_le_ttlMillis (ttl : Duration) : 1 ≤ ttlMillis ttl := Nat.le_max_left ..

def batchWrite (ttl : Duration) (row : String × Bytes) : Command :=
  .set row.1 row.2 (if ttl.isZero then none else some (ttlMillis ttl))

def singleWrite (key : String) (value : Bytes) (ttl : Duration) : Command :=
  if ttl.isZero then .set key value none else .psetex key (ttlMillis ttl) value

def send {α : Type} (commands : List Command) (read : List Reply → Except Failure α) :
    Proc ServerCalls (Except Failure α) := do
  let replies : List Reply ← Proc.request (S := ServerCalls) commands
  pure (match firstFailure? replies with
    | some failure => .error failure
    | none => read replies)

def sendOne {α : Type} (command : Command) (read : Reply → Except Failure α) :
    Proc ServerCalls (Except Failure α) :=
  send [command] fun replies => read (replies.headD .garbled)

def store : Store ServerCalls
  | .get key => sendOne (.get key) Reply.value?
  | .set key value ttl => sendOne (singleWrite key value ttl) fun _ => .ok ()
  | .delete key => sendOne (.del key) fun _ => .ok ()
  | .ttl key => sendOne (.pttl key) Reply.ttl?
  | .mget keys => if keys.isEmpty then pure (.ok {}) else sendOne (.mget keys) (Reply.found? keys)
  | .mset rows ttl =>
    if rows.isEmpty then pure (.ok ()) else send (rows.map (batchWrite ttl)) fun _ => .ok ()

end StackedCache.Redis

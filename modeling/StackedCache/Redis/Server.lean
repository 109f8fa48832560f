import StackedCache.Item
import StackedCache.Redis.Reply

/-!
# Redis commands and a server

The commands that a Redis store sends, each a list of words with its name
first, and a server as far as a store can see it: string values under keys,
each with an optional deadline.
-/

namespace StackedCache.Redis

inductive Command where
  | get (key : String)
  /-- Without milliseconds the value never expires. -/
  | set (key : String) (value : Bytes) (px : Option Nat)
  | psetex (key : String) (millis : Nat) (value : Bytes)
  | del (key : String)
  | pttl (key : String)
  | mget (keys : List String)
  deriving DecidableEq

namespace Command

def name : Command → String
  | .get _ => "GET"
  | .set .. => "SET"
  | .psetex .. => "PSETEX"
  | .del _ => "DEL"
  | .pttl _ => "PTTL"
  | .mget _ => "MGET"

def word (text : String) : Bytes := text.toUTF8.toList

def arguments : Command → List Bytes
  | .get key | .del key | .pttl key => [word key]
  | .set key value none => [word key, value]
  | .set key value (some millis) => [word key, value, word "PX", word (toString millis)]
  | .psetex key millis value => [word key, word (toString millis), value]
  | .mget keys => keys.map word

end Command

-- ---------------------------------------------------------------------------
-- A server
-- ---------------------------------------------------------------------------

structure Server where
  items : Table Item := {}

namespace Server

def value (server : Server) (now : Instant) (key : String) : Reply :=
  match server.items.liveItem? key now with
  | none => .nil
  | some item => .bulk item.payload

/-- Whole milliseconds left; -1 without a deadline and -2 without a value. -/
def timeLeft (server : Server) (now : Instant) (key : String) : Int :=
  match server.items.liveItem? key now with
  | none => -2
  | some ⟨_, none⟩ => -1
  | some ⟨_, some deadline⟩ => ((deadline - now) / 10 ^ 6 : Nat)

def write (server : Server) (key : String) (value : Bytes) (deadline : Option Instant) : Server :=
  ⟨server.items.insert key ⟨value, deadline⟩⟩

def execute (server : Server) (now : Instant) : Command → Reply × Server
  | .get key => (server.value now key, server)
  | .set key value px => (.okay, server.write key value (px.map fun millis => now + millis * 10 ^ 6))
  | .psetex key millis value => (.okay, server.write key value (some (now + millis * 10 ^ 6)))
  | .del key =>
    (.integer (if (server.items.liveItem? key now).isSome then 1 else 0),
      ⟨server.items.erase key⟩)
  | .pttl key => (.integer (server.timeLeft now key), server)
  | .mget keys => (.array (keys.map (server.value now)), server)

end Server

end StackedCache.Redis

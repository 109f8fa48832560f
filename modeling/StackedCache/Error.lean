import StackedCache.Duration

/-!
# Errors

Every error has a text and a chain of causes, of which only the texts are
known. An error that one load hands to several callers is shared: it reads
like the error that it wraps.
-/

namespace StackedCache

/-- An error of the outside world: its text, and the texts of its causes, nearest first. -/
structure Failure where
  message : String
  causes : List String := []
  deriving DecidableEq, Inhabited

instance : Coe String Failure := ⟨fun message => ⟨message, []⟩⟩

inductive CodecStage where
  | encode
  | decode
  deriving DecidableEq

/-- A record that could not be written or read, with the error of the format that says why. -/
structure CodecError where
  stage : CodecStage
  reason : Failure
  deriving DecidableEq

def CodecError.message (e : CodecError) : String :=
  match e.stage with
  | .encode => "record encoding failed: " ++ e.reason.message
  | .decode => "record payload is corrupt: " ++ e.reason.message

mutual
inductive CacheError where
  | notFound
  | backend (layer : String) (error : Failure)
  | timeout (layer : String) (after : Duration)
  | config (reason : String)
  | codec (error : CodecError)
  | loader (error : LoaderError)
/-- What a loader failed with: an error of its own, an error of a cache that it
used, or an error that a flight shares among its callers. -/
inductive LoaderError where
  | foreign (error : Failure)
  | cache (error : CacheError)
  | shared (error : CacheError)
end

instance : Inhabited CacheError := ⟨.notFound⟩

mutual
def CacheError.message : CacheError → String
  | .notFound => "resource not found"
  | .backend layer error => "cache layer " ++ layer ++ " failed: " ++ error.message
  | .timeout layer after => "cache layer " ++ layer ++ " timed out after " ++ after.text
  | .config reason => "invalid cache configuration: " ++ reason
  | .codec error => "failed to encode cache record: " ++ error.message
  | .loader error => "loader failed: " ++ error.message
/-- A shared error reads as what its loader failed with, or else as the whole error. -/
def LoaderError.message : LoaderError → String
  | .foreign error => error.message
  | .cache error => error.message
  | .shared (.loader error) => error.message
  | .shared error => error.message
end

mutual
def CacheError.causes : CacheError → List String
  | .notFound | .timeout .. | .config _ => []
  | .backend _ error => error.message :: error.causes
  | .codec error => error.message :: error.reason.message :: error.reason.causes
  | .loader error => error.message :: error.causes
def LoaderError.causes : LoaderError → List String
  | .foreign error => error.causes
  | .cache error => error.causes
  | .shared (.loader error) => error.causes
  | .shared error => error.causes
end

def mentions (words : List Char) : List Char → Bool
  | [] => words.isEmpty
  | c :: rest => words.isPrefixOf (c :: rest) || mentions words rest

namespace CacheError

/-- The not-found class: the error `notFound` itself, and a loader's error whose text
says "not found" in any mixture of cases. -/
def isNotFound : CacheError → Bool
  | .notFound => true
  | .loader error => mentions "not found".toList (error.message.toList.map Char.toLower)
  | _ => false

def isBackend : CacheError → Bool
  | .backend .. | .timeout .. => true
  | _ => false

/-- The copy of an error that a flight hands to each of its callers. An error with a
cause that cannot be copied is wrapped; a layer's error keeps its text only. -/
def share : CacheError → CacheError
  | .notFound => .notFound
  | .timeout layer after => .timeout layer after
  | .config reason => .config reason
  | .backend layer error => .backend layer ⟨error.message, []⟩
  | .codec error => .loader (.shared (.codec error))
  | .loader error => .loader (.shared (.loader error))

def shareRounds (e : CacheError) : Nat → List CacheError
  | 0 => []
  | n + 1 => e.share :: e.share.shareRounds n

end CacheError

end StackedCache

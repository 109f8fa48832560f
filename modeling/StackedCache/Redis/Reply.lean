import StackedCache.Table
import StackedCache.Text.Decimal
import StackedCache.Text.Quoted

/-!
# Redis replies

What a server answers, and how an answer shows itself in a report.
-/

namespace StackedCache.Redis

inductive Reply where
  /-- The status that tells of success. -/
  | okay
  | status (text : String)
  | error (line : String)
  | integer (n : Int)
  /-- The absent string, also written as null. -/
  | nil
  | bulk (bytes : Bytes)
  | array (items : List Reply)
  /-- Keys and values in turn. -/
  | map (items : List Reply)
  | set (items : List Reply)
  /-- A reply with remarks, which are keys and values in turn. -/
  | remarked (remarks : List Reply) (content : Reply)
  /-- A message that nobody asked for. -/
  | push (kind : String) (items : List Reply)
  | double (d : Binary64)
  | boolean (b : Bool)
  | bigNumber (n : Int)
  /-- A text with the name of its format. -/
  | verbatim (format text : String)
  /-- What cannot be read. -/
  | garbled

namespace Reply

def formatName (format : String) : String :=
  if format = "txt" then "Text"
  else if format = "mkd" then "Markdown"
  else "Unknown(" ++ Text.quoted format ++ ")"

def pushNames : List (String × String) :=
  [("invalidate", "Invalidate"), ("message", "Message"), ("pmessage", "PMessage"),
    ("smessage", "SMessage"), ("unsubscribe", "Unsubscribe"), ("punsubscribe", "PUnsubscribe"),
    ("sunsubscribe", "SUnsubscribe"), ("subscribe", "Subscribe"), ("psubscribe", "PSubscribe"),
    ("ssubscribe", "SSubscribe")]

def pushName (kind : String) : String :=
  match pushNames.lookup kind with
  | some name => name
  | none => "Other(" ++ Text.quoted kind ++ ")"

def bulkText (bytes : Bytes) : String :=
  match String.fromUTF8? ⟨bytes.toArray⟩ with
  | some s => "bulk-string('" ++ Text.quoted s ++ "')"
  | none => "binary-data([" ++ ", ".intercalate (bytes.map fun b => toString b.toNat) ++ "])"

def pairTexts : List String → List String
  | key :: value :: rest => ("(" ++ key ++ ", " ++ value ++ ")") :: pairTexts rest
  | _ => []

def listText (texts : List String) : String := "[" ++ ", ".intercalate texts ++ "]"

mutual
def text : Reply → String
  | .okay => "ok"
  | .nil => "nil"
  | .status text => "simple-string(" ++ Text.quoted text ++ ")"
  | .error line => "server-error(" ++ Text.quoted line ++ ")"
  | .integer n => "int(" ++ toString n ++ ")"
  | .bulk bytes => bulkText bytes
  | .array items => "array(" ++ listText (texts items) ++ ")"
  | .map items => "map(" ++ listText (pairTexts (texts items)) ++ ")"
  | .set items => "set(" ++ listText (texts items) ++ ")"
  | .remarked _ content => "attribute(" ++ content.text ++ ")"
  | .push kind items => "push(" ++ pushName kind ++ ", " ++ listText (texts items) ++ ")"
  | .double d => "double(" ++ Text.Decimal.text d ++ ")"
  | .boolean b => "boolean(" ++ toString b ++ ")"
  | .bigNumber n => "big-number(" ++ toString n ++ ")"
  | .verbatim format text =>
    "verbatim-string(" ++ formatName format ++ "," ++ Text.quoted text ++ ")"
  | .garbled => "garbled"
def texts : List Reply → List String
  | [] => []
  | reply :: replies => reply.text :: texts replies
end

/-- A reply without the remarks on it. -/
def content : Reply → Reply
  | .remarked _ content => content
  | reply => reply

end Reply

end StackedCache.Redis

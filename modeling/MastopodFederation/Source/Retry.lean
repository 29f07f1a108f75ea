import Mathlib.Data.List.Infix
import Mathlib.Data.Rat.Defs

/-!
# Transient failures

protocol-bridge/workers/Retry.ts: `DefaultRetryClassifier`. A thrown value that is
not an object is never transient. The words the message is searched for are ASCII,
so lowering its ASCII letters finds them where JavaScript does.
-/
namespace MastopodFederation.Source.Retry

/-- The fields of a thrown object that the classifier reads. -/
structure ErrorFields where
  code : Option String := none
  name : Option String := none
  message : Option String := none
  status : Option Rat := none
  statusCode : Option Rat := none
  retryable : Bool := false
  transient : Bool := false
  deriving DecidableEq

inductive Thrown where
  | object (fields : ErrorFields)
  | other
  deriving DecidableEq

def transientStatuses : List Rat := [408, 425, 429, 500, 502, 503, 504]

def transientCodes : List String :=
  ["ECONNRESET", "ECONNREFUSED", "ETIMEDOUT", "EAI_AGAIN", "ENOTFOUND", "EPIPE",
    "UND_ERR_CONNECT_TIMEOUT", "AbortError"]

def transientWords : List String := ["timeout", "temporar", "rate limit"]

def includes (text word : String) : Bool := decide (word.toList <:+: text.toList)

def isTransient : Thrown → Bool
  | .object e =>
    e.retryable || e.transient ||
      (e.status.or e.statusCode).any transientStatuses.contains ||
      transientCodes.contains ((e.code.or e.name).getD "") ||
      transientWords.any (includes (e.message.getD "").toLower)
  | .other => false

end MastopodFederation.Source.Retry

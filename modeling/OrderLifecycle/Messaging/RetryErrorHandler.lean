import Mathlib.Algebra.Group.Nat.Defs
import OrderLifecycle.Database.Entities

namespace OrderLifecycle

def defaultMaxRetries : Nat := 3

def defaultBaseDelayMs : Nat := 1000

/-- Exponential backoff: base, 2×base, 4×base, … for attempts 1, 2, 3, … -/
def retryDelayMs (attempt base : Nat) : Nat := base * 2 ^ (attempt - 1)

/-- The queue a retry waits in before it goes back to `queue`. -/
def retryQueueName (queue : String) (delayMs : Nat) : String := s!"{queue}.retry.{delayMs}ms"

/-- What becomes of a message whose handler threw: parked for `delayMs` in a wait queue, with
its `x-attempts` header set, or handed to the dead-letter exchange. -/
inductive ErrorAction
  | retry (waitQueue : String) (delayMs attempt : Nat)
  | deadLetter
  deriving DecidableEq, Repr

/-- The consumer outcome that is recorded for it. -/
def ErrorAction.outcome : ErrorAction → String
  | retry _ _ _ => "retried"
  | deadLetter => "failed"

/-- The handler, for a message with the given `x-attempts` header. -/
def createRetryErrorHandler (queue : String) (maxRetries base : Nat) (attemptsHeader : Option Nat) :
    ErrorAction :=
  let attempts := attemptsHeader.getD 0
  if attempts < maxRetries then
    let attempt := attempts + 1
    let delayMs := retryDelayMs attempt base
    .retry (retryQueueName queue delayMs) delayMs attempt
  else .deadLetter

/-- A failed delivery is retried as long as its retries are not exhausted. -/
theorem createRetryErrorHandler_retry {queue : String} {maxRetries base : Nat} {header : Option Nat}
    (h : header.getD 0 < maxRetries) : ∃ q delayMs,
      createRetryErrorHandler queue maxRetries base header =
        .retry q delayMs (header.getD 0 + 1) :=
  ⟨_, _, if_pos h⟩

theorem createRetryErrorHandler_deadLetter {queue : String} {maxRetries base : Nat}
    {header : Option Nat} (h : maxRetries ≤ header.getD 0) :
    createRetryErrorHandler queue maxRetries base header = .deadLetter :=
  if_neg (Nat.not_lt.mpr h)

end OrderLifecycle

import Mathlib.Logic.Function.Basic
import OrderLifecycle.Messaging.RetryErrorHandler

namespace OrderLifecycle.Amqp

/-- The headers of a message. Only the error handler sets `x-attempts`, and it sets numbers. -/
structure Headers where
  attempts : Option Nat
  others : String → Option String

/-- A message in a queue: `fields.routingKey`, the content and the properties. `deaths` stands for
`x-death`, the record that the broker keeps of how often the message was dead-lettered. -/
structure Message (α : Type) where
  routingKey : String
  content : α
  messageId : Option Uuid
  headers : Headers
  deaths : Nat

/-- The arguments that a queue is declared with. -/
structure QueueArguments where
  messageTtl : Nat
  deadLetterExchange : String
  deadLetterRoutingKey : String
  deriving DecidableEq, Repr

/-- A call on the channel, about the message that is being handled. -/
inductive ChannelCall (α : Type)
  | assertQueue (queue : String) (arguments : QueueArguments)
  | sendToQueue (queue : String) (message : Message α)
  | ack
  | nack (requeue : Bool)

/-- Queues by name, what was dead-lettered, and the history: what the consumer was given and what
was called on its channel. -/
structure Broker (α : Type) where
  declared : String → Option QueueArguments
  queues : List (String × Message α)
  deadLetters : List (Message α)
  delivered : List (Message α)
  calls : List (ChannelCall α)

variable {α : Type}

/-- What a wait queue of `queue` is declared with: after the delay the message goes back through the
default exchange. -/
def waitQueueArguments (queue : String) (delayMs : Nat) : QueueArguments := ⟨delayMs, "", queue⟩

/-- The calls of the error handler. -/
def errorHandler (queue : String) (maxRetries base : Nat) (msg : Message α) : List (ChannelCall α) :=
  match createRetryErrorHandler queue maxRetries base msg.headers.attempts with
  | .retry waitQueue delayMs attempt =>
    [.assertQueue waitQueue (waitQueueArguments queue delayMs),
      .sendToQueue waitQueue { msg with headers := { msg.headers with attempts := some attempt } },
      .ack]
  | .deadLetter => [.nack false]

/-- What the broker makes of a call of the consumer of `workQueue`; declaring a queue again with other
arguments is refused. -/
def perform (workQueue : String) (msg : Message α) (s : Broker α) (call : ChannelCall α) : Option (Broker α) :=
  let s := { s with calls := s.calls ++ [call] }
  match call with
  | .assertQueue queue arguments =>
    match s.declared queue with
    | none => some { s with declared := Function.update s.declared queue (some arguments) }
    | some existing => if existing = arguments then some s else none
  | .sendToQueue queue message =>
    some { s with queues := s.queues ++ [(queue, { message with routingKey := queue })] }
  | .ack => some s
  | .nack true => some { s with queues := (workQueue, msg) :: s.queues }
  | .nack false => some { s with deadLetters := s.deadLetters ++ [msg] }

/-- Takes the first message out of a queue. -/
def take (queue : String) : List (String × Message α) → Option (Message α × List (String × Message α))
  | [] => none
  | (name, msg) :: rest =>
    if name = queue then some (msg, rest)
    else (take queue rest).map fun r => (r.1, (name, msg) :: r.2)

/-- What happens to the queues: the consumer of `queue` is given a message, or a message has been in
a wait queue for its time and goes where the queue's arguments say. -/
inductive Event
  | deliver
  | expire (waitQueue : String)
  deriving DecidableEq, Repr

/-- The handler's `i`-th invocation succeeds if `ok i` says so. -/
def next (queue : String) (maxRetries base : Nat) (ok : Nat → Bool) (s : Broker α) :
    Event → Option (Broker α)
  | .deliver =>
    (take queue s.queues).bind fun r =>
      let s := { s with queues := r.2, delivered := s.delivered ++ [r.1] }
      let calls := if ok s.delivered.length then [.ack] else errorHandler queue maxRetries base r.1
      calls.foldlM (perform queue r.1) s
  | .expire waitQueue =>
    (s.declared waitQueue).bind fun arguments =>
      (take waitQueue s.queues).bind fun r =>
        if arguments.deadLetterExchange = "" then
          let msg := { r.1 with
            routingKey := arguments.deadLetterRoutingKey
            deaths := r.1.deaths + 1 }
          some { s with queues := r.2 ++ [(arguments.deadLetterRoutingKey, msg)] }
        else none

def run (queue : String) (maxRetries base : Nat) (ok : Nat → Bool) (s : Broker α)
    (events : List Event) : Option (Broker α) :=
  events.foldlM (next queue maxRetries base ok) s

/-- One message, just published. -/
def start (queue : String) (msg : Message α) : Broker α where
  declared := fun _ => none
  queues := [(queue, msg)]
  deadLetters := []
  delivered := []
  calls := []

/-! ### Wait queues are declared alike -/

theorem toList_retryQueueName (queue : String) (delayMs : Nat) :
    (retryQueueName queue delayMs).toList =
      queue.toList ++ ".retry.".toList ++ Nat.toDigits 10 delayMs ++ "ms".toList := by
  rw [retryQueueName]
  simp only [String.toList_append, ← Nat.toList_repr, List.append_assoc]
  rfl

/-- The digits are what stands between the last dot and the unit. -/
theorem retryQueueName_inj {queue queue' : String} {delayMs delayMs' : Nat}
    (h : retryQueueName queue delayMs = retryQueueName queue' delayMs') :
    queue = queue' ∧ delayMs = delayMs' := by
  have hlist := congrArg String.toList h
  rw [toList_retryQueueName, toList_retryQueueName] at hlist
  have hname := List.append_cancel_right hlist
  have hdigits : ∀ n, ∀ c ∈ (Nat.toDigits 10 n).reverse, c.isDigit = true := by
    intro n c hc
    exact Nat.isDigit_of_mem_toDigits (by decide) (by decide) (List.mem_reverse.mp hc)
  have htake (q : String) (n : Nat) :
      ((q.toList ++ ".retry.".toList ++ Nat.toDigits 10 n).reverse.takeWhile Char.isDigit) =
        (Nat.toDigits 10 n).reverse := by
    rw [List.reverse_append, List.takeWhile_append_of_pos (hdigits n), List.reverse_append]
    have hdot : (".retry.".toList.reverse ++ q.toList.reverse).takeWhile Char.isDigit = [] := rfl
    rw [hdot, List.append_nil]
  have hsame : (Nat.toDigits 10 delayMs).reverse = (Nat.toDigits 10 delayMs').reverse := by
    rw [← htake queue delayMs, ← htake queue' delayMs', hname]
  have hd := List.reverse_inj.mp hsame
  rw [hd] at hname
  have hq := List.append_cancel_right (List.append_cancel_right hname)
  refine ⟨String.toList_inj.mp hq, ?_⟩
  have hvalue := congrArg (fun l => Nat.ofDigitChars 10 l 0) hd
  simpa only [Nat.ofDigitChars_ten_toDigits] using hvalue

theorem waitQueue_ne (queue : String) (delayMs : Nat) : retryQueueName queue delayMs ≠ queue := by
  intro h
  have hlength := congrArg (fun s => s.toList.length) h
  simp only [toList_retryQueueName, List.length_append] at hlength
  have hms : "ms".toList.length = 2 := rfl
  omega

end OrderLifecycle.Amqp

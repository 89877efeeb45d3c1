import Mathlib.Data.Rat.Init

namespace OrderLifecycle.Metrics

/-- A row of `metric_events`; `recordedAt` in milliseconds. -/
structure MetricEventEntity where
  metric : String
  value : ℚ
  labels : Option (List (String × String))
  recordedAt : Int
  deriving DecidableEq, Repr

def flushAtRows : Nat := 500

def maxBufferedRows : Nat := 50000

/-- Who awaits a `writeBatch`: a flush, or `onModuleDestroy`. -/
inductive Writer
  | flush (id : Nat)
  | shutdown
  deriving DecidableEq, Repr

/-- A continuation that is ready to run: the rest of a `writeBatch` after its insert, the callback of
a flush's `finally`, the rest of `onModuleDestroy`. -/
inductive Job
  | written (writer : Writer)
  | onFinally (flush : Nat)
  | resume
  deriving DecidableEq, Repr

/-- What runs when a `writeBatch` has returned. -/
def Writer.next : Writer → Job
  | .flush id => .onFinally id
  | .shutdown => .resume

/-- Where `onModuleDestroy` is: not called, awaiting a flush, in its loop, returned. -/
inductive Shutdown
  | no
  | flush (id : Nat)
  | loop
  | done
  deriving DecidableEq, Repr

/-- The fields of the service, and of the process what the service uses: whether it is the sink of the
collectors, the clock, the timers that are set, the continuations that are ready, the batches passed
to `repository.insert` in order, the inserts that have not settled. -/
structure Service where
  buffer : List MetricEventEntity := []
  timer : Option Nat := none
  flushing : Option Nat := none
  sink : Bool := true
  now : Int := 0
  armed : List Nat := []
  jobs : List Job := []
  inserts : List (List MetricEventEntity) := []
  pending : List (Nat × Writer) := []
  timers : Nat := 0
  flushes : Nat := 0
  shutdown : Shutdown := .no
  deriving DecidableEq, Repr

namespace Service

/-- `clearTimeout(this.timer)` -/
def clearTimeout (s : Service) : Service :=
  { s with armed := s.armed.filter fun id => some id ≠ s.timer }

/-- `this.timer = setTimeout(() => this.flushNow(), FLUSH_INTERVAL_MS)` -/
def setTimeout (s : Service) : Service :=
  { s with timer := some s.timers, armed := s.armed ++ [s.timers], timers := s.timers + 1 }

def enqueue (s : Service) (job : Job) : Service := { s with jobs := s.jobs ++ [job] }

/-- `writeBatch` up to its insert; without rows it returns at once. -/
def writeBatch (s : Service) (writer : Writer) : Service :=
  let rows := s.buffer.take flushAtRows
  let s := { s with buffer := s.buffer.drop flushAtRows }
  if rows.length = 0 then s.enqueue writer.next
  else { s with inserts := s.inserts ++ [rows], pending := s.pending ++ [(s.inserts.length, writer)] }

def flushNow (s : Service) : Service :=
  let s := s.clearTimeout
  let s := { s with timer := none, flushes := s.flushes + 1 }
  { s.writeBatch (.flush (s.flushes - 1)) with flushing := some (s.flushes - 1) }

def record (s : Service) (metric : String) (value : ℚ) (labels : Option (List (String × String))) :
    Service :=
  if maxBufferedRows ≤ s.buffer.length then s
  else
    let s := { s with buffer := s.buffer ++ [⟨metric, value, labels, s.now⟩] }
    if s.flushing.isSome then s
    else if flushAtRows ≤ s.buffer.length then s.flushNow
    else if s.timer.isSome then s
    else s.setTimeout

/-- The callback of a flush's `finally`. -/
def onFinally (s : Service) : Service :=
  let s := { s with flushing := none }
  if flushAtRows ≤ s.buffer.length then s.flushNow
  else if 0 < s.buffer.length then s.setTimeout
  else s

/-- `onModuleDestroy` up to its first `await`. -/
def onModuleDestroy (s : Service) : Service :=
  let s := { s with sink := false }
  let s := s.clearTimeout
  match s.flushing with
  | some id => { s with shutdown := .flush id }
  | none => { s.enqueue .resume with shutdown := .loop }

/-- The loop of `onModuleDestroy`, from one `await` to the next. -/
def onResume (s : Service) : Service :=
  if 0 < s.buffer.length then s.writeBatch .shutdown else { s with shutdown := .done }

/-- A continuation runs. Whoever awaits a flush goes on after its callback. -/
def runJob (s : Service) : Job → Service
  | .written writer => s.enqueue writer.next
  | .onFinally id =>
    let s := s.onFinally
    if s.shutdown = .flush id then { s.enqueue .resume with shutdown := .loop } else s
  | .resume => s.onResume

end Service

/-- What may happen next. -/
inductive Move
  | record (metric : String) (value : ℚ) (labels : Option (List (String × String)))
  | clock (ms : Int)
  | fire (timer : Nat)
  | settle (insert : Nat) (ok : Bool)
  | job (job : Job)
  | destroy
  deriving DecidableEq, Repr

namespace Service

/-- One turn of the process; `none` when it is not possible. A timer fires only when no continuation
is ready, and of the ready ones any may be the next. A failed insert is logged, no more. -/
def next (s : Service) : Move → Option Service
  | .record metric value labels => if s.sink then some (s.record metric value labels) else none
  | .clock ms => some { s with now := ms }
  | .fire timer =>
    if timer ∈ s.armed ∧ s.jobs = [] then
      some { s with armed := s.armed.erase timer }.flushNow
    else none
  | .settle insert _ =>
    (s.pending.find? fun p => p.1 = insert).map fun p =>
      { s with pending := s.pending.erase p }.enqueue (.written p.2)
  | .job job => if job ∈ s.jobs then some ({ s with jobs := s.jobs.erase job }.runJob job) else none
  | .destroy => if s.shutdown = .no then some s.onModuleDestroy else none

def run (s : Service) : List Move → Option Service
  | [] => some s
  | m :: ms => (s.next m).bind fun s' => s'.run ms

/-- The samples that a run accepts, as they are stamped. -/
def accepted (s : Service) : List Move → List MetricEventEntity
  | [] => []
  | m :: ms =>
    let rest := ((s.next m).map fun s' => s'.accepted ms).getD []
    match m with
    | .record metric value labels =>
      if s.sink ∧ s.buffer.length < maxBufferedRows then ⟨metric, value, labels, s.now⟩ :: rest
      else rest
    | _ => rest

end Service

end OrderLifecycle.Metrics

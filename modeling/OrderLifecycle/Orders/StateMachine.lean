namespace OrderLifecycle

inductive OrderStatus
  | pending
  | reserved
  | paid
  | completed
  | failed
  | cancelled
  deriving DecidableEq, Repr

instance : ToString OrderStatus where
  toString
    | .pending => "PENDING"
    | .reserved => "RESERVED"
    | .paid => "PAID"
    | .completed => "COMPLETED"
    | .failed => "FAILED"
    | .cancelled => "CANCELLED"

/-- `ORDER_TRANSITIONS`: the legal next statuses of each status. -/
def orderTransitions : OrderStatus → List OrderStatus
  | .pending => [.reserved, .failed, .cancelled]
  | .reserved => [.paid, .failed, .cancelled]
  | .paid => [.completed]
  | .completed => []
  | .failed => []
  | .cancelled => []

def isTransitionAllowed (source target : OrderStatus) : Bool :=
  (orderTransitions source).contains target

def isTerminalStatus (status : OrderStatus) : Bool :=
  (orderTransitions status).length == 0

/-- No edge leaves a terminal status. -/
theorem not_allowed_of_terminal {s : OrderStatus} (h : isTerminalStatus s = true)
    (target : OrderStatus) : isTransitionAllowed s target = false := by
  cases s <;> first | rfl | exact absurd h (by decide)

end OrderLifecycle

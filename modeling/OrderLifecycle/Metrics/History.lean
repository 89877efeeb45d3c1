import Mathlib.Algebra.Order.Floor.Ring
import Mathlib.Data.Rat.Floor
import OrderLifecycle.Framework.Ranking
import OrderLifecycle.Metrics.Persistence

open Framework

namespace OrderLifecycle.Metrics

inductive MetricResolution
  | raw
  | oneMinute
  | fiveMinutes
  | fifteenMinutes
  | oneHour
  | sixHours
  | twelveHours
  | oneDay
  | oneWeek
  | oneMonth
  deriving DecidableEq, Repr

/-- `BUCKET_SECONDS` -/
def bucketSeconds : MetricResolution → Option Nat
  | .raw => none
  | .oneMinute => some 60
  | .fiveMinutes => some (5 * 60)
  | .fifteenMinutes => some (15 * 60)
  | .oneHour => some 3600
  | .sixHours => some (6 * 3600)
  | .twelveHours => some (12 * 3600)
  | .oneDay => some (24 * 3600)
  | .oneWeek => some (7 * 24 * 3600)
  | .oneMonth => some (30 * 24 * 3600)

def sinceTheBeginning : Int := 0

def maxPoints : Nat := 500

/-- A point of a response; `bucketStart` is the `Date`, in milliseconds, that is sent as an ISO
string. -/
structure MetricHistoryPointDTO where
  bucketStart : Int
  count : Nat
  sum : ℚ
  avg : ℚ
  min : ℚ
  max : ℚ
  deriving DecidableEq, Repr

structure MetricsHistoryQueryDTO where
  metric : String
  resolution : Option MetricResolution
  since : Option Int
  upTo : Option Int
  deriving DecidableEq, Repr

structure MetricsHistoryResponseDTO where
  metric : String
  resolution : MetricResolution
  points : List MetricHistoryPointDTO
  deriving DecidableEq, Repr

/-! ### Queries -/

/-- `"metric" = $1 AND "recordedAt" >= $2 AND "recordedAt" <= $3` -/
def inWindow (metric : String) (since upTo : Int) (row : MetricEventEntity) : Bool :=
  row.metric == metric && since ≤ row.recordedAt && row.recordedAt ≤ upTo

/-- A sample as a point of its own. -/
def rawPoint (row : MetricEventEntity) : MetricHistoryPointDTO :=
  ⟨row.recordedAt, 1, row.value, row.value, row.value, row.value⟩

def queryRaw (events : List MetricEventEntity) (metric : String) (since upTo : Int) :
    List MetricHistoryPointDTO :=
  let rows := (descending MetricEventEntity.recordedAt
    (events.filter (inWindow metric since upTo))).take maxPoints
  rows.reverse.map rawPoint

/-- `floor(extract(epoch from "recordedAt") / $4) * $4`, in seconds. -/
def bucketEpoch (widthSeconds : Nat) (row : MetricEventEntity) : Int :=
  ⌊(row.recordedAt / 1000 : ℚ) / widthSeconds⌋ * widthSeconds

/-- The aggregates of a group of rows, which is never empty. -/
def aggregate (group : Int × List MetricEventEntity) : MetricHistoryPointDTO :=
  let values := group.2.map (·.value)
  { bucketStart := group.1 * 1000
    count := values.length
    sum := values.sum
    avg := values.sum / values.length
    min := values.min?.getD 0
    max := values.max?.getD 0 }

/-- `none` at the resolution without a width. -/
def queryBucketed (events : List MetricEventEntity) (metric : String) (since upTo : Int)
    (resolution : MetricResolution) : Option (List MetricHistoryPointDTO) :=
  (bucketSeconds resolution).map fun widthSeconds =>
    let rows := (groupBy (bucketEpoch widthSeconds)
      (events.filter (inWindow metric since upTo))).map aggregate
    let recentBuckets := (descending MetricHistoryPointDTO.bucketStart rows).take maxPoints
    ascending MetricHistoryPointDTO.bucketStart recentBuckets

/-- `GET /metrics/history`, at the time `now`. -/
def query (events : List MetricEventEntity) (now : Int) (dto : MetricsHistoryQueryDTO) :
    Option MetricsHistoryResponseDTO :=
  let resolution := dto.resolution.getD .raw
  let upTo := dto.upTo.getD now
  let since := dto.since.getD sinceTheBeginning
  let points :=
    match resolution with
    | .raw => some (queryRaw events dto.metric since upTo)
    | resolution => queryBucketed events dto.metric since upTo resolution
  points.map fun points => ⟨dto.metric, resolution, points⟩

end OrderLifecycle.Metrics

import OrderLifecycle.Metrics.Buffer
import OrderLifecycle.Metrics.HistoryAgreement

open Framework

namespace OrderLifecycle.Metrics

/-- The time that a sample is shown at. -/
def shownAt (resolution : MetricResolution) (time : Int) : Int :=
  match bucketSeconds resolution with
  | none => time
  | some w => bucketStart w time

/-- The points show these groups of samples, one each, the oldest first. -/
structure Shows (resolution : MetricResolution) (groups : List (List MetricEventEntity))
    (points : List MetricHistoryPointDTO) : Prop where
  size : points.length ≤ 500
  sorted : (points.map (·.bucketStart)).Pairwise (· ≤ ·)
  figures : List.Forall₂ (fun group p => Summarises (group.map (·.value) : List ℚ) p) groups points
  times : List.Forall₂ (fun group p => ∀ row ∈ group, shownAt resolution row.recordedAt = p.bucketStart)
    groups points

variable {w : Nat} {rows : List MetricEventEntity}

end OrderLifecycle.Metrics

import Mathlib.Algebra.BigOperators.Group.Multiset.Basic
import Mathlib.Order.Bounds.Basic
import OrderLifecycle.Metrics.History

open Framework

namespace OrderLifecycle.Metrics

/-! ### What a bucketed history is -/

/-- The start of the bucket of a time, both in milliseconds. -/
def bucketStart (widthSeconds : Nat) (time : Int) : Int :=
  time / (1000 * widthSeconds : Nat) * (1000 * widthSeconds : Nat)

/-- The point has the count, the sum, the average, the least and the greatest of the values. -/
structure Summarises (values : Multiset ℚ) (p : MetricHistoryPointDTO) : Prop where
  count : p.count = values.card
  sum : p.sum = values.sum
  avg : p.avg = values.sum / values.card
  min : IsLeast {v | v ∈ values} p.min
  max : IsGreatest {v | v ∈ values} p.max

/-- The points are the buckets of the samples, each a time and a value, in ascending order. -/
structure Buckets (widthSeconds : Nat) (samples : Multiset (Int × ℚ))
    (points : List MetricHistoryPointDTO) : Prop where
  sorted : (points.map (·.bucketStart)).Pairwise (· < ·)
  starts : ∀ start, start ∈ points.map (·.bucketStart) ↔
    ∃ x ∈ samples, bucketStart widthSeconds x.1 = start
  summaries : ∀ p ∈ points, Summarises
    ((samples.filter fun x => bucketStart widthSeconds x.1 = p.bucketStart).map Prod.snd) p

/-- What the buckets are made of. -/
def samplesOf (rows : List MetricEventEntity) : Multiset (Int × ℚ) :=
  rows.map fun row => (row.recordedAt, row.value)

/-- The samples that raw points show. -/
def samplesShown (points : List MetricHistoryPointDTO) : Multiset (Int × ℚ) :=
  points.map fun p => (p.bucketStart, p.sum)

/-- The samples that a request is about. -/
def window (events : List MetricEventEntity) (metric : String) (since upTo : Int) :
    List MetricEventEntity :=
  events.filter (inWindow metric since upTo)

/-! ### The queries compute it -/

theorem bucketEpoch_eq (w : Nat) (row : MetricEventEntity) :
    bucketEpoch w row * 1000 = bucketStart w row.recordedAt := by
  have hfloor : ⌊(row.recordedAt / 1000 : ℚ) / w⌋ = row.recordedAt / (1000 * w : Nat) := by
    rw [div_div, ← Rat.floor_intCast_div_natCast]
    push_cast
    rfl
  rw [bucketEpoch, hfloor, bucketStart]
  push_cast
  ring

theorem min?_isLeast {values : List ℚ} (h : values ≠ []) :
    IsLeast {v | v ∈ values} (values.min?.getD 0) := by
  cases hmin : values.min? with
  | none => exact absurd (List.min?_eq_none_iff.mp hmin) h
  | some m =>
    have hm := List.min?_eq_some_iff.mp hmin
    exact ⟨hm.1, fun v hv => hm.2 v hv⟩

theorem max?_isGreatest {values : List ℚ} (h : values ≠ []) :
    IsGreatest {v | v ∈ values} (values.max?.getD 0) := by
  cases hmax : values.max? with
  | none => exact absurd (List.max?_eq_none_iff.mp hmax) h
  | some m =>
    have hm := List.max?_eq_some_iff.mp hmax
    exact ⟨hm.1, fun v hv => hm.2 v hv⟩

theorem summarises_aggregate {start : Int} {group : List MetricEventEntity} (h : group ≠ []) :
    Summarises (group.map (·.value) : List ℚ) (aggregate (start, group)) where
  count := by simp [aggregate]
  sum := by simp [aggregate]
  avg := by simp [aggregate]
  min := min?_isLeast (by simpa using h)
  max := max?_isGreatest (by simpa using h)

/-- All buckets of some rows, in ascending order. -/
def allBuckets (w : Nat) (rows : List MetricEventEntity) : List MetricHistoryPointDTO :=
  ascending MetricHistoryPointDTO.bucketStart ((groupBy (bucketEpoch w) rows).map aggregate)

theorem bucketStarts_nodup (w : Nat) (rows : List MetricEventEntity) :
    (((groupBy (bucketEpoch w) rows).map aggregate).map (·.bucketStart)).Nodup := by
  have hkeys : ((groupBy (bucketEpoch w) rows).map aggregate).map (·.bucketStart) =
      ((groupBy (bucketEpoch w) rows).map Prod.fst).map (· * 1000) := by
    simp [aggregate, Function.comp_def]
  rw [hkeys, groupBy_keys]
  exact (List.nodup_dedup _).map fun a b h => by simpa using h

/-- `queryBucketed` takes the most recent buckets. -/
theorem queryBucketed_eq (events : List MetricEventEntity) (metric : String) (since upTo : Int)
    {resolution : MetricResolution} {w : Nat} (hw : bucketSeconds resolution = some w) :
    queryBucketed events metric since upTo resolution =
      some ((allBuckets w (window events metric since upTo)).rtake maxPoints) := by
  rw [queryBucketed, hw, Option.map_some, ascending_take_descending (bucketStarts_nodup w _)]
  rfl

theorem mem_allBuckets {w : Nat} {rows : List MetricEventEntity} {p : MetricHistoryPointDTO} :
    p ∈ allBuckets w rows ↔ ∃ epoch, (∃ row ∈ rows, bucketEpoch w row = epoch) ∧
      p = aggregate (epoch, rows.filter fun row => bucketEpoch w row = epoch) := by
  rw [allBuckets, ascending_perm.mem_iff, List.mem_map]
  constructor
  · rintro ⟨⟨epoch, group⟩, hmem, rfl⟩
    obtain ⟨hrow, rfl⟩ := mem_groupBy.mp hmem
    exact ⟨epoch, hrow, rfl⟩
  · rintro ⟨epoch, hrow, rfl⟩
    exact ⟨_, mem_groupBy.mpr ⟨hrow, rfl⟩, rfl⟩

theorem sameBucket_iff {w : Nat} {row : MetricEventEntity} {epoch : Int} :
    bucketStart w row.recordedAt = epoch * 1000 ↔ bucketEpoch w row = epoch := by
  rw [← bucketEpoch_eq]
  omega

theorem buckets_allBuckets (w : Nat) (rows : List MetricEventEntity) :
    Buckets w (samplesOf rows) (allBuckets w rows) where
  sorted := by
    have hle : ((allBuckets w rows).map (·.bucketStart)).Pairwise (· ≤ ·) :=
      List.pairwise_map.mpr ascending_pairwise
    have hnodup : ((allBuckets w rows).map (·.bucketStart)).Nodup :=
      (ascending_perm.map _).nodup_iff.mpr (bucketStarts_nodup w rows)
    exact (hle.and hnodup).imp fun h => lt_of_le_of_ne h.1 h.2
  starts start := by
    simp only [List.mem_map, mem_allBuckets, samplesOf, Multiset.mem_coe]
    constructor
    · rintro ⟨p, ⟨epoch, ⟨row, hrow, hepoch⟩, rfl⟩, rfl⟩
      exact ⟨_, ⟨row, hrow, rfl⟩, sameBucket_iff.mpr hepoch⟩
    · rintro ⟨_, ⟨row, hrow, rfl⟩, rfl⟩
      exact ⟨_, ⟨_, ⟨row, hrow, rfl⟩, rfl⟩, bucketEpoch_eq w row⟩
  summaries p hp := by
    obtain ⟨epoch, ⟨row, hrow, hepoch⟩, rfl⟩ := mem_allBuckets.mp hp
    have hne : (rows.filter fun row => bucketEpoch w row = epoch) ≠ [] :=
      List.ne_nil_of_mem (List.mem_filter.mpr ⟨hrow, by simpa using hepoch⟩)
    have hvalues : ((samplesOf rows).filter fun x =>
        bucketStart w x.1 = (aggregate (epoch, rows.filter fun row =>
          bucketEpoch w row = epoch)).bucketStart).map Prod.snd =
        ((rows.filter fun row => bucketEpoch w row = epoch).map (·.value) : List ℚ) := by
      simp [samplesOf, aggregate, List.filter_map, Function.comp_def, sameBucket_iff]
    rw [hvalues]
    exact summarises_aggregate hne

/-- A window of no more samples than the cap has no more buckets either. -/
theorem allBuckets_length_le (w : Nat) (rows : List MetricEventEntity) :
    (allBuckets w rows).length ≤ rows.length := by
  have hdedup := List.Sublist.length_le (List.dedup_sublist (rows.map (bucketEpoch w)))
  simpa [allBuckets, groupBy, ascending_perm.length_eq] using hdedup

/-! ### The two resolutions -/

theorem exists_width {resolution : MetricResolution} (h : resolution ≠ .raw) :
    ∃ w, bucketSeconds resolution = some w := by
  cases resolution with
  | raw => exact absurd rfl h
  | _ => exact ⟨_, rfl⟩

section window

variable (events : List MetricEventEntity) (metric : String) (since upTo : Int)

/-- Those of them that `queryRaw` returns, the newest first. -/
def newest : List MetricEventEntity :=
  (descending MetricEventEntity.recordedAt (window events metric since upTo)).take maxPoints

theorem queryRaw_eq : queryRaw events metric since upTo =
    (newest events metric since upTo).reverse.map rawPoint := rfl

theorem queryRaw_sorted :
    ((queryRaw events metric since upTo).map (·.bucketStart)).Pairwise (· ≤ ·) := by
  rw [queryRaw_eq, List.map_map, List.pairwise_map, List.pairwise_reverse]
  exact descending_pairwise.sublist (List.take_sublist _ _)

theorem newest_perm (h : (window events metric since upTo).length ≤ maxPoints) :
    (newest events metric since upTo).Perm (window events metric since upTo) := by
  have hlen : (descending MetricEventEntity.recordedAt
      (window events metric since upTo)).length ≤ maxPoints := by
    rw [descending_perm.length_eq]
    exact h
  rw [newest, List.take_of_length_le hlen]
  exact descending_perm

/-- A raw history that was not cut shows all the samples. -/
theorem samplesShown_queryRaw (h : (window events metric since upTo).length ≤ maxPoints) :
    samplesShown (queryRaw events metric since upTo) =
      samplesOf (window events metric since upTo) := by
  have hperm : (newest events metric since upTo).reverse.Perm (window events metric since upTo) :=
    (List.reverse_perm _).trans (newest_perm events metric since upTo h)
  rw [queryRaw_eq, samplesShown, samplesOf, List.map_map]
  exact Multiset.coe_eq_coe.mpr (hperm.map _)

end window

/-- A bucketed history is the most recent of the window's buckets, each with the exact figures of its
samples; it is what the raw history gives when that is whole, and a raw history that is cut keeps the
newest samples. -/
theorem history_agrees (events : List MetricEventEntity) (metric : String) (since upTo : Int)
    (resolution : MetricResolution) (h : resolution ≠ .raw) :
    ∃ w points all, bucketSeconds resolution = some w ∧
      queryBucketed events metric since upTo resolution = some points ∧
      (points.map (·.bucketStart)).Pairwise (· < ·) ∧
      (∀ p ∈ points, ((1000 * w : Nat) : Int) ∣ p.bucketStart) ∧
      Buckets w (samplesOf (window events metric since upTo)) all ∧
      points = all.rtake 500 ∧
      ((window events metric since upTo).length ≤ 500 →
        Buckets w (samplesShown (queryRaw events metric since upTo)) points) ∧
      (500 < (window events metric since upTo).length →
        (queryRaw events metric since upTo).length = 500 ∧
        ((queryRaw events metric since upTo).map (·.bucketStart)).Pairwise (· ≤ ·) ∧
        ∃ kept left : List MetricEventEntity, (kept ++ left).Perm (window events metric since upTo) ∧
          queryRaw events metric since upTo = kept.map rawPoint ∧
          ∀ x ∈ kept, ∀ y ∈ left, y.recordedAt ≤ x.recordedAt) := by
  obtain ⟨w, hw⟩ := exists_width h
  have hall := buckets_allBuckets w (window events metric since upTo)
  have hsub : ((allBuckets w (window events metric since upTo)).rtake maxPoints).Sublist
      (allBuckets w (window events metric since upTo)) := by
    rw [List.rtake]
    exact List.drop_sublist _ _
  refine ⟨w, _, _, hw, queryBucketed_eq events metric since upTo hw,
    hall.sorted.sublist (hsub.map _), ?_, hall, rfl, ?_, ?_⟩
  · intro p hp
    obtain ⟨x, -, hx⟩ := (hall.starts p.bucketStart).mp (List.mem_map_of_mem (hsub.subset hp))
    exact hx ▸ dvd_mul_left _ _
  · intro hle
    have hwhole : (allBuckets w (window events metric since upTo)).rtake maxPoints =
        allBuckets w (window events metric since upTo) := by
      have hlen : (allBuckets w (window events metric since upTo)).length ≤ maxPoints :=
        (allBuckets_length_le w (window events metric since upTo)).trans hle
      rw [List.rtake, Nat.sub_eq_zero_of_le hlen, List.drop_zero]
    rw [samplesShown_queryRaw events metric since upTo hle, hwhole]
    exact hall
  · intro hlt
    have hsplit := take_descending MetricEventEntity.recordedAt (window events metric since upTo)
      maxPoints
    refine ⟨?_, queryRaw_sorted events metric since upTo, (newest events metric since upTo).reverse,
      _, ((List.reverse_perm _).append_right _).trans hsplit.1, rfl, ?_⟩
    · rw [queryRaw_eq, List.length_map, List.length_reverse, newest, List.length_take,
        descending_perm.length_eq]
      exact min_eq_left hlt.le
    · intro x hx y hy
      exact hsplit.2 x (List.mem_reverse.mp hx) y hy

def twoSamples : List MetricEventEntity :=
  [⟨"cpu_percent", 3, none, 61000⟩, ⟨"cpu_percent", 1, none, 5000⟩]

theorem history_agrees_two_samples :
    ∃ points, queryBucketed twoSamples "cpu_percent" 0 100000 .oneMinute = some points ∧
      Buckets 60 (samplesShown (queryRaw twoSamples "cpu_percent" 0 100000)) points := by
  obtain ⟨w, points, all, hw, hq, -, -, -, -, hraw, -⟩ :=
    history_agrees twoSamples "cpu_percent" 0 100000 .oneMinute (by decide)
  cases hw
  exact ⟨points, hq, hraw (by decide)⟩

end OrderLifecycle.Metrics

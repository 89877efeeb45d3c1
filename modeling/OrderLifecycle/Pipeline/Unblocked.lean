import OrderLifecycle.Pipeline.Outcome

open Framework

namespace OrderLifecycle.Pipeline

variable {base : Nat} {c : Catalog} {b : Bool} {moves : List Move} {s s' : State} {t : Tid}
  {queue : ConsumerQueue} {m : OutboxMessageEntity} {msg : Message}

/-! ### Only the relay publishes -/

def publishingLogic : Logic World Choice Request where
  inv _ := True
  guar _ _ w w' := w'.messages = w.messages
  envGuar w w' := ∀ m ∈ w.messages, m ∈ w'.messages
  choice _ := True

theorem verified_publishing :
    Verified orderSystem publishingLogic (fun _ _ => True) fun _ _ _ _ => True where
  idle_stable _ := .true
  post_stable _ _ _ := .true
  body := by
    intro t k w _ _ _
    have hall := writes_call (F := fun _ => True) (fun _ => trivial) k
    apply wp_mono (fun _ _ _ => trivial) (Prog.All.wp hall _)
    intro β f hf ch w b w' _ hs
    exact ⟨trivial, (hf t ch w b w' hs).messages⟩
  env := by
    intro e w w' _ h
    refine ⟨trivial, ?_⟩
    cases e with
    | relay id =>
      obtain ⟨row, -, rfl⟩ := Option.map_eq_some_iff.mp h
      exact fun m hm => List.mem_cons_of_mem _ hm
    | expire key =>
      cases h
      exact fun m hm => hm
  crash t k w _ := ⟨trivial, rfl⟩

/-- Every copy is of a message that has been published. -/
structure Available (s : State) : Prop where
  publishing : Sound publishingLogic (fun _ _ => True) (fun _ _ _ _ => True) s.services
  queued : ∀ x ∈ s.broker.queues, x.2.content ∈ s.services.shared.messages
  inHand : ∀ t d, s.inHand t = some d → d.message.content ∈ s.services.shared.messages

theorem Step.messages (h : Step base s s') (hs : Available s) :
    Sound publishingLogic (fun _ _ => True) (fun _ _ _ _ => True) s'.services ∧
      ∀ m ∈ s.services.shared.messages, m ∈ s'.services.shared.messages := by
  rcases h.services with he | ⟨l, hl⟩
  · rw [he]
    exact ⟨hs.publishing, fun m hm => hm⟩
  · have hadmits : publishingLogic.Admits l := by
      cases l <;> exact trivial
    obtain ⟨hsound, hmoves⟩ := hs.publishing.next verified_publishing hadmits hl
    refine ⟨hsound, fun m hm => ?_⟩
    rcases hmoves.cases with he | henv | ⟨t, k, th, -, -, hg⟩
    · rwa [he]
    · exact henv m hm
    · have he : s'.services.shared.messages = s.services.shared.messages := hg
      rwa [he]

theorem Available.next (hs : Available s) (h : Step base s s') (hl : Lossless s) : Available s' := by
  obtain ⟨hsound, hkeep⟩ := h.messages hs
  refine ⟨hsound, fun x hx => ?_, fun t d hd => ?_⟩
  · cases h.source hl hx with
    | old mem => exact hkeep _ (hs.queued x mem)
    | published row queue key relayed => exact relayed
    | parked t queue msg delayMs hand known => exact hkeep _ (hs.inHand t _ hand)
    | expired waitQueue msg arguments mem declared => exact hkeep _ (hs.queued (waitQueue, msg) mem)
    | back t d hand => exact hkeep _ (hs.inHand t d hand)
  · rcases h.inHand hd with ⟨d₀, hd₀, -, hm⟩ | ⟨hmem, -, -⟩
    · rw [hm]
      exact hkeep _ (hs.inHand t d₀ hd₀)
    · exact hkeep _ (hs.queued _ hmem)

end OrderLifecycle.Pipeline

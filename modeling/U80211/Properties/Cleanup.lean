import U80211.Properties.Consistency

/-!
# The cleanup work and the fields it works on

* `Reachable.cleanup`: a cleanup that works on a context works on the one in
  `association_cleanup_context`, and while that context waits the device has no other access
  point than the context's
-/

namespace U80211

open WorkQueue

variable {s s' : System} {ownAddress : MacAddress}

/-- What links the cleanup work with the guarded fields. -/
structure CleanupInvariant (s : System) : Prop where
  context : ∀ pc c, s.cleanupWork.running = some pc → pc.context = some c →
    s.association.associationCleanupContext = some c
  ap : ∀ c, s.association.associationCleanupContext = some c →
    s.association.ap = none ∨ s.association.ap = some c.ap
  freed : s.cleanupWork.freed = false
  request : s.cleanupWork.request = .idle ∨ s.cleanupWork.request = .queued

theorem Destroys.context_eq {c : AssociationContext} {d : Option AccessPoint} {pc next : CleanupPc}
    {o o' : ContextObjects} (h : Destroys c d pc next o o') :
    pc.context = some c ∧ next.context = some c := by
  cases h <;> exact ⟨rfl, rfl⟩

namespace CleanupInvariant

theorem registered : CleanupInvariant (.registered ownAddress) where
  context := fun _ _ h => by cases h
  ap := fun _ h => by cases h
  freed := rfl
  request := Or.inl rfl

/-- A section that handles a frame or a timeout keeps the invariant. -/
theorem ofSection (h : CleanupInvariant s) (hc : s.association.Consistent) {cause : Cause}
    {r : SectionResult} (hr : SectionStep s.association cause r) :
    CleanupInvariant { s with association := r.association } := by
  cases hr with
  | unchanged _ => exact h
  | authenticated _ _ _ => exact ⟨h.context, h.ap, h.freed, h.request⟩
  | @ended c result hcx he =>
    refine ⟨?_, ?_, h.freed, h.request⟩
    · -- a cleanup with a context excludes a current attempt
      intro pc c' hw hpc
      have hold := h.context pc c' hw hpc
      rw [hc.cleanupContext_of_context hcx] at hold
      cases hold
    · intro c' hcc
      have he : c = c' := Option.some.inj hcc
      subst he
      by_cases hs : result = .success <;> simp [SectionResult.ended, hs]
  | disconnected _ _ _ => exact ⟨h.context, fun _ _ => Or.inl rfl, h.freed, h.request⟩

/-- A move of the cleanup work within the same context keeps the invariant. -/
theorem goto (h : CleanupInvariant s) {pc : CleanupPc} (next : Option CleanupPc)
    (hw : s.cleanupWork.running = some pc)
    (hn : ∀ pc', next = some pc' → ∀ c, pc'.context = some c → pc.context = some c) :
    CleanupInvariant { s with cleanupWork := s.cleanupWork.goto next } :=
  ⟨fun pc' c hpc' hc => h.context pc c hw (hn pc' hpc' c hc), h.ap, h.freed, h.request⟩

/-- A request for the cleanup leaves it queued. -/
theorem enqueue_queued (h : CleanupInvariant s) : s.cleanupWork.enqueue.request = .queued := by
  unfold Work.enqueue
  split
  · rfl
  · next hn =>
    rcases h.request with hidle | hq
    · exact absurd ⟨h.freed, hidle⟩ hn
    · exact hq

/-- Every step keeps the invariant. -/
theorem effect (h : CleanupInvariant s) (hc : s.association.Consistent) {action : Action}
    (he : Effect s action s') : CleanupInvariant s' := by
  cases he with
  | install hcall hp hs hid hg =>
    -- a device with a context to clean up is busy
    have hnone : s.association.associationCleanupContext = none := by
      cases hcc : s.association.associationCleanupContext with
      | none => rfl
      | some c =>
        rw [hc.pending_iff.mpr (by rw [hcc]; rfl)] at hp
        cases hp
    refine ⟨h.context, ?_, h.freed, h.request⟩
    intro c hcc
    rw [show s.association.associationCleanupContext = some c from hcc] at hnone
    cases hnone
  | deauthenticateSecond hcall hs ha => exact ⟨h.context, fun _ _ => Or.inl rfl, h.freed, h.request⟩
  | process hcall hr =>
    have hsec := h.ofSection hc hr
    exact ⟨by simpa using hsec.context, by simpa using hsec.ap, by simpa using h.freed,
      by simpa using h.request⟩
  | timeout ho hw hr =>
    have hsec := h.ofSection hc hr
    exact ⟨by simpa using hsec.context, by simpa using hsec.ap, by simpa using h.freed,
      by simpa using h.request⟩
  | enqueueCleanup hcall =>
    exact ⟨by simpa using h.context, h.ap, by simpa using h.freed, Or.inr h.enqueue_queued⟩
  | timeoutEnqueue ho hw =>
    exact ⟨by simpa using h.context, h.ap, by simpa using h.freed, Or.inr h.enqueue_queued⟩
  | startCleanup hw =>
    obtain ⟨-, -, -, rfl⟩ := Work.start_eq_some hw
    exact ⟨fun pc c hpc hcx => (by cases hpc; cases hcx), h.ap, rfl, Or.inl rfl⟩
  | cleanupFirst hw =>
    refine ⟨?_, h.ap, h.freed, h.request⟩
    intro pc c hpc hcx
    cases hpc
    cases hcc : s.association.associationCleanupContext with
    | none => simp [hcc, CleanupPc.context] at hcx
    | some c' => simpa [hcc, CleanupPc.context] using hcx
  | @cleanupRelease context disconnected hw =>
    have hg := h.goto (some (.freeAuthTimer context disconnected)) hw fun pc' hpc' c hcx => by
      cases hpc'; exact hcx
    exact ⟨hg.context, hg.ap, hg.freed, hg.request⟩
  | @cleanupDestroy _ _ _ next _ _ hw ho hd =>
    have hg := h.goto (some next) hw fun pc' hpc' c hcx => by
      cases hpc'
      rw [hd.context_eq.1, ← hd.context_eq.2, hcx]
    exact ⟨hg.context, hg.ap, hg.freed, hg.request⟩
  | @cleanupReleaseDisconnected context disconnected hw =>
    have hg := h.goto (context.map .second) hw fun pc' hpc' c hcx => by
      cases context with
      | none => cases hpc'
      | some c' =>
        cases hpc'
        exact hcx
    exact ⟨hg.context, hg.ap, hg.freed, hg.request⟩
  | cleanupSecond hw =>
    exact ⟨fun pc c hpc _ => (by cases hpc), fun c hcc => (by cases hcc), h.freed, h.request⟩
  | _ => exact ⟨h.context, h.ap, h.freed, h.request⟩

end CleanupInvariant

theorem Reachable.cleanup (h : Reachable ownAddress s) : CleanupInvariant s := by
  refine Lts.Reachable.invariant (P := CleanupInvariant) .registered ?_ h
  intro s action s' hr ih hs
  have hreach : Reachable ownAddress s := hr
  exact ih.effect hreach.consistent (hreach.effect hs)

end U80211

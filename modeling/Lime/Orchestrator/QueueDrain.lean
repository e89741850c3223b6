import Lime.Orchestrator.SingleFetch

/-!
# No request is stranded in the queue

`encrypt` pushes a request only while another one is ongoing. The thread that clears the
ongoing request (line 274) goes on to look at the queue, and so does the drain of every
synchronous `encrypt`. A queued request thus always has something ahead that will take
it: the ongoing request, whose fetch completion drains the queue, or a thread still
running. The race of `front()` and `pop()` can lose a request, but it leaves none
stranded.

The one statement that ends a thread while the queue is not empty and nothing is
guaranteed ongoing is `fetch_peerBundles`; there the thread's token shows, by
`FetchInv`, that its request is ongoing.

* `runFrame_finish`: how a thread can end.
* `QueueInv.step`: every step keeps the invariant.
* `pipeline_never_strands`: in every reachable state where no thread runs, either the
  ongoing request's fetch awaits its response, or nothing is ongoing, awaited or queued.
-/

namespace Lime

/-- While `encrypt`'s region leaves its thread with nothing to run, a request is ongoing:
it queued its own request behind it. -/
theorem encryptRegion_finish (s : Shared) (r : Request) (ans : RegionAnswer)
    (h : (encryptRegion s r ans).2 = []) : (encryptRegion s r ans).1.ongoing.isSome := by
  revert h
  unfold encryptRegion
  obtain ⟨missing, cache⟩ := missingDevices s.cache r.recipients ans.stored
  dsimp only
  split
  · simp
  · split <;> simp_all

/-- A statement that ends its thread leaves the queue empty or a request ongoing, unless it
is `fetch_peerBundles`, which hands its token to the pending response. -/
theorem runFrame_finish {s s' : Shared} {f : Frame} {c : Choice}
    (h : runFrame s f c = some (s', [])) :
    s'.queue = [] ∨ s'.ongoing.isSome ∨ ∃ r, f.fetchToken = some r ∧ s'.ongoing = s.ongoing := by
  cases f <;> cases c <;> simp only [runFrame, reduceCtorEq] at h
  case encrypt.lookup r ans =>
    have hfin := encryptRegion_finish s r ans
    simp only [Option.some.injEq] at h
    rw [h] at hfin
    exact .inr (.inl (hfin rfl))
  case fetchPeerBundles.next r =>
    cases h
    exact .inr (.inr ⟨r, rfl, rfl⟩)
  case drain.next =>
    split at h
    · simp at h
    · cases h
      cases hq : s.queue <;> cases hon : s.ongoing <;> simp_all
  case checkQueue.next =>
    split at h <;> simp_all
  case front.next =>
    split at h <;> simp_all
  all_goals simp at h

namespace Pipeline

theorem mem_tokens_of_frame {p : Pipeline} {t : Nat} {f : Frame} {rest : List Frame}
    {r : Request} (h : p.threads[t]? = some (f :: rest)) (hr : f.fetchToken = some r) :
    r ∈ p.tokens := by
  obtain ⟨ht, hst⟩ := List.getElem?_eq_some_iff.1 h
  refine List.mem_append_right _ (List.mem_flatMap.2 ⟨f :: rest, hst ▸ List.getElem_mem ht, ?_⟩)
  simp [filterMap_fetchToken_cons, hr]

/-- The ongoing request holds a token, and a queued request has the ongoing request or a
running thread ahead of it. -/
structure QueueInv (p : Pipeline) : Prop where
  ongoing_mem : ∀ r, p.ongoing = some r → r ∈ p.tokens
  queue_served : p.queue ≠ [] → p.ongoing.isSome ∨ ∃ st ∈ p.threads, st ≠ []

theorem QueueInv.init : QueueInv init := ⟨fun _ h => (by cases h), fun h => absurd rfl h⟩

theorem QueueInv.ongoing_mem_step {p p' : Pipeline} (hi : QueueInv p) (hs : TokenStep p p')
    (r : Request) (hr : p'.ongoing = some r) : r ∈ p'.tokens := by
  cases hs with
  | keep hperm hon => exact hperm.mem_iff.2 (hi.ongoing_mem r (hon ▸ hr))
  | claim r' hon htoks => simp_all
  | release hon _ => simp_all

/-- Every step keeps the invariant. -/
theorem QueueInv.step {p p' : Pipeline} {a : Action} (hf : FetchInv p) (hi : QueueInv p)
    (h : p.step a = some p') : QueueInv p' := by
  refine ⟨hi.ongoing_mem_step (hf.tokenStep h), fun hq => ?_⟩
  rcases step_eq_some h with ⟨r, -, rfl⟩ | ⟨r, -, -, rfl⟩ | ⟨t, c, f, rest, s, fs, -, hst, hrun, rfl⟩
  · exact .inr ⟨_, List.mem_append_right _ (List.mem_singleton_self _), List.cons_ne_nil _ _⟩
  · exact .inr ⟨_, List.mem_append_right _ (List.mem_singleton_self _), List.cons_ne_nil _ _⟩
  · by_cases hnil : fs ++ rest = []
    · -- the thread ends here
      obtain ⟨rfl, rfl⟩ := List.append_eq_nil.1 hnil
      rcases runFrame_finish hrun with hq' | hon | ⟨r, hr, hon⟩
      · exact absurd hq' hq
      · exact .inl hon
      · exact .inl (by simp [hon, hf.ongoing_eq r (mem_tokens_of_frame hst hr)])
    · exact .inr ⟨_, List.mem_set _ _ (List.getElem?_eq_some_iff.1 hst).1 _, hnil⟩

theorem QueueInv.reachable {p : Pipeline} (hp : p.Reachable) : FetchInv p ∧ QueueInv p := by
  induction hp with
  | init => exact ⟨.init, .init⟩
  | step a _ h ih => exact ⟨ih.1.step h, ih.2.step ih.1 h⟩

end Pipeline

/-- In every reachable state where no thread is inside `encrypt`, `processEncryptionQueue`
or a fetch completion, either the ongoing request's fetch is the only one awaiting its
response (its completion will drain the queue), or nothing is ongoing, awaited or queued:
no request is left in the queue with nothing to take it. -/
theorem pipeline_never_strands {p : Pipeline} (hp : p.Reachable) (hq : p.Quiescent) :
    (p.ongoing = none ∧ p.awaiting = [] ∧ p.queue = []) ∨
      ∃ r, p.ongoing = some r ∧ p.awaiting = [r] := by
  obtain ⟨hf, hi⟩ := Pipeline.QueueInv.reachable hp
  have hidle : ¬∃ st ∈ p.threads, st ≠ [] := fun ⟨st, hst, hne⟩ => hne (hq st hst)
  have htoks : p.tokens = p.awaiting := by
    have : tokensOf p.threads = [] := List.flatMap_eq_nil_iff.2 fun st hst => by simp [hq st hst]
    simp [Pipeline.tokens, this]
  rcases haw : p.awaiting with _ | ⟨r, _ | ⟨r', rest⟩⟩
  · have hon : p.ongoing = none := Option.eq_none_iff_forall_not_mem.2 fun r hr => by
      simpa [htoks, haw] using hi.ongoing_mem r hr
    refine .inl ⟨hon, rfl, ?_⟩
    by_contra hne
    exact (hi.queue_served hne).elim (by simp [hon]) hidle
  · exact .inr ⟨r, hf.ongoing_eq r (by simp [htoks, haw]), rfl⟩
  · have := hf.length_le
    simp [htoks, haw] at this

/-- Request 2 is queued behind request 1, whose fetch awaits its response. -/
theorem pipeline_never_strands_queued :
    fetchAndQueue.Reachable ∧ fetchAndQueue.Quiescent ∧ fetchAndQueue.queue = [requestTo 2 "b"] ∧
      ((fetchAndQueue.ongoing = none ∧ fetchAndQueue.awaiting = [] ∧ fetchAndQueue.queue = []) ∨
        ∃ r, fetchAndQueue.ongoing = some r ∧ fetchAndQueue.awaiting = [r]) :=
  have hq : fetchAndQueue.Quiescent := by decide
  ⟨fetchAndQueue_reachable, hq, rfl, pipeline_never_strands fetchAndQueue_reachable hq⟩

end Lime

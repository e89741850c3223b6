import Lime.Orchestrator.QueueDrain
import Mathlib.Logic.Relation

/-!
# Callees that throw

Three callees of `encrypt` may throw a `BctbxException`: `cache_DR_sessions` and
`encryptMessage` when the local storage fails, and `fetch_peerBundles`. Neither
`encrypt` nor `processEncryptionQueue` catches, and the `unique_lock` only releases
`m_mutex` as the exception passes: what the statement did before the call stays, nothing
after it runs, and the exception leaves every frame of its thread, up to the application
that called `encrypt` or the X3DH engine whose response handling called `encrypt` and
`processEncryptionQueue`.

The region sets `m_ongoing_encryption` before it releases the mutex and calls
`fetch_peerBundles`. A fetch that throws thus leaves its request ongoing with no response
to come, and nothing in `Lime` gives the slot back: every later request that misses a
session is queued behind it. An `encrypt` restarted from the queue runs while nothing is
ongoing; when its lookups throw, the requests behind it stay queued with nothing
ongoing, and the restarted request gets no callback.

How the X3DH engine handles an exception that reaches it is not in src: the model follows
a run in which every callee returns up to one throw, and after it, runs in which every
callee returns.

* `Pipeline.raise`: the callee thread `t` calls throws.
* `callee_failure_breaks_pipeline`: what a throw of `fetch_peerBundles`, or of the lookups
  of an `encrypt` run while nothing is ongoing, leaves.
* `failed_fetch_blocks_pipeline`: once the ongoing request holds no token, every run in
  which the callees return keeps it ongoing.
-/

namespace Lime

/-- Where a callee of `encrypt` throws a `BctbxException`. -/
inductive Raise where
  /-- `cache_DR_sessions` (line 150) fails in the local storage before it loads a
  session. -/
  | cacheDRSessions
  /-- `encryptMessage` (line 169), once `cache_DR_sessions` has loaded the sessions the
  local storage holds, `stored`. -/
  | encryptMessage (stored : DeviceId → Option DR)
  /-- `m_X3DH->fetch_peerBundles` (line 164). -/
  | fetchPeerBundles

/-- The shared state when the callee the statement at `f` calls throws `e`: what the
statement did before the call stays, and nothing after it runs. A statement that does not
call that callee has no such state. -/
def raiseFrame (s : Shared) : Frame → Raise → Option Shared
  | .encrypt r, .cacheDRSessions =>
    some { s with cache := (buildInternalRecipients s.cache r.recipients).2 }
  | .encrypt r, .encryptMessage stored =>
    if (missingDevices s.cache r.recipients stored).1.isEmpty then
      some { s with cache := (missingDevices s.cache r.recipients stored).2 }
    else none
  | .fetchPeerBundles r, .fetchPeerBundles => some { s with log := s.log ++ [.fetch r] }
  | _, _ => none

/-- A throw keeps the ongoing request, the queue and the awaited fetches, and logs at most
the call of `fetch_peerBundles`. -/
theorem raiseFrame_spec {s s' : Shared} {f : Frame} {e : Raise} (h : raiseFrame s f e = some s') :
    s'.ongoing = s.ongoing ∧ s'.queue = s.queue ∧ s'.awaiting = s.awaiting ∧
      (s'.log = s.log ∨ ∃ r, s'.log = s.log ++ [.fetch r]) := by
  cases f <;> cases e <;> simp only [raiseFrame, reduceCtorEq] at h
  case encrypt.cacheDRSessions => cases h; exact ⟨rfl, rfl, rfl, .inl rfl⟩
  case encrypt.encryptMessage => split at h <;> cases h; exact ⟨rfl, rfl, rfl, .inl rfl⟩
  case fetchPeerBundles.fetchPeerBundles r => cases h; exact ⟨rfl, rfl, rfl, .inr ⟨r, rfl⟩⟩

namespace Pipeline

/-- The callee that thread `t`'s next statement calls throws `e`. Nothing in `encrypt` or
`processEncryptionQueue` catches it: the thread ends. -/
def raise (p : Pipeline) (t : Nat) (e : Raise) : Option Pipeline :=
  match p.threads[t]? with
  | some (f :: _) => (raiseFrame p.toShared f e).map fun s => ⟨s, p.threads.set t []⟩
  | _ => none

theorem raise_eq_some {p p' : Pipeline} {t : Nat} {e : Raise} (h : p.raise t e = some p') :
    ∃ f rest s, p.threads[t]? = some (f :: rest) ∧ raiseFrame p.toShared f e = some s ∧
      p' = ⟨s, p.threads.set t []⟩ := by
  unfold raise at h
  split at h
  · rename_i f rest hst
    obtain ⟨s, hs, rfl⟩ := Option.map_eq_some'.1 h
    exact ⟨f, rest, s, hst, hs, rfl⟩
  · cases h

/-- A throw changes neither the ongoing request, the queue, the awaited fetches nor the
callbacks. -/
theorem raise_spec {p p' : Pipeline} {t : Nat} {e : Raise} (h : p.raise t e = some p') :
    p'.ongoing = p.ongoing ∧ p'.queue = p.queue ∧ p'.awaiting = p.awaiting ∧
      p'.callbacks = p.callbacks := by
  obtain ⟨f, rest, s, -, hs, rfl⟩ := raise_eq_some h
  obtain ⟨hon, hq, haw, hlog⟩ := raiseFrame_spec hs
  refine ⟨hon, hq, haw, funext fun r => ?_⟩
  rcases hlog with hlog | ⟨r', hlog⟩ <;> simp [callbacks, hlog]

/-- A throw at thread `t`, whose stack is `st`, drops the tokens of `st`. -/
theorem tokens_raise {p p' : Pipeline} {t : Nat} {e : Raise} {st : List Frame}
    (h : p.raise t e = some p') (hst : p.threads[t]? = some st) :
    (p'.tokens ++ st.filterMap Frame.fetchToken).Perm p.tokens := by
  obtain ⟨f, rest, s, -, hs, rfl⟩ := raise_eq_some h
  simpa only [tokens, (raiseFrame_spec hs).2.2.1, List.append_assoc, List.filterMap_nil,
    List.append_nil] using
    (tokensOf_set hst []).append_left p.awaiting

/-- A throw at a thread that carried at least as many tokens as there were leaves none. -/
theorem tokens_raise_eq_nil {p p' : Pipeline} {t : Nat} {e : Raise} {st : List Frame}
    (h : p.raise t e = some p') (hst : p.threads[t]? = some st)
    (hle : p.tokens.length ≤ (st.filterMap Frame.fetchToken).length) : p'.tokens = [] := by
  have hlen := (tokens_raise h hst).length_eq
  rw [List.length_append] at hlen
  exact List.eq_nil_of_length_eq_zero (by omega)

end Pipeline

/-- A callee of `encrypt` that throws leaves the pipeline inconsistent. When it is
`fetch_peerBundles`, the request whose fetch threw stays `m_ongoing_encryption`, no fetch
awaits a response and no thread holds a token to clear it, and the request gets no
callback. When it is a lookup of an `encrypt` run while nothing is ongoing (a request
restarted from the queue), the queue stays as it was with nothing ongoing and no fetch to
drain it, and the request gets no callback. -/
theorem callee_failure_breaks_pipeline {p p' : Pipeline} (hp : p.Reachable) {t : Nat} {e : Raise}
    (h : p.raise t e = some p') :
    (∀ r rest, p.threads[t]? = some (.fetchPeerBundles r :: rest) →
      p'.ongoing = some r ∧ p'.tokens = [] ∧ p'.callbacks r = p.callbacks r) ∧
    ∀ r rest, p.threads[t]? = some (.encrypt r :: rest) → p.ongoing = none →
      p'.ongoing = none ∧ p'.queue = p.queue ∧ p'.tokens = [] ∧ p'.callbacks r = p.callbacks r := by
  have hi := Pipeline.FetchInv.reachable hp
  obtain ⟨hon, hq, -, hcb⟩ := Pipeline.raise_spec h
  refine ⟨fun r rest ht => ⟨hon.trans (hi.ongoing_eq r (Pipeline.mem_tokens_of_frame ht rfl)),
    ?_, by rw [hcb]⟩, fun r rest ht hnone => ⟨hon.trans hnone, hq, ?_, by rw [hcb]⟩⟩
  · -- the thread held the only token
    refine Pipeline.tokens_raise_eq_nil h ht (Nat.le_trans hi.length_le ?_)
    simp [filterMap_fetchToken_cons, Frame.fetchToken]
  · exact Pipeline.tokens_raise_eq_nil h ht (by simp [hi.tokens_eq_nil hnone])

/-- Request 1, to a device with no session, has called `encrypt` on a fresh orchestrator:
its region took the ongoing slot, and thread 0 is about to call `fetch_peerBundles`. -/
def fetchIssuing : Pipeline :=
  ⟨⟨some (requestTo 1 "a"), [], ⟨fun _ => none⟩, [], [.call (requestTo 1 "a")]⟩,
    [[.fetchPeerBundles (requestTo 1 "a")]]⟩

theorem fetchIssuing_reachable : fetchIssuing.Reachable :=
  Pipeline.reachable_run .init (show Pipeline.init.run
    [.call (requestTo 1 "a"), .run 0 noStoredSession] = some fetchIssuing from rfl)

/-- `fetchIssuing` once its `fetch_peerBundles` threw: no thread runs. -/
def blockedByFetch : Pipeline :=
  ⟨⟨some (requestTo 1 "a"), [], ⟨fun _ => none⟩, [],
    [.call (requestTo 1 "a"), .fetch (requestTo 1 "a")]⟩, [[]]⟩

/-- The state after requests 2 and 3 queue behind the fetch of request 1 and the
completion of that fetch, having encrypted request 1, restarts request 2 from the queue:
thread 3 is about to run request 2's region, with nothing ongoing and request 3 queued. -/
def restartedFromQueue : Pipeline :=
  ⟨⟨none, [requestTo 3 "c"], (⟨fun _ => none⟩ : Cache).emplace "a" ⟨1, true⟩, [],
    [.call (requestTo 1 "a"), .fetch (requestTo 1 "a"), .call (requestTo 2 "b"),
      .enqueue (requestTo 2 "b"), .call (requestTo 3 "c"), .enqueue (requestTo 3 "c"),
      .encryptMessage (requestTo 1 "a"), .callback (requestTo 1 "a") .success]⟩,
    [[], [], [], [.encrypt (requestTo 2 "b")]]⟩

/-- `restartedFromQueue` once the lookups of request 2 have thrown: no thread runs. -/
def restartFailed : Pipeline := { restartedFromQueue with threads := [[], [], [], []] }

/-- When `fetch_peerBundles` of request 1 throws, request 1 stays ongoing with no token
left to clear it and no callback. When the lookups of the restarted request 2 throw,
nothing runs any more, request 3 stays queued with nothing ongoing and no fetch awaiting a
response, and request 2 never got a callback. -/
theorem callee_failure_breaks_pipeline_fetch_and_restart :
    (fetchIssuing.Reachable ∧ fetchIssuing.raise 0 .fetchPeerBundles = some blockedByFetch ∧
      blockedByFetch.ongoing = some (requestTo 1 "a") ∧ blockedByFetch.tokens = [] ∧
      blockedByFetch.callbacks (requestTo 1 "a") = []) ∧
    (restartedFromQueue.Reachable ∧ restartedFromQueue.raise 3 .cacheDRSessions = some restartFailed ∧
      restartFailed.Quiescent ∧ restartFailed.ongoing = none ∧
      restartFailed.queue = [requestTo 3 "c"] ∧ restartFailed.tokens = [] ∧
      restartFailed.callbacks (requestTo 2 "b") = []) := by
  have hfetch : fetchIssuing.raise 0 .fetchPeerBundles = some blockedByFetch := rfl
  have h₁ := (callee_failure_breaks_pipeline fetchIssuing_reachable hfetch).1 (requestTo 1 "a") [] rfl
  have hp : restartedFromQueue.Reachable := Pipeline.reachable_run .init
    (show Pipeline.init.run [.call (requestTo 1 "a"), .run 0 noStoredSession, .run 0 .next,
      .call (requestTo 2 "b"), .run 1 noStoredSession, .call (requestTo 3 "c"),
      .run 2 noStoredSession, .respond (requestTo 1 "a"), .run 3 (.insert "a" ⟨1, true⟩),
      .run 3 .reencrypt, .run 3 noStoredSession, .run 3 .next, .run 3 .next, .run 3 .next,
      .run 3 .next, .run 3 .next, .run 3 .next] = some restartedFromQueue from rfl)
  have hraise : restartedFromQueue.raise 3 .cacheDRSessions = some restartFailed := rfl
  have h₂ := (callee_failure_breaks_pipeline hp hraise).2 (requestTo 2 "b") [] rfl rfl
  exact ⟨⟨fetchIssuing_reachable, hfetch, h₁.1, h₁.2.1, h₁.2.2.trans (by decide)⟩,
    ⟨hp, hraise, by decide, h₂.1, h₂.2.1, h₂.2.2.1, h₂.2.2.2.trans (by decide)⟩⟩

namespace Pipeline

/-- The runs from `p` to `q` in which every callee returns. -/
def Steps (p q : Pipeline) : Prop :=
  Relation.ReflTransGen (fun p p' => ∃ a, p.step a = some p') p q

/-- A step from a state whose ongoing request holds no token keeps it so: no region can
take the slot, and no frame or pending response carries a token to give it back. -/
theorem step_of_blocked {p p' : Pipeline} {r : Request} {a : Action} (hon : p.ongoing = some r)
    (htok : p.tokens = []) (h : p.step a = some p') : p'.ongoing = some r ∧ p'.tokens = [] := by
  simp only [tokens, List.append_eq_nil] at htok
  rcases step_eq_some h with ⟨r', -, rfl⟩ | ⟨r', -, hr, -⟩ | ⟨t, c, f, rest, s, fs, -, hst, hrun, rfl⟩
  · exact ⟨hon, by simp [tokens, htok, Frame.fetchToken]⟩
  · simp [htok.1] at hr
  · have hf : f.fetchToken = none := Option.eq_none_iff_forall_not_mem.2 fun r' hr' => by
      simpa [tokens, htok] using mem_tokens_of_frame hst hr'
    cases runFrame_tokenEffect hrun with
    | keep hon' haw htok' =>
      have hperm := tokens_run hst fs
      rw [htok', hf, htok.2] at hperm
      exact ⟨hon'.trans hon, by simpa [tokens, haw, htok.1] using hperm⟩
    | claim _ hnone => simp [hon] at hnone
    | issue _ hf' => simp [hf] at hf'
    | release _ hf' => simp [hf] at hf'

end Pipeline

/-- Once the ongoing request holds no token, as a fetch that threw leaves it, every run in
which the callees return keeps it ongoing with no token anywhere: no response can come to
clear it, and every `encrypt` region queues its request or encrypts at once, so no bundle
is fetched again. -/
theorem failed_fetch_blocks_pipeline {p q : Pipeline} {r : Request} (hon : p.ongoing = some r)
    (htok : p.tokens = []) (hrun : p.Steps q) :
    q.ongoing = some r ∧ q.tokens = [] ∧ ∀ r' ans,
      ((encryptRegion q.toShared r' ans).2 = [] ∧
          (encryptRegion q.toShared r' ans).1.queue = q.queue ++ [r']) ∨
        ∃ st, (encryptRegion q.toShared r' ans).2 = [.callback r' st] := by
  have hq : q.ongoing = some r ∧ q.tokens = [] := by
    induction hrun with
    | refl => exact ⟨hon, htok⟩
    | tail _ hstep ih =>
      obtain ⟨a, ha⟩ := hstep
      exact Pipeline.step_of_blocked ih.1 ih.2 ha
  exact ⟨hq.1, hq.2, encryptRegion_of_ongoing hq.1⟩

/-- `blockedByFetch` once request 2, to a device with no session, called `encrypt`. -/
def queuedBehindFetch : Pipeline :=
  ⟨⟨some (requestTo 1 "a"), [requestTo 2 "b"], ⟨fun _ => none⟩, [],
    [.call (requestTo 1 "a"), .fetch (requestTo 1 "a"), .call (requestTo 2 "b"),
      .enqueue (requestTo 2 "b")]⟩, [[], []]⟩

/-- The fetch of request 1 throws on a fresh orchestrator; request 2 is then queued behind
request 1, which stays ongoing with no token. -/
theorem failed_fetch_blocks_pipeline_first_call :
    fetchIssuing.Reachable ∧ fetchIssuing.raise 0 .fetchPeerBundles = some blockedByFetch ∧
      blockedByFetch.ongoing = some (requestTo 1 "a") ∧ blockedByFetch.tokens = [] ∧
      blockedByFetch.Steps queuedBehindFetch ∧
      queuedBehindFetch.ongoing = some (requestTo 1 "a") ∧ queuedBehindFetch.tokens = [] :=
  have hrun : blockedByFetch.Steps queuedBehindFetch :=
    .tail (.single ⟨.call (requestTo 2 "b"), rfl⟩) ⟨.run 1 noStoredSession, rfl⟩
  have hon : blockedByFetch.ongoing = some (requestTo 1 "a") := rfl
  have htok : blockedByFetch.tokens = [] := rfl
  have h := failed_fetch_blocks_pipeline hon htok hrun
  ⟨fetchIssuing_reachable, rfl, hon, htok, hrun, h.1, h.2.1⟩

end Lime

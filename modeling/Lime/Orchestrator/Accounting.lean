import Lime.Orchestrator.QueueDrain

/-!
# Where the requests go

Every request passed to `encrypt` is held somewhere until its callback is invoked: by the
frame running it (`encrypt`, `fetch_peerBundles`, the callback, the completion of its
fetch), by the queue, or by the fetches awaiting their response. Each statement moves its
request from one holder to the next, or to the callback, without losing or copying it.

The one exception is `pop()` in `processEncryptionQueue`: it removes the queue's head,
which is the request its `front()` read unless a drain ran between the two. A run in which
every `pop()` removes the request its `front()` read thus answers every call exactly once
when it comes to rest.

* `Balanced`, `runFrame_balanced`: what one statement does to the requests.
* `Pipeline.Accounted.step`: every step but a `pop()` that removes another request keeps
  the count of every request.
* `race_free_pipeline_accounts_every_call`: in every state of a run without that race,
  each request has had as many calls as callbacks, plus the places it is still held.
* `race_free_pipeline_answers_every_call`: when such a run comes to rest with no fetch
  awaiting its response, every call has had exactly one callback.
-/

namespace Lime

/-- The request a call of `encrypt` logged. -/
def Event.called : Event → Option Request
  | .call r => some r
  | _ => none

/-- The request a callback was invoked for. -/
def Event.answered : Event → Option Request
  | .callback r _ => some r
  | _ => none

/-- The requests passed to `encrypt`, once per call. -/
def callsOf (log : List Event) : List Request := log.filterMap Event.called

/-- The requests whose callback was invoked, once per callback. -/
def answersOf (log : List Event) : List Request := log.filterMap Event.answered

@[simp] theorem callsOf_append (log log' : List Event) :
    callsOf (log ++ log') = callsOf log ++ callsOf log' := List.filterMap_append ..

@[simp] theorem answersOf_append (log log' : List Event) :
    answersOf (log ++ log') = answersOf log ++ answersOf log' := List.filterMap_append ..

@[simp] theorem callsOf_singleton (e : Event) : callsOf [e] = e.called.toList := by
  cases e <;> rfl

@[simp] theorem answersOf_singleton (e : Event) : answersOf [e] = e.answered.toList := by
  cases e <;> rfl

theorem length_callbacks (p : Pipeline) (r : Request) :
    (p.callbacks r).length = (answersOf p.log).count r := by
  unfold Pipeline.callbacks answersOf
  induction p.log with
  | nil => rfl
  | cons e log ih =>
    cases e <;> simp only [List.filterMap_cons, Event.answered, ih]
    case callback r' st => by_cases h : r' = r <;> simp [h, List.count_cons, ih]

/-- The request a frame holds for its caller until it is answered. The drain and the
statements of `processEncryptionQueue` hold none: the request `front()` read stays in the
queue until `pop()`. -/
def Frame.request : Frame → Option Request
  | .encrypt r | .fetchPeerBundles r | .callback r _ | .completion r => some r
  | _ => none

/-- Replacing the element at `t` of `l` trades its image under `g` for that of the new one. -/
theorem count_flatMap_set {α β : Type} [BEq β] (g : α → List β) {l : List α} {t : Nat}
    {a : α} (h : l[t]? = some a) (a' : α) (x : β) :
    ((l.set t a').flatMap g).count x + (g a).count x = (l.flatMap g).count x + (g a').count x := by
  induction l generalizing t with
  | nil => simp at h
  | cons b l ih =>
    cases t with
    | zero =>
      obtain rfl : b = a := by simpa using h
      simp only [List.set_cons_zero, List.flatMap_cons, List.count_append]
      omega
    | succ t =>
      have := ih (by simpa using h)
      simp only [List.set_cons_succ, List.flatMap_cons, List.count_append]
      omega

/-! ## What one statement does to the requests -/

/-- A statement at `f`, replaced by the frames `fs`, logs no call and moves the requests it
holds: every request is answered or held as often after it as before. -/
structure Balanced (s s' : Shared) (f : Frame) (fs : List Frame) : Prop where
  calls_eq : callsOf s'.log = callsOf s.log
  count_eq : ∀ x, (answersOf s'.log).count x + (s'.queue ++ s'.awaiting).count x +
      (fs.filterMap Frame.request).count x =
    (answersOf s.log).count x + (s.queue ++ s.awaiting).count x + f.request.toList.count x

theorem encryptRegion_balanced (s : Shared) (r : Request) (ans : RegionAnswer) :
    Balanced s (encryptRegion s r ans).1 (.encrypt r) (encryptRegion s r ans).2 := by
  unfold encryptRegion
  obtain ⟨missing, cache⟩ := missingDevices s.cache r.recipients ans.stored
  dsimp only
  split
  · exact ⟨by simp [Event.called], fun x => by simp [Event.answered, Frame.request]⟩
  · split
    · exact ⟨rfl, fun x => by simp [Frame.request]⟩
    · exact ⟨by simp [Event.called], fun x => by
        simp only [answersOf_append, answersOf_singleton, Event.answered, List.count_append]
        simp [Frame.request, List.count_cons]; omega⟩

/-- Every statement balances its requests, `pop()` provided it removes the request its
`front()` read. -/
theorem runFrame_balanced {s s' : Shared} {f : Frame} {c : Choice} {fs : List Frame}
    (h : runFrame s f c = some (s', fs)) (hpop : ∀ r, f = .pop r → s.queue.head? = some r) :
    Balanced s s' f fs := by
  cases f <;> cases c <;> simp only [runFrame, reduceCtorEq] at h
  case encrypt.lookup r ans =>
    have hb := encryptRegion_balanced s r ans
    simp only [Option.some.injEq] at h
    rwa [h] at hb
  case drain.next =>
    split at h <;> cases h
    · exact ⟨rfl, fun x => by simp [*, Frame.request, List.count_cons]; omega⟩
    · exact ⟨rfl, fun x => by simp [Frame.request]⟩
  case checkQueue.next =>
    cases h
    exact ⟨rfl, fun x => by split <;> simp [Frame.request]⟩
  case front.next =>
    split at h <;> cases h
    exact ⟨rfl, fun x => by simp [Frame.request]⟩
  case pop.next r =>
    cases h
    obtain ⟨q, hq⟩ : ∃ q, s.queue = r :: q := by
      cases hs : s.queue with
      | nil => simp [hs] at hpop
      | cons r' q => exact ⟨q, by simpa [hs] using hpop⟩
    refine ⟨rfl, fun x => ?_⟩
    simp only [hq, List.tail_cons, List.filterMap_cons, List.filterMap_nil, Frame.request,
      List.cons_append, List.count_cons, Option.toList, List.count_nil]
    omega
  -- the other statements log at most a callback, and hand their request on or answer it
  all_goals cases h
  all_goals exact ⟨by simp [Event.called], fun x => by simp [Event.answered, Frame.request] <;> omega⟩

/-! ## Runs without the race -/

namespace Pipeline

/-- Every request the pipeline holds, once per hold: queued, awaiting the response to its
fetch, or held by a frame. -/
def held (p : Pipeline) : List Request :=
  p.queue ++ p.awaiting ++ p.threads.flatMap (·.filterMap Frame.request)

/-- Whether `a` runs a `pop()` that removes something other than the request its `front()`
read: the head of the queue changed between the two, which only a drain does. -/
def popsOther (p : Pipeline) : Action → Bool
  | .run t _ =>
    match p.threads[t]? with
    | some (.pop r :: _) => p.queue.head? != some r
    | _ => false
  | _ => false

/-- The states reached by runs in which every `pop()` removes the request its `front()`
read. -/
inductive RaceFreeReachable : Pipeline → Prop
  | init : RaceFreeReachable init
  | step {p p' : Pipeline} (a : Action) : RaceFreeReachable p → p.popsOther a = false →
      p.step a = some p' → RaceFreeReachable p'

theorem RaceFreeReachable.reachable {p : Pipeline} (hp : p.RaceFreeReachable) : p.Reachable := by
  induction hp with
  | init => exact .init
  | step a _ _ h ih => exact .step a ih h

/-- Run a list of actions from `p`, failing at a `pop()` that removes another request than
the one its `front()` read. -/
def runRaceFree (p : Pipeline) : List Action → Option Pipeline
  | [] => some p
  | a :: as => if p.popsOther a then none else (p.step a).bind fun p' => p'.runRaceFree as

theorem raceFreeReachable_run {p p' : Pipeline} (hp : p.RaceFreeReachable) {as : List Action}
    (h : p.runRaceFree as = some p') : p'.RaceFreeReachable := by
  induction as generalizing p with
  | nil => cases h; exact hp
  | cons a as ih =>
    simp only [runRaceFree] at h
    split at h
    · cases h
    · obtain ⟨q, hq, hrun⟩ := Option.bind_eq_some.1 h
      exact ih (.step a hp (Bool.eq_false_iff.2 ‹_›) hq) hrun

/-- Every call of `encrypt` is answered by a callback or still held, once per call. -/
def Accounted (p : Pipeline) : Prop :=
  ∀ x, (callsOf p.log).count x = (answersOf p.log).count x + p.held.count x

/-- Every step but a `pop()` that removes another request than its `front()` read keeps
the count of every request. -/
theorem Accounted.step {p p' : Pipeline} {a : Action} (hi : Accounted p)
    (hrace : p.popsOther a = false) (h : p.step a = some p') : Accounted p' := by
  rcases step_eq_some h with ⟨r, -, rfl⟩ | ⟨r, -, hr, rfl⟩ | ⟨t, c, f, rest, s, fs, rfl, hst, hrun, rfl⟩
  · intro x
    have := hi x
    simp only [held, List.flatMap_append, List.count_append] at this ⊢
    simp [Event.called, Event.answered, Frame.request]
    omega
  · intro x
    have := hi x
    have herase := (List.perm_cons_erase hr).count_eq x
    simp only [held, List.flatMap_append, List.count_append, List.count_cons] at this herase ⊢
    simp only [List.flatMap_cons, List.flatMap_nil, List.filterMap_cons, List.filterMap_nil,
      Frame.request, List.append_nil, List.count_cons, List.count_nil]
    omega
  · have hpop (r) (hf : f = .pop r) : p.queue.head? = some r := by
      simpa [popsOther, hst, hf] using hrace
    have hb := runFrame_balanced hrun hpop
    intro x
    have := hi x
    have hset := count_flatMap_set (·.filterMap Frame.request) hst (fs ++ rest) x
    have hcount := hb.count_eq x
    simp only [held, hb.calls_eq, List.filterMap_append, List.filterMap_cons, List.count_append] at this hset hcount ⊢
    cases hreq : f.request <;> simp only [hreq, Option.toList, List.count_nil, List.count_cons] at hset hcount <;>
      omega

theorem Accounted.raceFreeReachable {p : Pipeline} (hp : p.RaceFreeReachable) : Accounted p := by
  induction hp with
  | init => exact fun _ => rfl
  | step a _ hrace h ih => exact ih.step hrace h

/-- A state of a race-free run that holds nothing has answered every call exactly once. -/
theorem RaceFreeReachable.callbacks_eq_calls {p : Pipeline} (hp : p.RaceFreeReachable)
    (hheld : p.held = []) (r : Request) : (p.callbacks r).length = (callsOf p.log).count r := by
  rw [length_callbacks, Accounted.raceFreeReachable hp r, hheld, List.count_nil, Nat.add_zero]

theorem Quiescent.flatMap_threads {p : Pipeline} (hq : p.Quiescent) {β : Type}
    (g : List Frame → List β) (hg : g [] = []) : p.threads.flatMap g = [] :=
  List.flatMap_eq_nil_iff.2 fun st hst => by rw [hq st hst, hg]

/-- At rest, the pipeline holds only what is queued or awaits a response. -/
theorem Quiescent.held_eq {p : Pipeline} (hq : p.Quiescent) (hqueue : p.queue = [])
    (haw : p.awaiting = []) : p.held = [] := by
  simp [held, hqueue, haw, hq.flatMap_threads (·.filterMap Frame.request) rfl]

/-- At rest, the fetches awaiting a response are the only tokens: none, or the one of the
ongoing request. -/
theorem Quiescent.awaiting_cases {p : Pipeline} (hp : p.Reachable) (hq : p.Quiescent) :
    p.awaiting = [] ∨ ∃ r, p.awaiting = [r] ∧ p.ongoing = some r := by
  have hf := FetchInv.reachable hp
  have htoks : p.tokens = p.awaiting := by
    simp [tokens, tokensOf, hq.flatMap_threads (·.filterMap Frame.fetchToken) rfl]
  rcases haw : p.awaiting with _ | ⟨r, rest⟩
  · exact .inl rfl
  · have hlen := hf.length_le
    rw [htoks, haw, List.length_cons] at hlen
    obtain rfl : rest = [] := List.eq_nil_of_length_eq_zero (by omega)
    exact .inr ⟨r, rfl, hf.ongoing_eq r (by simp [htoks, haw])⟩

/-- At rest with no fetch awaiting its response, nothing is ongoing or queued. -/
theorem Quiescent.idle_of_awaiting_nil {p : Pipeline} (hp : p.Reachable) (hq : p.Quiescent)
    (haw : p.awaiting = []) : p.ongoing = none ∧ p.queue = [] := by
  obtain ⟨-, hi⟩ := QueueInv.reachable hp
  have hon : p.ongoing = none := Option.eq_none_iff_forall_not_mem.2 fun r hr => by
    simpa [tokens, tokensOf, haw, hq.flatMap_threads (·.filterMap Frame.fetchToken) rfl] using
      hi.ongoing_mem r hr
  refine ⟨hon, ?_⟩
  by_contra hne
  exact (hi.queue_served hne).elim (by simp [hon]) fun ⟨st, hst, hne'⟩ => hne' (hq st hst)

end Pipeline

/-- Request 1, to device `a`, fetches a bundle; the completion of the fetch stores `a`'s
session, encrypts request 1 and finds the queue empty. -/
def answerFirstSchedule : List Action :=
  [.call (requestTo 1 "a"), .run 0 noStoredSession, .run 0 .next, .respond (requestTo 1 "a"),
   .run 1 (.insert "a" ⟨1, true⟩), .run 1 .reencrypt, .run 1 noStoredSession, .run 1 .next,
   .run 1 .next, .run 1 .next, .run 1 .next]

/-- The state `answerFirstSchedule` ends in: no thread runs, request 1 has had its callback. -/
def firstAnswered : Pipeline :=
  ⟨⟨none, [], (⟨fun _ => none⟩ : Cache).emplace "a" ⟨1, true⟩, [],
    [.call (requestTo 1 "a"), .fetch (requestTo 1 "a"), .encryptMessage (requestTo 1 "a"),
      .callback (requestTo 1 "a") .success]⟩, [[], []]⟩

/-- In every state of a run in which each `pop()` removes the request its `front()` read,
each request has been passed to `encrypt` as many times as it has had a callback, plus the
times the pipeline still holds it: queued, awaiting the response to its fetch, or in a
frame. No request is lost, and none is answered twice. -/
theorem race_free_pipeline_accounts_every_call {p : Pipeline} (hp : p.RaceFreeReachable)
    (r : Request) : (callsOf p.log).count r = (p.callbacks r).length + p.held.count r := by
  rw [length_callbacks]
  exact Pipeline.Accounted.raceFreeReachable hp r

theorem race_free_pipeline_accounts_every_call_first :
    firstAnswered.RaceFreeReachable ∧
      (callsOf firstAnswered.log).count (requestTo 1 "a") =
        (firstAnswered.callbacks (requestTo 1 "a")).length +
          firstAnswered.held.count (requestTo 1 "a") :=
  have hp : firstAnswered.RaceFreeReachable := Pipeline.raceFreeReachable_run .init
    (show Pipeline.init.runRaceFree answerFirstSchedule = some firstAnswered from rfl)
  ⟨hp, race_free_pipeline_accounts_every_call hp _⟩

/-- When a run in which each `pop()` removes the request its `front()` read comes to rest
with no fetch awaiting its response, nothing is ongoing or queued, and every request has
had exactly as many callbacks as calls of `encrypt`. -/
theorem race_free_pipeline_answers_every_call {p : Pipeline} (hp : p.RaceFreeReachable)
    (hq : p.Quiescent) (haw : p.awaiting = []) :
    p.ongoing = none ∧ p.queue = [] ∧ ∀ r, (p.callbacks r).length = (callsOf p.log).count r := by
  obtain ⟨hon, hqueue⟩ := hq.idle_of_awaiting_nil hp.reachable haw
  exact ⟨hon, hqueue, hp.callbacks_eq_calls (hq.held_eq hqueue haw)⟩

theorem race_free_pipeline_answers_every_call_first :
    firstAnswered.RaceFreeReachable ∧ firstAnswered.Quiescent ∧ firstAnswered.awaiting = [] ∧
      firstAnswered.ongoing = none ∧ firstAnswered.queue = [] ∧
      ∀ r, (firstAnswered.callbacks r).length = (callsOf firstAnswered.log).count r :=
  have hp : firstAnswered.RaceFreeReachable := Pipeline.raceFreeReachable_run .init
    (show Pipeline.init.runRaceFree answerFirstSchedule = some firstAnswered from rfl)
  have hq : firstAnswered.Quiescent := by decide
  ⟨hp, hq, rfl, race_free_pipeline_answers_every_call hp hq rfl⟩

end Lime

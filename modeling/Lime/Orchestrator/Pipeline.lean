import Lime.Orchestrator.Recipients

/-!
# The asynchronous encryption pipeline

`Lime::encrypt` either encrypts at once, or, when some recipient has no session, fetches
key bundles from the server. Only one fetch may be in flight: the request that issues it
is `m_ongoing_encryption`, and requests that miss sessions meanwhile wait in
`m_encryption_queue`. When the response arrives, the X3DH engine builds the sessions,
encrypts the ongoing request again (or fails it) and calls
`Lime::processEncryptionQueue`, which clears the ongoing request and restarts the
queue's head. A synchronous `encrypt` also drains the queue when nothing is ongoing.

The model is a labelled transition system over `Pipeline`: the shared state of one
orchestrator, any number of threads, each a call stack of `Frame`s, and two records kept
for the statements about runs (the fetches awaiting a response, and the log of events).
Every region run while holding `m_mutex` is one step; every statement run without it is
a step of its own; callees return normally and their answers are the step's choice. A
completion that runs inside `fetch_peerBundles`, or an `encrypt` called from a user
callback, is a thread of its own here: the calling thread has nothing left but to return,
or to drain the queue, and the scheduler may run it after the nested call.

* `Pipeline.step`: one step of a thread, a new `encrypt` call, or a server response.
* `pipeline_loses_request`: `processEncryptionQueue` reads the queue with `front()` and
  removes its head with `pop()` in two steps, without `m_mutex`, while the drain of a
  synchronous `encrypt` pops the same head under the mutex. Between the two, the drain
  and `processEncryptionQueue` both take the second request, and `pop()` then discards
  the third: it never gets a callback, while the second is encrypted twice.
* `encryption_queue_reorders`: a request taken from the queue re-enters `encrypt`
  without holding the ongoing slot; a concurrent `encrypt` can take the slot first, and
  the popped request is pushed back behind a request queued after it.
-/

namespace Lime

/-- An encryption request, as its `callbackUserData` carries it: an identity and the
recipients. -/
structure Request where
  id : Nat
  recipients : List RecipientData
  deriving DecidableEq, Repr

/-- The observable events of a run. -/
inductive Event where
  /-- A new call of `encrypt` on the request. -/
  | call (r : Request)
  /-- `m_encryption_queue.push(userData)`. -/
  | enqueue (r : Request)
  /-- `m_X3DH->fetch_peerBundles(userData, missing_devices)`. -/
  | fetch (r : Request)
  /-- `encryptMessage(internal_recipients, …)`. -/
  | encryptMessage (r : Request)
  /-- The request's callback, with its status. -/
  | callback (r : Request) (status : CallbackReturn)
  deriving DecidableEq, Repr

/-- Where a call stands: the statement a thread runs next. -/
inductive Frame where
  /-- `encrypt` entered, about to lock `m_mutex` (line 129). -/
  | encrypt (r : Request)
  /-- `fetch_peerBundles` about to be called, the mutex released (line 164). -/
  | fetchPeerBundles (r : Request)
  /-- The callback about to be invoked, the mutex released (line 187). -/
  | callback (r : Request) (status : CallbackReturn)
  /-- The queue drain of a synchronous `encrypt` (lines 188-196). -/
  | drain
  /-- The X3DH engine handling the response to the fetch of `r`. -/
  | completion (r : Request)
  /-- `processEncryptionQueue`, line 274; `r` names the request whose fetch completes. -/
  | clearOngoing (r : Request)
  /-- `processEncryptionQueue`, line 276. -/
  | checkQueue
  /-- `processEncryptionQueue`, line 277. -/
  | front
  /-- `processEncryptionQueue`, line 278, holding the request `front()` returned. -/
  | pop (r : Request)
  deriving DecidableEq, Repr

/-- What the callees of `encrypt`'s locked region answer: the session the local storage
holds for each device (`cache_DR_sessions`), and the devices whose session
`encryptMessage` leaves stale. -/
structure RegionAnswer where
  stored : DeviceId → Option DR
  staled : List DeviceId

/-- How a thread goes on where its next statement leaves a choice. -/
inductive Choice where
  | next
  /-- `encrypt`'s locked region, with its callees' answers. -/
  | lookup (ans : RegionAnswer)
  /-- The completion calls `DRcache_insert(d, s)`. -/
  | insert (d : DeviceId) (s : DR)
  /-- The completion calls `encrypt` on its request again. -/
  | reencrypt
  /-- The completion invokes its request's callback with `fail`. -/
  | giveUp

/-- One step of the whole system. -/
inductive Action where
  /-- A new thread calls `encrypt`. -/
  | call (r : Request)
  /-- The server answers the fetch of `r`; the X3DH engine handles it on a new thread. -/
  | respond (r : Request)
  /-- Thread `t` runs its next statement. -/
  | run (t : Nat) (c : Choice)

/-- The state one orchestrator shares between threads, and the two records of a run:
the fetches issued whose response has not come yet, and the events so far. -/
structure Shared where
  ongoing : Option Request
  queue : List Request
  cache : Cache
  awaiting : List Request
  log : List Event

/-- The system: the shared state and the call stack of every thread, innermost first. -/
structure Pipeline extends Shared where
  threads : List (List Frame)

/-! ## `encrypt`'s locked region -/

/-- Sessions that `encryptMessage` leaves stale, as the cache then sees them. -/
def staleSessions (cache : Cache) : List DeviceId → Cache
  | [] => cache
  | d :: ds =>
    match cache.find d with
    | some s => staleSessions (cache.assign d { s with isActive := false }) ds
    | none => staleSessions cache ds

/-- Lines 129-186 of `encrypt`, run holding `m_mutex`: the lookups, then the fetch
(the request becomes ongoing), the queue (when another is ongoing), or the encryption. -/
def encryptRegion (s : Shared) (r : Request) (ans : RegionAnswer) : Shared × List Frame :=
  let (missing, cache) := missingDevices s.cache r.recipients ans.stored
  if missing.isEmpty then
    ({ s with cache := staleSessions cache ans.staled, log := s.log ++ [.encryptMessage r] },
      [.callback r (callbackResult r.recipients).1])
  else
    match s.ongoing with
    | none => ({ s with cache, ongoing := some r }, [.fetchPeerBundles r])
    | some _ => ({ s with cache, queue := s.queue ++ [r], log := s.log ++ [.enqueue r] }, [])

/-! ## Steps -/

/-- One statement of a thread whose innermost call stands at `f`: the shared state after
it and the frames that replace `f`. A statement has no step when its choice does not fit
it, and `front()` has none on an empty queue, where it is undefined. -/
def runFrame (s : Shared) : Frame → Choice → Option (Shared × List Frame)
  | .encrypt r, .lookup ans => some (encryptRegion s r ans)
  | .fetchPeerBundles r, .next =>
    some ({ s with awaiting := s.awaiting ++ [r], log := s.log ++ [.fetch r] }, [])
  | .callback r st, .next => some ({ s with log := s.log ++ [.callback r st] }, [.drain])
  | .drain, .next =>
    match s.ongoing, s.queue with
    | none, r :: q => some ({ s with queue := q }, [.encrypt r])
    | _, _ => some (s, [])
  | .completion r, .insert d x => some ({ s with cache := s.cache.emplace d x }, [.completion r])
  | .completion r, .reencrypt => some (s, [.encrypt r, .clearOngoing r])
  | .completion r, .giveUp =>
    some ({ s with log := s.log ++ [.callback r .fail] }, [.clearOngoing r])
  | .clearOngoing _, .next => some ({ s with ongoing := none }, [.checkQueue])
  | .checkQueue, .next => some (s, if s.queue.isEmpty then [] else [.front])
  | .front, .next =>
    match s.queue with
    | r :: _ => some (s, [.pop r])
    | [] => none
  | .pop r, .next => some ({ s with queue := s.queue.tail }, [.encrypt r])
  | _, _ => none

namespace Pipeline

/-- No request, nothing ongoing, no thread. -/
def init : Pipeline := ⟨⟨none, [], ⟨fun _ => none⟩, [], []⟩, []⟩

/-- One step of the system. -/
def step (p : Pipeline) : Action → Option Pipeline
  | .call r => some { p with threads := p.threads ++ [[.encrypt r]], log := p.log ++ [.call r] }
  | .respond r =>
    if r ∈ p.awaiting then
      some { p with awaiting := p.awaiting.erase r, threads := p.threads ++ [[.completion r]] }
    else none
  | .run t c =>
    match p.threads[t]? with
    | some (f :: rest) =>
      (runFrame p.toShared f c).map fun (s, fs) => ⟨s, p.threads.set t (fs ++ rest)⟩
    | _ => none

/-- What a step can be: a new thread calling `encrypt`, a response handed to a new thread,
or one statement of a thread. -/
theorem step_eq_some {p p' : Pipeline} {a : Action} (h : p.step a = some p') :
    (∃ r, a = .call r ∧
      p' = { p with threads := p.threads ++ [[.encrypt r]], log := p.log ++ [.call r] }) ∨
    (∃ r, a = .respond r ∧ r ∈ p.awaiting ∧
      p' = { p with awaiting := p.awaiting.erase r, threads := p.threads ++ [[.completion r]] }) ∨
    ∃ t c f rest s fs, a = .run t c ∧ p.threads[t]? = some (f :: rest) ∧
      runFrame p.toShared f c = some (s, fs) ∧ p' = ⟨s, p.threads.set t (fs ++ rest)⟩ := by
  cases a with
  | call r => cases h; exact .inl ⟨r, rfl, rfl⟩
  | respond r =>
    simp only [step] at h
    split at h
    · cases h; exact .inr (.inl ⟨r, rfl, ‹_›, rfl⟩)
    · cases h
  | run t c =>
    simp only [step] at h
    split at h
    · rename_i f rest hst
      obtain ⟨⟨s, fs⟩, hrun, rfl⟩ := Option.map_eq_some'.1 h
      exact .inr (.inr ⟨t, c, f, rest, s, fs, rfl, hst, hrun, rfl⟩)
    · cases h

/-- The states a run from `init` reaches. -/
inductive Reachable : Pipeline → Prop
  | init : Reachable init
  | step {p p' : Pipeline} (a : Action) : Reachable p → p.step a = some p' → Reachable p'

/-- Run a list of actions from `p`. -/
def run (p : Pipeline) : List Action → Option Pipeline
  | [] => some p
  | a :: as => (p.step a).bind fun p' => p'.run as

theorem reachable_run {p p' : Pipeline} (hp : Reachable p) {as : List Action}
    (h : p.run as = some p') : Reachable p' := by
  induction as generalizing p with
  | nil => cases h; exact hp
  | cons a as ih =>
    simp only [run, Option.bind_eq_some] at h
    obtain ⟨q, hq, hrun⟩ := h
    exact ih (.step a hp hq) hrun

/-- No thread is inside `encrypt`, `processEncryptionQueue` or a completion. -/
def Quiescent (p : Pipeline) : Prop := ∀ st ∈ p.threads, st = []

instance (p : Pipeline) : Decidable p.Quiescent :=
  inferInstanceAs (Decidable (∀ st ∈ p.threads, st = []))

/-- The callbacks invoked for `r`. -/
def callbacks (p : Pipeline) (r : Request) : List CallbackReturn :=
  p.log.filterMap fun | .callback r' st => if r' = r then some st else none | _ => none

theorem exists_reachable_of_run (as : List Action) {P : Pipeline → Prop} [DecidablePred P]
    (h : (init.run as).any (fun p => decide (P p)) = true) : ∃ p, Reachable p ∧ P p := by
  cases hp : init.run as with
  | none => simp [hp] at h
  | some p => exact ⟨p, reachable_run .init hp, by simpa [hp] using h⟩

end Pipeline

/-! ## Schedules -/

/-- A request to the one device `d`. -/
def requestTo (id : Nat) (d : DeviceId) : Request := ⟨id, [⟨d, .unknown, []⟩]⟩

/-- `encrypt`'s region where the local storage holds no session and `encryptMessage`
stales none. -/
def noStoredSession : Choice := .lookup ⟨fun _ => none, []⟩

/-- Request 1, to device `a`, fetches a bundle, and request 2, to device `b`, queues
behind it. -/
def fetchAndQueueSchedule : List Action :=
  [.call (requestTo 1 "a"), .run 0 noStoredSession, .run 0 .next, .call (requestTo 2 "b"),
   .run 1 noStoredSession]

/-- The state `fetchAndQueueSchedule` ends in: request 1 awaits the response to its fetch,
request 2 is queued behind it, and no thread runs. -/
def fetchAndQueue : Pipeline :=
  ⟨⟨some (requestTo 1 "a"), [requestTo 2 "b"], ⟨fun _ => none⟩, [requestTo 1 "a"],
    [.call (requestTo 1 "a"), .fetch (requestTo 1 "a"), .call (requestTo 2 "b"),
      .enqueue (requestTo 2 "b")]⟩, [[], []]⟩

theorem fetchAndQueue_reachable : fetchAndQueue.Reachable :=
  Pipeline.reachable_run .init (show Pipeline.init.run fetchAndQueueSchedule = some fetchAndQueue from rfl)

/-- Requests 2 and 3 queue behind the fetch of request 1. Its completion reaches
`front()` in `processEncryptionQueue` and reads request 2; then request 4 encrypts at
once and its drain pops request 2 under the mutex; request 2 fetches; `pop()` now removes
request 3, and the completion encrypts request 2 again, which is queued behind its own
fetch. That fetch's completion serves request 2 a second time. -/
def losingSchedule : List Action :=
  [.call (requestTo 1 "a"), .run 0 noStoredSession, .run 0 .next,
   .call (requestTo 2 "b"), .run 1 noStoredSession,
   .call (requestTo 3 "c"), .run 2 noStoredSession,
   .respond (requestTo 1 "a"), .run 3 (.insert "a" ⟨1, true⟩), .run 3 .reencrypt,
   .run 3 noStoredSession, .run 3 .next, .run 3 .next, .run 3 .next, .run 3 .next,
   .run 3 .next,
   .call (requestTo 4 "a"), .run 4 noStoredSession, .run 4 .next, .run 4 .next,
   .run 4 noStoredSession, .run 4 .next,
   .run 3 .next, .run 3 noStoredSession,
   .respond (requestTo 2 "b"), .run 5 (.insert "b" ⟨2, true⟩), .run 5 .reencrypt,
   .run 5 noStoredSession, .run 5 .next, .run 5 .next, .run 5 .next, .run 5 .next,
   .run 5 .next, .run 5 .next, .run 5 noStoredSession, .run 5 .next, .run 5 .next]

/-- A schedule that ends with no thread running and a request lost: request 3 was passed
to `encrypt`, got no callback, and is neither queued, ongoing nor awaiting a fetch;
request 2 got two callbacks. -/
theorem pipeline_loses_request : ∃ p : Pipeline, p.Reachable ∧ p.Quiescent ∧
    Event.call (requestTo 3 "c") ∈ p.log ∧ p.callbacks (requestTo 3 "c") = [] ∧
    requestTo 3 "c" ∉ p.queue ∧ p.ongoing = none ∧ p.awaiting = [] ∧
    p.callbacks (requestTo 2 "b") = [.success, .success] :=
  Pipeline.exists_reachable_of_run losingSchedule (by decide)

/-- Requests 2 and 3 queue behind the fetch of request 1, whose completion pops request
2. Before request 2's nested `encrypt` locks the mutex, request 4 finds the ongoing slot
free and fetches; request 2 is then pushed behind request 3, and the completion of
request 4's fetch serves request 3 first. -/
def reorderingSchedule : List Action :=
  [.call (requestTo 1 "a"), .run 0 noStoredSession, .run 0 .next,
   .call (requestTo 2 "b"), .run 1 noStoredSession,
   .call (requestTo 3 "c"), .run 2 noStoredSession,
   .respond (requestTo 1 "a"), .run 3 (.insert "a" ⟨1, true⟩), .run 3 .reencrypt,
   .run 3 noStoredSession, .run 3 .next, .run 3 .next, .run 3 .next, .run 3 .next,
   .run 3 .next, .run 3 .next,
   .call (requestTo 4 "e"), .run 4 noStoredSession, .run 4 .next,
   .run 3 noStoredSession,
   .respond (requestTo 4 "e"), .run 5 (.insert "e" ⟨2, true⟩), .run 5 .reencrypt,
   .run 5 noStoredSession, .run 5 .next, .run 5 .next, .run 5 .next, .run 5 .next,
   .run 5 .next, .run 5 .next, .run 5 noStoredSession, .run 5 .next]

/-- A schedule where request 2 is queued before request 3, is pushed back behind it, and
request 3 issues its fetch while request 2 has neither fetched nor been encrypted. -/
theorem encryption_queue_reorders : ∃ p : Pipeline, p.Reachable ∧
    p.log.filter (fun e => e == .enqueue (requestTo 2 "b") || e == .enqueue (requestTo 3 "c")) =
      [.enqueue (requestTo 2 "b"), .enqueue (requestTo 3 "c"), .enqueue (requestTo 2 "b")] ∧
    Event.fetch (requestTo 3 "c") ∈ p.log ∧ Event.fetch (requestTo 2 "b") ∉ p.log ∧
    Event.encryptMessage (requestTo 2 "b") ∉ p.log :=
  Pipeline.exists_reachable_of_run reorderingSchedule (by decide)

end Lime

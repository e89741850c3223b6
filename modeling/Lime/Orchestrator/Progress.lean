import Lime.Orchestrator.Accounting
import Mathlib.Logic.Relation

/-!
# The pipeline can always be drained

When no callee throws, no reachable state is stuck. From every state of a race-free run
in which no thread runs, the response to the pending fetch, then answers of the local
storage holding a session for every device, lead by a run of one thread to a state in
which every call of `encrypt` has had exactly one callback: the completion encrypts its
request, `processEncryptionQueue` restarts the queue's head, and the drain of each
synchronous `encrypt` takes the next one.

* `raceFreeStep_last`: the next statement of the newest thread, as a race-free step.
* `encryptRegion_of_stored`: with every session stored, `encrypt` encrypts at once.
* `drain_answers_queue`, `processEncryptionQueue_answers_queue`: the drain, and
  `processEncryptionQueue`, answer every queued request.
* `race_free_pipeline_can_answer_every_call`: the result for every quiescent state.
-/

namespace Lime

namespace Pipeline

/-- A step that is not a `pop()` removing another request than its `front()` read. -/
def RaceFreeStep (p p' : Pipeline) : Prop := ∃ a, p.popsOther a = false ∧ p.step a = some p'

/-- The runs from `p` to `q` in which every `pop()` removes the request its `front()`
read. -/
def RaceFreeSteps (p q : Pipeline) : Prop := Relation.ReflTransGen RaceFreeStep p q

theorem RaceFreeReachable.steps {p q : Pipeline} (hp : p.RaceFreeReachable)
    (h : p.RaceFreeSteps q) : q.RaceFreeReachable := by
  induction h with
  | refl => exact hp
  | tail _ hstep ih =>
    obtain ⟨a, hrace, ha⟩ := hstep
    exact .step a ih hrace ha

/-- The next statement of the newest thread is a race-free step, `pop()` provided the
queue's head is the request its `front()` read. -/
theorem raceFreeStep_last {s s' : Shared} {L : List (List Frame)} {f : Frame}
    {rest fs : List Frame} {c : Choice} (h : runFrame s f c = some (s', fs))
    (hpop : ∀ r, f = .pop r → s.queue.head? = some r) :
    RaceFreeStep ⟨s, L ++ [f :: rest]⟩ ⟨s', L ++ [fs ++ rest]⟩ := by
  refine ⟨.run L.length c, ?_, by simp [step, h]⟩
  cases f <;> simp [popsOther]
  case pop r => simp [hpop r rfl]

end Pipeline

/-- With a session stored for every device, `encrypt`'s region finds none missing: it
encrypts at once and goes on to the callback, with the ongoing request, the queue and the
awaited fetches as they were. -/
theorem encryptRegion_of_stored (s : Shared) (r : Request) {ans : RegionAnswer}
    (h : ∀ d, (ans.stored d).isSome) : ∃ s', encryptRegion s r ans =
      (s', [.callback r (callbackResult r.recipients).1]) ∧ s'.ongoing = s.ongoing ∧
      s'.queue = s.queue ∧ s'.awaiting = s.awaiting ∧ s'.log = s.log ++ [.encryptMessage r] := by
  have hmiss : (missingDevices s.cache r.recipients ans.stored).1 = [] := by
    simp [missingDevices_fst, Option.isNone_iff_eq_none, Option.ne_none_iff_isSome.2 (h _)]
  unfold encryptRegion
  rcases hm : missingDevices s.cache r.recipients ans.stored with ⟨missing, cache⟩
  obtain rfl : missing = [] := by rw [hm] at hmiss; exact hmiss
  exact ⟨_, rfl, rfl, rfl, rfl, rfl⟩

section Drain

variable (L : List (List Frame)) {ans : RegionAnswer} (hans : ∀ d, (ans.stored d).isSome)
include hans

/-- The restarted request `r`, on the newest thread with nothing ongoing: with its sessions
stored, it is encrypted at once and its callback invoked, and the drain comes next. -/
theorem encrypt_answers_stored (s : Shared) (r : Request) (rest : List Frame) :
    ∃ s', Pipeline.RaceFreeSteps ⟨s, L ++ [.encrypt r :: rest]⟩ ⟨s', L ++ [.drain :: rest]⟩ ∧
      s'.ongoing = s.ongoing ∧ s'.queue = s.queue ∧ s'.awaiting = s.awaiting ∧
      callsOf s'.log = callsOf s.log := by
  obtain ⟨s', hreg, hon, hq, haw, hlog⟩ := encryptRegion_of_stored s r hans
  have henc : runFrame s (.encrypt r) (.lookup ans) = some (s', _) := congrArg some hreg
  have hcb : runFrame s' (.callback r (callbackResult r.recipients).1) .next =
      some ({ s' with log := s'.log ++ [.callback r (callbackResult r.recipients).1] }, [.drain]) :=
    rfl
  exact ⟨_, .tail (.single (Pipeline.raceFreeStep_last henc (by simp)))
    (Pipeline.raceFreeStep_last hcb (by simp)), hon, hq, haw, by simp [hlog, callsOf, Event.called]⟩

/-- With nothing ongoing, the drain of a synchronous `encrypt` on the newest thread takes
every queued request in turn, encrypts it, invokes its callback, and drains again. -/
theorem drain_answers_queue : ∀ (q : List Request) (s : Shared), s.ongoing = none →
    s.queue = q → ∃ s', Pipeline.RaceFreeSteps ⟨s, L ++ [[.drain]]⟩ ⟨s', L ++ [[]]⟩ ∧
      s'.ongoing = none ∧ s'.queue = [] ∧ s'.awaiting = s.awaiting ∧
      callsOf s'.log = callsOf s.log
  | [], s, hon, hq =>
    have hdrain : runFrame s .drain .next = some (s, []) := by simp [runFrame, hon, hq]
    ⟨s, .single (Pipeline.raceFreeStep_last hdrain (by simp)), hon, hq, rfl, rfl⟩
  | r :: q, s, hon, hq => by
    -- the drain pops `r`, which is encrypted at once and answered
    have hpop : runFrame s .drain .next = some ({ s with queue := q }, [.encrypt r]) := by
      simp [runFrame, hon, hq]
    obtain ⟨s₁, h₁, hon₁, hq₁, haw₁, hcalls₁⟩ := encrypt_answers_stored L hans { s with queue := q } r []
    obtain ⟨s₂, h₂, hon₂, hq₂, haw₂, hcalls₂⟩ := drain_answers_queue q s₁ (hon₁.trans hon) hq₁
    exact ⟨s₂, .head (Pipeline.raceFreeStep_last hpop (by simp)) (h₁.trans h₂), hon₂, hq₂,
      haw₂.trans haw₁, hcalls₂.trans hcalls₁⟩

/-- `processEncryptionQueue` from line 276, nothing ongoing, on the newest thread: the
queue's head is restarted, and the drain of its synchronous `encrypt` takes the rest. -/
theorem processEncryptionQueue_answers_queue (s : Shared) (hon : s.ongoing = none) :
    ∃ s', Pipeline.RaceFreeSteps ⟨s, L ++ [[.checkQueue]]⟩ ⟨s', L ++ [[]]⟩ ∧
      s'.ongoing = none ∧ s'.queue = [] ∧ s'.awaiting = s.awaiting ∧
      callsOf s'.log = callsOf s.log := by
  rcases hq : s.queue with _ | ⟨r, q⟩
  · have hcheck : runFrame s .checkQueue .next = some (s, []) := by simp [runFrame, hq]
    exact ⟨s, .single (Pipeline.raceFreeStep_last hcheck (by simp)), hon, hq, rfl, rfl⟩
  · have hcheck : runFrame s .checkQueue .next = some (s, [.front]) := by simp [runFrame, hq]
    have hfront : runFrame s .front .next = some (s, [.pop r]) := by simp [runFrame, hq]
    have hpop : runFrame s (.pop r) .next = some ({ s with queue := q }, [.encrypt r]) := by
      simp [runFrame, hq]
    obtain ⟨s₁, h₁, hon₁, hq₁, haw₁, hcalls₁⟩ := encrypt_answers_stored L hans { s with queue := q } r []
    obtain ⟨s₂, h₂, hon₂, hq₂, haw₂, hcalls₂⟩ := drain_answers_queue L hans q s₁ (hon₁.trans hon) hq₁
    refine ⟨s₂, .head (Pipeline.raceFreeStep_last hcheck (by simp)) (.head
      (Pipeline.raceFreeStep_last hfront (by simp)) (.head
        (Pipeline.raceFreeStep_last hpop (by simp [hq])) (h₁.trans h₂))), hon₂, hq₂,
      haw₂.trans haw₁, hcalls₂.trans hcalls₁⟩

end Drain

/-- When no callee throws, the pipeline is never stuck. From every state of a race-free
run in which no thread runs, the response to the pending fetch and a local storage holding
every session lead, by a race-free run of the completion's thread and with no new call, to
a state in which no thread runs, nothing is held, and every call of `encrypt` has had
exactly one callback. -/
theorem race_free_pipeline_can_answer_every_call {p : Pipeline} (hp : p.RaceFreeReachable)
    (hq : p.Quiescent) :
    ∃ p', p.RaceFreeSteps p' ∧ p'.Quiescent ∧ p'.held = [] ∧ callsOf p'.log = callsOf p.log ∧
      ∀ r, (p'.callbacks r).length = (callsOf p'.log).count r := by
  suffices h : ∃ p', p.RaceFreeSteps p' ∧ p'.Quiescent ∧ p'.held = [] ∧
      callsOf p'.log = callsOf p.log by
    obtain ⟨p', hrun, hq', hheld, hcalls⟩ := h
    exact ⟨p', hrun, hq', hheld, hcalls, (hp.steps hrun).callbacks_eq_calls hheld⟩
  rcases hq.awaiting_cases hp.reachable with haw | ⟨r, haw, hon⟩
  · obtain ⟨-, hqueue⟩ := hq.idle_of_awaiting_nil hp.reachable haw
    exact ⟨p, .refl, hq, hq.held_eq hqueue haw, rfl⟩
  -- the response to `r`'s fetch comes; the completion encrypts `r` again, with every
  -- session stored, then runs `processEncryptionQueue`
  have hans : ∀ d, ((⟨fun _ => some ⟨0, true⟩, []⟩ : RegionAnswer).stored d).isSome :=
    fun _ => rfl
  have hresp : p.step (.respond r) =
      some ⟨{ p.toShared with awaiting := [] }, p.threads ++ [[.completion r]]⟩ := by
    simp [Pipeline.step, haw]
  have hre : runFrame { p.toShared with awaiting := [] } (.completion r) .reencrypt =
      some ({ p.toShared with awaiting := [] }, [.encrypt r, .clearOngoing r]) := rfl
  obtain ⟨s₁, h₁, hon₁, hq₁, haw₁, hcalls₁⟩ := encrypt_answers_stored p.threads hans
    { p.toShared with awaiting := [] } r [.clearOngoing r]
  have hdrain : runFrame s₁ .drain .next = some (s₁, []) := by simp [runFrame, hon₁, hon]
  have hclear : runFrame s₁ (.clearOngoing r) .next =
      some ({ s₁ with ongoing := none }, [.checkQueue]) := rfl
  obtain ⟨s₂, h₂, -, hq₂, haw₂, hcalls₂⟩ :=
    processEncryptionQueue_answers_queue p.threads hans { s₁ with ongoing := none } rfl
  refine ⟨⟨s₂, p.threads ++ [[]]⟩, .head ⟨.respond r, rfl, hresp⟩ (.head
    (Pipeline.raceFreeStep_last hre (by simp)) (h₁.trans (.head
      (Pipeline.raceFreeStep_last hdrain (by simp)) (.head
        (Pipeline.raceFreeStep_last hclear (by simp)) h₂)))),
    fun st hst => (List.mem_append.1 hst).elim (hq st) List.mem_singleton.1, ?_,
    hcalls₂.trans hcalls₁⟩
  simp [Pipeline.held, hq₂, haw₂, haw₁, hq.flatMap_threads (·.filterMap Frame.request) rfl]

theorem race_free_pipeline_can_answer_every_call_queued :
    fetchAndQueue.RaceFreeReachable ∧ fetchAndQueue.Quiescent ∧
      ∃ p', fetchAndQueue.RaceFreeSteps p' ∧ p'.Quiescent ∧ p'.held = [] ∧
        callsOf p'.log = callsOf fetchAndQueue.log ∧
        ∀ r, (p'.callbacks r).length = (callsOf p'.log).count r :=
  have hp : fetchAndQueue.RaceFreeReachable := Pipeline.raceFreeReachable_run .init
    (show Pipeline.init.runRaceFree fetchAndQueueSchedule = some fetchAndQueue from rfl)
  have hq : fetchAndQueue.Quiescent := by decide
  ⟨hp, hq, race_free_pipeline_can_answer_every_call hp hq⟩

end Lime

import Lime.Orchestrator.Pipeline

/-!
# At most one bundle fetch in flight

`encrypt` issues a fetch only from the locked region that finds `m_ongoing_encryption`
empty and sets it to its own request, and only the completion of that fetch clears it
(line 274 of `processEncryptionQueue`). The ongoing slot thus behaves as a token: the
region that decides to fetch takes it, the thread carries it to `fetch_peerBundles`, the
pending response carries it next, then the completion, which gives it back at line 274.
At most one token exists, and while one exists it is the ongoing request.

* `TokenEffect`, `runFrame_tokenEffect`: what one statement can do to the tokens.
* `TokenStep`, `FetchInv.step`: what one step of the system does to the tokens, and that
  it keeps the invariant.
* `encryptRegion_of_ongoing`, `encryptRegion_queues_of_ongoing`: while a request is
  ongoing, an `encrypt` region queues its request or encrypts at once, and queues it when
  it still misses sessions.
* `single_outstanding_fetch`: in every reachable state at most one fetch is outstanding,
  it was issued by the ongoing request, and every `encrypt` region meanwhile queues a
  request that still misses sessions.
-/

namespace Lime

/-- The request whose fetch a frame carries: about to be issued, or being handled. -/
def Frame.fetchToken : Frame → Option Request
  | .fetchPeerBundles r | .completion r | .clearOngoing r => some r
  | _ => none

/-- The request whose fetch response a frame handles, the `processEncryptionQueue` call
of the completion not started yet. -/
def Frame.outstanding : Frame → Option Request
  | .completion r | .clearOngoing r => some r
  | _ => none

theorem filterMap_fetchToken_cons (f : Frame) (st : List Frame) :
    (f :: st).filterMap Frame.fetchToken = f.fetchToken.toList ++ st.filterMap Frame.fetchToken := by
  cases h : f.fetchToken <;> simp [List.filterMap_cons, h]

/-- The tokens carried by the frames of some threads. -/
def tokensOf (threads : List (List Frame)) : List Request :=
  threads.flatMap (·.filterMap Frame.fetchToken)

@[simp] theorem tokensOf_nil : tokensOf [] = [] := rfl

@[simp] theorem tokensOf_cons (st : List Frame) (threads : List (List Frame)) :
    tokensOf (st :: threads) = st.filterMap Frame.fetchToken ++ tokensOf threads := rfl

@[simp] theorem tokensOf_append (ts ts' : List (List Frame)) :
    tokensOf (ts ++ ts') = tokensOf ts ++ tokensOf ts' := List.flatMap_append ..

/-- Replacing the stack `st` of one thread by `st'` trades the tokens of `st` for those
of `st'`. -/
theorem tokensOf_set {threads : List (List Frame)} {t : Nat} {st : List Frame}
    (h : threads[t]? = some st) (st' : List Frame) :
    (tokensOf (threads.set t st') ++ st.filterMap Frame.fetchToken).Perm
      (tokensOf threads ++ st'.filterMap Frame.fetchToken) := by
  induction threads generalizing t with
  | nil => simp at h
  | cons s ss ih =>
    cases t with
    | zero =>
      obtain rfl : s = st := by simpa using h
      simp only [List.set_cons_zero, tokensOf_cons]
      exact List.perm_iff_count.2 fun _ => by simp only [List.count_append]; omega
    | succ t =>
      simpa only [List.set_cons_succ, tokensOf_cons, List.append_assoc]
        using (ih (by simpa using h)).append_left _

namespace Pipeline

/-- Every token: the fetches awaiting their response and those the threads carry. -/
def tokens (p : Pipeline) : List Request := p.awaiting ++ tokensOf p.threads

/-- The fetches outstanding: issued, and the `processEncryptionQueue` call of their
completion not started yet. -/
def outstanding (p : Pipeline) : List Request :=
  p.awaiting ++ p.threads.flatMap (·.filterMap Frame.outstanding)

theorem outstanding_sublist_tokens (p : Pipeline) : p.outstanding.Sublist p.tokens := by
  have hstack (st : List Frame) :
      (st.filterMap Frame.outstanding).Sublist (st.filterMap Frame.fetchToken) := by
    induction st with
    | nil => exact .slnil
    | cons f st ih =>
      cases f <;> simp [Frame.outstanding, Frame.fetchToken, ih, ih.cons]
  refine .append_left ?_ _
  induction p.threads with
  | nil => exact .slnil
  | cons st ts ih => exact (hstack st).append ih

end Pipeline

/-! ## What one statement does to the tokens -/

/-- The four ways a statement at frame `f`, replaced by the frames `fs`, changes the
tokens. -/
inductive TokenEffect (s s' : Shared) (f : Frame) (fs : List Frame) : Prop
  /-- The ongoing request, the awaited fetches and the frame's token stay. -/
  | keep : s'.ongoing = s.ongoing → s'.awaiting = s.awaiting →
      fs.filterMap Frame.fetchToken = f.fetchToken.toList → TokenEffect s s' f fs
  /-- `encrypt`'s region takes the free ongoing slot for `r` and goes to fetch. -/
  | claim (r : Request) : s.ongoing = none → s'.ongoing = some r → s'.awaiting = s.awaiting →
      f.fetchToken = none → fs.filterMap Frame.fetchToken = [r] → TokenEffect s s' f fs
  /-- `fetch_peerBundles` hands the token of `r` to the pending response. -/
  | issue (r : Request) : f.fetchToken = some r → s'.ongoing = s.ongoing →
      s'.awaiting = s.awaiting ++ [r] → fs.filterMap Frame.fetchToken = [] →
      TokenEffect s s' f fs
  /-- Line 274 clears the ongoing request, and the token of `r` is gone. -/
  | release (r : Request) : f.fetchToken = some r → s'.ongoing = none →
      s'.awaiting = s.awaiting → fs.filterMap Frame.fetchToken = [] → TokenEffect s s' f fs

theorem encryptRegion_tokenEffect (s : Shared) (r : Request) (ans : RegionAnswer) :
    TokenEffect s (encryptRegion s r ans).1 (.encrypt r) (encryptRegion s r ans).2 := by
  unfold encryptRegion
  obtain ⟨missing, cache⟩ := missingDevices s.cache r.recipients ans.stored
  dsimp only
  split
  · exact .keep rfl rfl rfl
  · split
    · exact .claim r ‹_› rfl rfl rfl rfl
    · exact .keep rfl rfl rfl

/-- While a request is ongoing, `encrypt`'s region queues its request or encrypts at once. -/
theorem encryptRegion_of_ongoing {s : Shared} {o : Request} (h : s.ongoing = some o)
    (r : Request) (ans : RegionAnswer) :
    ((encryptRegion s r ans).2 = [] ∧ (encryptRegion s r ans).1.queue = s.queue ++ [r]) ∨
      ∃ st, (encryptRegion s r ans).2 = [.callback r st] := by
  unfold encryptRegion
  obtain ⟨missing, cache⟩ := missingDevices s.cache r.recipients ans.stored
  dsimp only
  split
  · exact .inr ⟨_, rfl⟩
  · simp [h]

/-- While a request is ongoing, `encrypt`'s region queues a request that still misses
sessions: its thread has nothing left to run, so it issues no fetch, and the ongoing
request stays. -/
theorem encryptRegion_queues_of_ongoing {s : Shared} {o : Request} (h : s.ongoing = some o)
    (r : Request) (ans : RegionAnswer)
    (hmiss : (missingDevices s.cache r.recipients ans.stored).1 ≠ []) :
    (encryptRegion s r ans).2 = [] ∧ (encryptRegion s r ans).1.queue = s.queue ++ [r] ∧
      (encryptRegion s r ans).1.ongoing = some o := by
  unfold encryptRegion
  rcases hm : missingDevices s.cache r.recipients ans.stored with ⟨missing, cache⟩
  rw [hm] at hmiss
  have he : missing.isEmpty = false := List.isEmpty_eq_false.2 hmiss
  simp only [he, h, Bool.false_eq_true, ↓reduceIte, and_self]

theorem runFrame_tokenEffect {s s' : Shared} {f : Frame} {c : Choice} {fs : List Frame}
    (h : runFrame s f c = some (s', fs)) : TokenEffect s s' f fs := by
  cases f <;> cases c <;> simp only [runFrame, reduceCtorEq] at h
  case encrypt.lookup r ans =>
    have he := encryptRegion_tokenEffect s r ans
    simp only [Option.some.injEq] at h
    rwa [h] at he
  case fetchPeerBundles.next r =>
    cases h
    exact .issue r rfl rfl rfl rfl
  case clearOngoing.next r =>
    cases h
    exact .release r rfl rfl rfl rfl
  case drain.next =>
    split at h <;> cases h <;> exact .keep rfl rfl rfl
  case checkQueue.next =>
    cases h
    split <;> exact .keep rfl rfl rfl
  case front.next =>
    split at h <;> cases h
    exact .keep rfl rfl rfl
  all_goals cases h; exact .keep rfl rfl rfl

/-! ## The invariant -/

namespace Pipeline

/-- At most one token exists, and it is the ongoing request. -/
structure FetchInv (p : Pipeline) : Prop where
  length_le : p.tokens.length ≤ 1
  ongoing_eq : ∀ r ∈ p.tokens, p.ongoing = some r

theorem FetchInv.of_perm {p p' : Pipeline} (hi : FetchInv p) (hperm : p'.tokens.Perm p.tokens)
    (hon : p'.ongoing = p.ongoing) : FetchInv p' :=
  ⟨hperm.length_eq ▸ hi.length_le, fun r hr => hon ▸ hi.ongoing_eq r (hperm.mem_iff.1 hr)⟩

theorem FetchInv.of_nil {p : Pipeline} (h : p.tokens = []) : FetchInv p :=
  ⟨by simp [h], by simp [h]⟩

theorem FetchInv.init : FetchInv init := .of_nil rfl

theorem FetchInv.tokens_eq_nil {p : Pipeline} (hi : FetchInv p) (h : p.ongoing = none) :
    p.tokens = [] :=
  List.eq_nil_iff_forall_not_mem.2 fun r hr => by simpa [h] using hi.ongoing_eq r hr

/-- The tokens after thread `t` runs its next statement at `f`: those of the other
threads, the awaited fetches after the step, and those of the frames replacing `f`. -/
theorem tokens_run {p : Pipeline} {t : Nat} {f : Frame} {rest : List Frame}
    (h : p.threads[t]? = some (f :: rest)) (fs : List Frame) :
    (tokensOf (p.threads.set t (fs ++ rest)) ++ f.fetchToken.toList).Perm
      (tokensOf p.threads ++ fs.filterMap Frame.fetchToken) := by
  have := tokensOf_set h (fs ++ rest)
  rw [filterMap_fetchToken_cons, List.filterMap_append, ← List.append_assoc,
    ← List.append_assoc] at this
  exact (List.perm_append_right_iff _).1 this

/-- What one step does to the tokens: they are permuted and the ongoing request is kept;
or `r` takes the ongoing slot and is the only token; or the ongoing request is cleared and
no token is left. -/
inductive TokenStep (p p' : Pipeline) : Prop
  | keep : p'.tokens.Perm p.tokens → p'.ongoing = p.ongoing → TokenStep p p'
  | claim (r : Request) : p'.ongoing = some r → p'.tokens = [r] → TokenStep p p'
  | release : p'.ongoing = none → p'.tokens = [] → TokenStep p p'

theorem FetchInv.tokenStep_run {p : Pipeline} {t : Nat} {f : Frame} {rest : List Frame}
    {s : Shared} {fs : List Frame} (hi : FetchInv p) (h : p.threads[t]? = some (f :: rest))
    (he : TokenEffect p.toShared s f fs) : TokenStep p ⟨s, p.threads.set t (fs ++ rest)⟩ := by
  have hperm := tokens_run h fs
  cases he with
  | keep hon haw htok =>
    refine .keep ?_ hon
    rw [htok, List.perm_append_right_iff] at hperm
    simpa only [tokens, haw] using hperm.append_left p.awaiting
  | claim r hnone hon haw hf htok =>
    have hnil := hi.tokens_eq_nil hnone
    simp only [tokens, List.append_eq_nil] at hnil
    simp only [hf, Option.toList, List.append_nil, htok, hnil.2, List.nil_append] at hperm
    exact .claim r hon (by simpa [tokens, haw, hnil.1] using List.perm_singleton.1 hperm)
  | issue r hf hon haw htok =>
    refine .keep ?_ hon
    simp only [hf, Option.toList, htok, List.append_nil] at hperm
    simpa only [tokens, haw, List.append_assoc] using
      (List.perm_append_comm.trans hperm).append_left p.awaiting
  | release r hf hon haw htok =>
    simp only [hf, Option.toList, htok, List.append_nil] at hperm
    have hlen := hi.length_le
    simp only [tokens, List.length_append, ← hperm.length_eq, List.length_singleton] at hlen
    exact .release hon (by simp only [tokens, haw, ← List.length_eq_zero, List.length_append]; omega)

theorem FetchInv.tokenStep {p p' : Pipeline} {a : Action} (hi : FetchInv p)
    (h : p.step a = some p') : TokenStep p p' := by
  rcases step_eq_some h with ⟨r, -, rfl⟩ | ⟨r, -, hr, rfl⟩ | ⟨t, c, f, rest, s, fs, -, hst, hrun, rfl⟩
  · exact .keep (by simp [tokens, Frame.fetchToken]) rfl
  · -- the response's token moves from the awaited fetches to the completion's thread
    refine .keep ?_ rfl
    have hcomp : tokensOf [[Frame.completion r]] = [r] := rfl
    simp only [tokens, tokensOf_append, hcomp, ← List.append_assoc]
    exact List.perm_append_comm.trans ((List.perm_cons_erase hr).append_right _).symm
  · exact hi.tokenStep_run hst (runFrame_tokenEffect hrun)

/-- Every step keeps the invariant. -/
theorem FetchInv.step {p p' : Pipeline} {a : Action} (hi : FetchInv p)
    (h : p.step a = some p') : FetchInv p' := by
  cases hi.tokenStep h with
  | keep hperm hon => exact hi.of_perm hperm hon
  | claim r hon htoks => exact ⟨by simp [htoks], by simpa [htoks] using hon⟩
  | release _ htoks => exact .of_nil htoks

theorem FetchInv.reachable {p : Pipeline} (hp : p.Reachable) : FetchInv p := by
  induction hp with
  | init => exact .init
  | step a _ h ih => exact ih.step h

end Pipeline

/-- In every reachable state at most one fetch issued by `encrypt` is outstanding, the
ongoing request is the one that issued it, and meanwhile an `encrypt` region whose request
still misses sessions queues it behind the ongoing one: its thread has nothing left to run,
so it never issues a second fetch. -/
theorem single_outstanding_fetch {p : Pipeline} (hp : p.Reachable) :
    p.outstanding.length ≤ 1 ∧ (∀ r ∈ p.outstanding, p.ongoing = some r) ∧
      ∀ r ∈ p.outstanding, ∀ r' ans, (missingDevices p.cache r'.recipients ans.stored).1 ≠ [] →
        (encryptRegion p.toShared r' ans).2 = [] ∧
          (encryptRegion p.toShared r' ans).1.queue = p.queue ++ [r'] ∧
          (encryptRegion p.toShared r' ans).1.ongoing = some r := by
  have hi := Pipeline.FetchInv.reachable hp
  have hsub := p.outstanding_sublist_tokens
  have hon (r) (hr : r ∈ p.outstanding) : p.ongoing = some r := hi.ongoing_eq r (hsub.subset hr)
  exact ⟨Nat.le_trans hsub.length_le hi.length_le, hon,
    fun r hr r' ans => encryptRegion_queues_of_ongoing (hon r hr) r' ans⟩

/-- Request 1's fetch is outstanding and request 2 is queued behind it. -/
theorem single_outstanding_fetch_queued :
    fetchAndQueue.Reachable ∧ fetchAndQueue.outstanding = [requestTo 1 "a"] ∧
      fetchAndQueue.outstanding.length ≤ 1 ∧
      (∀ r ∈ fetchAndQueue.outstanding, fetchAndQueue.ongoing = some r) ∧
      ∀ r ∈ fetchAndQueue.outstanding, ∀ r' ans,
        (missingDevices fetchAndQueue.cache r'.recipients ans.stored).1 ≠ [] →
        (encryptRegion fetchAndQueue.toShared r' ans).2 = [] ∧
          (encryptRegion fetchAndQueue.toShared r' ans).1.queue = fetchAndQueue.queue ++ [r'] ∧
          (encryptRegion fetchAndQueue.toShared r' ans).1.ongoing = some r :=
  ⟨fetchAndQueue_reachable, rfl, single_outstanding_fetch fetchAndQueue_reachable⟩

end Lime

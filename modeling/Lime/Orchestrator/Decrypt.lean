import Lime.Orchestrator.Session
import Mathlib.Algebra.Group.Int
import Mathlib.Data.List.Nodup

/-!
# `Lime::decrypt`

Decryption of one message from a peer device tries, in this order, the session cached
for the sender, the sender's other sessions loaded from the local storage, and a new
responder session built from the X3DH init the message may carry. Its callees live
outside lime.cpp; `DecryptCallees` takes them as parameters, so every result below holds
whatever they answer. The model records each call of `decryptMessage` (the sessions it
was handed and the one it returned), which is how the results speak of the attempts.

* `decrypt_postcondition`: `decrypt` succeeds exactly when one of its `decryptMessage`
  calls returns a session; then it returns the sender's status read at entry and the
  cache maps the sender to that session. On failure the sender has no cache entry. The
  other devices' entries never change.
* `decrypt_retries_cached_session`: the cached session's id is kept in
  `db_sessionIdInCache`, declared `auto … = 0`, hence an `int`. A `long int` id of `2^31`
  becomes `-2^31` there, so `get_DRSessions` excludes nothing and the cached session is
  handed to `decryptMessage` a second time.
* `decrypt_tries_each_stored_session_once_iff`: when `get_DRSessions` returns the stored
  sessions but the one with the id to skip, the cached and the storage attempts hand every
  stored session to `decryptMessage` exactly once if and only if the cached session's id
  is in the `int` range (`narrowToInt_eq_self_iff`).
-/

namespace Lime

/-- `decryptMessage` (lime_double_ratchet), as `decrypt` uses it: handed sessions, it
returns the one that decrypted the message, if any. -/
structure DecryptMessage where
  run : List DR → Option DR
  mem_of_run : ∀ {l s}, run l = some s → s ∈ l

/-- The callees of `Lime::decrypt` outside lime.cpp, each with whatever outcome. -/
structure DecryptCallees where
  /-- `m_localStorage->get_peerDeviceStatus(senderDeviceId)`. -/
  get_peerDeviceStatus : DeviceId → PeerDeviceStatus
  /-- `get_DRSessions(senderDeviceId, ignoreThisDBSessionId, DRSessions)`. -/
  get_DRSessions : DeviceId → Int → List DR
  decryptMessage : DecryptMessage
  /-- `double_ratchet_protocol::parseMessage_get_X3DHinit`: the X3DH init the message
  carries, if any. -/
  parseMessage_get_X3DHinit : List UInt8 → Option (List UInt8)
  /-- `m_X3DH->init_receiver_session(X3DH_initMessage, senderDeviceId)`. -/
  init_receiver_session : List UInt8 → DeviceId → Except BctbxException DR

/-- What one `decrypt` call returns and leaves: the status it returns, the session cache
afterwards, and each `decryptMessage` call with the sessions handed and the result. -/
structure DecryptResult where
  status : PeerDeviceStatus
  cache : Cache
  calls : List (List DR × Option DR)

/-- The value a `long int` takes in an `int` (32-bit, two's complement). -/
def narrowToInt (x : Int) : Int := Int.bmod x (2 ^ 32)

/-- A `long int` keeps its value in an `int` exactly when it is in the `int` range. -/
theorem narrowToInt_eq_self_iff (x : Int) : narrowToInt x = x ↔ -2 ^ 31 ≤ x ∧ x < 2 ^ 31 := by
  have hm : ((2 ^ 32 : Nat) : Int) = 4294967296 := rfl
  have h31 : (2 : Int) ^ 31 = 2147483648 := rfl
  unfold narrowToInt Int.bmod
  rw [hm, h31]
  dsimp only
  split <;> omega

variable (callees : DecryptCallees)

/-- Lines 226-259 of `decrypt`: the stored sessions except `db_sessionIdInCache`, then
the X3DH init path. `calls` holds the calls already made. -/
def decryptFromStorage (cache : Cache) (senderDeviceId : DeviceId) (DRmessage : List UInt8)
    (senderDeviceStatus : PeerDeviceStatus) (db_sessionIdInCache : Int)
    (calls : List (List DR × Option DR)) : DecryptResult :=
  let DRSessions := callees.get_DRSessions senderDeviceId db_sessionIdInCache
  let usedDRSession := callees.decryptMessage.run DRSessions
  let calls := calls ++ [(DRSessions, usedDRSession)]
  match usedDRSession with
  | some s => ⟨senderDeviceStatus, cache.assign senderDeviceId s, calls⟩
  | none =>
    match callees.parseMessage_get_X3DHinit DRmessage with
    | none => ⟨.fail, cache, calls⟩
    | some X3DH_initMessage =>
      match callees.init_receiver_session X3DH_initMessage senderDeviceId with
      | .error _ => ⟨.fail, cache, calls⟩
      | .ok DRSession =>
        let result := callees.decryptMessage.run [DRSession]
        let calls := calls ++ [([DRSession], result)]
        match result with
        | some _ => ⟨senderDeviceStatus, cache.assign senderDeviceId DRSession, calls⟩
        | none => ⟨.fail, cache, calls⟩

/-- `Lime<Curve>::decrypt`, run under `m_mutex`. `db_sessionIdInCache` is declared
`auto db_sessionIdInCache = 0`, an `int`, and receives the cached session's `long int`
id. -/
def decrypt (cache : Cache) (senderDeviceId : DeviceId) (DRmessage : List UInt8) :
    DecryptResult :=
  let senderDeviceStatus := callees.get_peerDeviceStatus senderDeviceId
  match cache.find senderDeviceId with
  | some s =>
    let db_sessionIdInCache := narrowToInt s.dbSessionId
    match callees.decryptMessage.run [s] with
    | some used => ⟨senderDeviceStatus, cache, [([s], some used)]⟩
    | none => decryptFromStorage callees (cache.erase senderDeviceId) senderDeviceId DRmessage
        senderDeviceStatus db_sessionIdInCache [([s], none)]
  | none => decryptFromStorage callees cache senderDeviceId DRmessage senderDeviceStatus 0 []

/-! ## The result of `decrypt` -/

/-- The postcondition of `decrypt` on a result `r`, for the sender `d`, the status `st`
read at entry and the cache `cache` at entry. -/
structure DecryptPost (cache : Cache) (d : DeviceId) (st : PeerDeviceStatus)
    (r : DecryptResult) : Prop where
  succeeds_iff : r.status ≠ .fail ↔ ∃ call ∈ r.calls, call.2.isSome
  status_of_success : r.status ≠ .fail → r.status = st
  cached_of_success : r.status ≠ .fail → ∀ l s, (l, some s) ∈ r.calls → r.cache.find d = some s
  evicted_of_fail : r.status = .fail → r.cache.find d = none
  others : ∀ d' ≠ d, r.cache.find d' = cache.find d'

namespace DecryptPost

variable {cache : Cache} {d : DeviceId} {st : PeerDeviceStatus} {r : DecryptResult}

theorem of_success (hst : st ≠ .fail) (hstatus : r.status = st) {l : List DR} {s : DR}
    (hcall : (l, some s) ∈ r.calls) (hcalls : ∀ call ∈ r.calls, call.2 = none ∨ call.2 = some s)
    (hfind : r.cache.find d = some s) (hothers : ∀ d' ≠ d, r.cache.find d' = cache.find d') :
    DecryptPost cache d st r :=
  ⟨⟨fun _ => ⟨_, hcall, rfl⟩, fun _ => hstatus ▸ hst⟩, fun _ => hstatus,
    fun _ l' s' h' => by simpa [hfind, eq_comm] using (hcalls _ h').resolve_left (by simp),
    fun h => absurd (h ▸ hstatus).symm hst, hothers⟩

/-- The calls of a run that failed until its last call. -/
theorem calls_append_last {base : List (List DR × Option DR)} {l : List DR} {s : DR}
    (h : ∀ call ∈ base, call.2 = none) :
    ∀ call ∈ base ++ [(l, some s)], call.2 = none ∨ call.2 = some s := fun call hc => by
  rcases List.mem_append.mp hc with hc | hc
  · exact .inl (h call hc)
  · simp [List.mem_singleton.mp hc]

/-- The calls of a run that failed at every call. -/
theorem calls_append_none {base : List (List DR × Option DR)} {l : List DR}
    (h : ∀ call ∈ base, call.2 = none) : ∀ call ∈ base ++ [(l, none)], call.2 = none :=
  fun call hc => (List.mem_append.mp hc).elim (h call) fun hc => by rw [List.mem_singleton.mp hc]

theorem of_fail (hstatus : r.status = .fail) (hcalls : ∀ call ∈ r.calls, call.2 = none)
    (hfind : r.cache.find d = none) (hothers : ∀ d' ≠ d, r.cache.find d' = cache.find d') :
    DecryptPost cache d st r :=
  ⟨⟨fun h => absurd hstatus h, fun ⟨call, hc, hs⟩ => by simp [hcalls call hc] at hs⟩,
    fun h => absurd hstatus h, fun h => absurd hstatus h, fun _ => hfind, hothers⟩

end DecryptPost

open DecryptPost in
theorem decryptFromStorage_post {cache cache₀ : Cache} {d : DeviceId} {DRmessage : List UInt8}
    {st : PeerDeviceStatus} {ign : Int} {calls : List (List DR × Option DR)}
    (hst : st ≠ .fail) (hd : cache.find d = none) (hcalls : ∀ call ∈ calls, call.2 = none)
    (hothers : ∀ d' ≠ d, cache.find d' = cache₀.find d') :
    DecryptPost cache₀ d st (decryptFromStorage callees cache d DRmessage st ign calls) := by
  have hassign : ∀ s : DR, ∀ d' ≠ d, (cache.assign d s).find d' = cache₀.find d' :=
    fun s d' hd' => (Cache.find_assign_ne _ _ hd').trans (hothers d' hd')
  have hlast : ∀ {base : List (List DR × Option DR)} {l : List DR} {o : Option DR},
      (l, o) ∈ base ++ [(l, o)] :=
    List.mem_append_right _ (List.mem_singleton_self _)
  unfold decryptFromStorage
  dsimp only
  cases hu : callees.decryptMessage.run (callees.get_DRSessions d ign) with
  | some s => exact .of_success hst rfl hlast (calls_append_last hcalls) (by simp) (hassign s)
  | none =>
    have hcalls' := calls_append_none (l := callees.get_DRSessions d ign) hcalls
    cases callees.parseMessage_get_X3DHinit DRmessage with
    | none => exact .of_fail rfl hcalls' hd hothers
    | some init =>
      dsimp only
      cases callees.init_receiver_session init d with
      | error _ => exact .of_fail rfl hcalls' hd hothers
      | ok S =>
        dsimp only
        cases hr : callees.decryptMessage.run [S] with
        | some x =>
          have hx : x = S := by simpa using callees.decryptMessage.mem_of_run hr
          subst hx
          exact .of_success hst rfl hlast (calls_append_last hcalls') (by simp) (hassign x)
        | none => exact .of_fail rfl (calls_append_none hcalls') hd hothers

/-- `decrypt` succeeds exactly when one of its `decryptMessage` calls returns a session,
and then returns the sender's status read at entry and caches that session for the
sender; when it fails the sender has no cache entry; the entries of the other devices
never change. This holds for every cache, every answer of the callees, and every message,
as long as the sender's stored status is not `fail`. -/
theorem decrypt_postcondition (cache : Cache) (senderDeviceId : DeviceId)
    (DRmessage : List UInt8) (hStatus : callees.get_peerDeviceStatus senderDeviceId ≠ .fail) :
    DecryptPost cache senderDeviceId (callees.get_peerDeviceStatus senderDeviceId)
      (decrypt callees cache senderDeviceId DRmessage) := by
  unfold decrypt
  dsimp only
  cases hc : cache.find senderDeviceId with
  | none => exact decryptFromStorage_post callees hStatus hc (by simp) fun _ _ => rfl
  | some s =>
    dsimp only
    cases hr : callees.decryptMessage.run [s] with
    | some used =>
      have hused : used = s := by simpa using callees.decryptMessage.mem_of_run hr
      subst hused
      exact .of_success hStatus rfl (List.mem_singleton_self _) (by simp) hc fun _ _ => rfl
    | none =>
      exact decryptFromStorage_post callees hStatus (Cache.find_erase_self _ _) (by simp)
        fun d' hd' => Cache.find_erase_ne _ hd'

/-- A sender with status `unknown`, no cached session, and one stored session, which
decrypts: `decrypt` returns `unknown` and caches that session. -/
theorem decrypt_postcondition_of_stored_session :
    PeerDeviceStatus.unknown ≠ .fail ∧
      DecryptPost ⟨fun _ => none⟩ "bob" .unknown
        (decrypt ⟨fun _ => .unknown, fun _ _ => [⟨1, true⟩],
          ⟨List.head?, fun h => List.mem_of_mem_head? h⟩, fun _ => none,
          fun _ _ => .error ⟨""⟩⟩ ⟨fun _ => none⟩ "bob" []) :=
  ⟨by decide, decrypt_postcondition ⟨fun _ => .unknown, fun _ _ => [⟨1, true⟩],
    ⟨List.head?, fun h => List.mem_of_mem_head? h⟩, fun _ => none, fun _ _ => .error ⟨""⟩⟩
    ⟨fun _ => none⟩ "bob" [] (by decide)⟩

/-! ## The id of the cached session -/

/-- A cached session with id `2^31`, a second stored session, a storage that returns the
sender's sessions except the one with the given id, and no session that decrypts: the
cached session is handed to `decryptMessage` twice, since `get_DRSessions` is asked to
skip id `-2^31`. -/
theorem decrypt_retries_cached_session :
    narrowToInt (2 ^ 31) = -2 ^ 31 ∧
      ((decrypt ⟨fun _ => .trusted,
        fun _ ignore => [⟨2 ^ 31, true⟩, ⟨2, true⟩].filter (fun s => s.dbSessionId ≠ ignore),
        ⟨fun _ => none, fun h => nomatch h⟩, fun _ => none, fun _ _ => .error ⟨""⟩⟩
        ⟨fun _ => some ⟨2 ^ 31, true⟩⟩ "bob" []).calls.map Prod.fst =
        [[⟨2 ^ 31, true⟩], [⟨2 ^ 31, true⟩, ⟨2, true⟩]]) := by
  decide

/-- The second `decryptMessage` call of `decryptFromStorage` is handed what
`get_DRSessions` returns for the id to skip. -/
theorem decryptFromStorage_calls_take (cache : Cache) (senderDeviceId : DeviceId)
    (DRmessage : List UInt8) (st : PeerDeviceStatus) (ign : Int)
    (calls : List (List DR × Option DR)) :
    (decryptFromStorage callees cache senderDeviceId DRmessage st ign calls).calls.take
        (calls.length + 1) =
      calls ++ [(callees.get_DRSessions senderDeviceId ign,
        callees.decryptMessage.run (callees.get_DRSessions senderDeviceId ign))] := by
  have htake : ∀ x rest, (calls ++ x :: rest).take (calls.length + 1) = calls ++ [x] :=
    fun x rest => by simp [List.take_append_eq_append_take, List.take_of_length_le]
  unfold decryptFromStorage
  dsimp only
  cases callees.decryptMessage.run (callees.get_DRSessions senderDeviceId ign) with
  | some _ => exact htake _ _
  | none =>
    cases callees.parseMessage_get_X3DHinit DRmessage with
    | none => exact htake _ _
    | some init =>
      dsimp only
      cases callees.init_receiver_session init senderDeviceId with
      | error _ => exact htake _ _
      | ok S =>
        dsimp only
        cases callees.decryptMessage.run [S] <;> simp [htake]

/-- Under the contract of `get_DRSessions` (the sender's stored sessions except the one
with the id to skip) and with unique session ids, when the cached session is a stored one
and fails, the cached attempt and the storage attempt together hand every stored session to
`decryptMessage` exactly once if and only if the cached session's id fits in an `int`.
Outside that range the cached session is handed a second time. -/
theorem decrypt_tries_each_stored_session_once_iff (cache : Cache) (senderDeviceId : DeviceId)
    (DRmessage : List UInt8) {s : DR} {stored : List DR}
    (hs : cache.find senderDeviceId = some s) (hfail : callees.decryptMessage.run [s] = none)
    (hstored : ∀ ign, callees.get_DRSessions senderDeviceId ign =
      stored.filter (·.dbSessionId != ign))
    (hids : (stored.map DR.dbSessionId).Nodup) (hmem : s ∈ stored) :
    (∀ x ∈ stored, (((decrypt callees cache senderDeviceId DRmessage).calls.take 2).flatMap
        Prod.fst).count x = 1) ↔ -2 ^ 31 ≤ s.dbSessionId ∧ s.dbSessionId < 2 ^ 31 := by
  have htake := decryptFromStorage_calls_take callees (cache.erase senderDeviceId) senderDeviceId
    DRmessage (callees.get_peerDeviceStatus senderDeviceId) (narrowToInt s.dbSessionId)
    [([s], none)]
  have hdec : ((decrypt callees cache senderDeviceId DRmessage).calls.take 2).flatMap Prod.fst =
      s :: stored.filter (·.dbSessionId != narrowToInt s.dbSessionId) := by
    simp only [List.length_singleton, Nat.reduceAdd] at htake
    simp only [decrypt, hs, hfail, htake, hstored, List.singleton_append, List.flatMap_cons,
      List.flatMap_nil, List.append_nil]
  rw [hdec, ← narrowToInt_eq_self_iff]
  constructor
  · -- the cached session is handed once only when the lookup skips its own id
    intro h
    have hs1 := h s hmem
    rw [List.count_cons_self, Nat.add_left_eq_self, List.count_eq_zero] at hs1
    by_contra hne
    exact hs1 (List.mem_filter.2 ⟨hmem, bne_iff_ne.2 (Ne.symm hne)⟩)
  · -- then the lookup returns every other stored session, each once
    intro hn x hx
    rw [hn, List.count_cons]
    by_cases hxs : x = s
    · subst hxs
      rw [List.count_eq_zero_of_not_mem
        (by simp only [List.mem_filter, bne_self_eq_false, Bool.false_eq_true, and_false,
          not_false_eq_true]),
        beq_self_eq_true]
      rfl
    · have hid : x.dbSessionId ≠ s.dbSessionId := fun h =>
        hxs (List.inj_on_of_nodup_map hids hx hmem h)
      rw [List.count_filter (by simpa using hid), List.count_eq_one_of_mem (hids.of_map _) hx]
      simp [Ne.symm hxs]

/-- The local storage holds the sender's sessions with ids `2^31` and `2`, returns them
but the one with the id to skip, and none of them decrypts. -/
def twoStoredSessions : DecryptCallees :=
  ⟨fun _ => .trusted, fun _ ignore => [⟨2 ^ 31, true⟩, ⟨2, true⟩].filter (·.dbSessionId != ignore),
    ⟨fun _ => none, fun h => nomatch h⟩, fun _ => none, fun _ _ => .error ⟨""⟩⟩

theorem decrypt_tries_each_stored_session_once_of_id_two :
    ((⟨fun _ => some ⟨2, true⟩⟩ : Cache).find "bob" = some ⟨2, true⟩ ∧
      twoStoredSessions.decryptMessage.run [⟨2, true⟩] = none ∧
      (∀ ign, twoStoredSessions.get_DRSessions "bob" ign =
        [⟨2 ^ 31, true⟩, ⟨2, true⟩].filter (·.dbSessionId != ign)) ∧
      ([(⟨2 ^ 31, true⟩ : DR), ⟨2, true⟩].map DR.dbSessionId).Nodup ∧
      (⟨2, true⟩ : DR) ∈ [(⟨2 ^ 31, true⟩ : DR), ⟨2, true⟩]) ∧
    ((∀ x ∈ [(⟨2 ^ 31, true⟩ : DR), ⟨2, true⟩],
      (((decrypt twoStoredSessions ⟨fun _ => some ⟨2, true⟩⟩ "bob" []).calls.take 2).flatMap
        Prod.fst).count x = 1) ↔ -2 ^ 31 ≤ (2 : Int) ∧ (2 : Int) < 2 ^ 31) :=
  ⟨⟨rfl, rfl, fun _ => rfl, by decide, by decide⟩,
    decrypt_tries_each_stored_session_once_iff twoStoredSessions _ _ _ rfl rfl (fun _ => rfl)
      (by decide) (by decide)⟩

end Lime

import Lime.Orchestrator.Session

/-!
# The recipients of `Lime::encrypt`

`encrypt` works on `internal_recipients`, a list built from the caller's `recipients`
that skips those whose input status is already `fail` (lines 127-146). Once the sessions
are loaded and the message encrypted, the synchronous path copies each entry's DR message
and status back to the recipient it came from (lines 173-184), skipping the `fail`
recipients again so that the two walks stay in step.

* `buildInternalRecipients_deviceIds`: `internal_recipients` holds the device ids of the
  non-`fail` recipients, in order.
* `encrypt_session_lookups`: `missing_devices` lists the handled recipients' devices that
  have neither an active cached session nor a stored one, and the cache then holds each
  handled device's active or stored session.
* `copyBack_spec`: the copy-back loop reads no entry past the end of
  `internal_recipients` and writes the `k`-th entry to the `k`-th non-`fail` recipient.
* `encrypt_copies_back`: on the synchronous path, whatever `cache_DR_sessions` and
  `encryptMessage` write into `internal_recipients` without reordering, inserting or
  removing entries, every recipient gets back its own entry.
-/

namespace Lime

/-- `lime::RecipientData`: one recipient of an encryption, updated in place. -/
structure RecipientData where
  deviceId : DeviceId
  peerStatus : PeerDeviceStatus
  DRmessage : List UInt8
  deriving DecidableEq, Repr

/-- `RecipientInfos`, the internal record of one recipient. Its constructors take the
device id and the session, if any, and leave the status `unknown` and the message empty
(lime_impl.hpp); `cache_DR_sessions` sets the status. -/
structure RecipientInfos where
  deviceId : DeviceId
  DRSession : Option DR
  peerStatus : PeerDeviceStatus := .unknown
  DRmessage : List UInt8 := []
  deriving DecidableEq, Repr

/-- A callee that updates `internal_recipients` in place: it may rewrite every entry's
session, status and message, and neither reorders, inserts nor removes an entry. -/
structure RecipientsUpdate where
  run : List RecipientInfos → List RecipientInfos
  deviceIds_run : ∀ l, (run l).map (·.deviceId) = l.map (·.deviceId)

/-- Whether `encrypt` handles a recipient: its input status is not `fail`. -/
def RecipientData.isHandled (r : RecipientData) : Bool := r.peerStatus != .fail

/-- Lines 134-144, for one recipient: the cached session if it is active; an inactive
one is erased from the cache and the recipient gets no session. -/
def lookupSession (cache : Cache) (deviceId : DeviceId) : RecipientInfos × Cache :=
  match cache.find deviceId with
  | some s =>
    if s.isActive then (⟨deviceId, some s, .unknown, []⟩, cache)
    else (⟨deviceId, none, .unknown, []⟩, cache.erase deviceId)
  | none => (⟨deviceId, none, .unknown, []⟩, cache)

/-- Lines 130-146: `internal_recipients` and the cache after the lookups. -/
def buildInternalRecipients : Cache → List RecipientData → List RecipientInfos × Cache
  | cache, [] => ([], cache)
  | cache, recipient :: rest =>
    if recipient.isHandled then
      let (info, cache) := lookupSession cache recipient.deviceId
      let (infos, cache) := buildInternalRecipients cache rest
      (info :: infos, cache)
    else buildInternalRecipients cache rest

/-- Lines 173-184: walk `recipients` with the index `i` into `internal_recipients`,
copying the entry's message and status into each handled recipient. Reading past the end
of `internal_recipients` is a failed access (`none`). -/
def copyBack (internal : List RecipientInfos) : List RecipientData → Nat → Option (List RecipientData)
  | [], _ => some []
  | recipient :: rest, i =>
    if recipient.isHandled then do
      let info ← internal[i]?
      let rest ← copyBack internal rest (i + 1)
      pure ({ recipient with DRmessage := info.DRmessage, peerStatus := info.peerStatus } :: rest)
    else do
      let rest ← copyBack internal rest i
      pure (recipient :: rest)

/-- Lines 174-183: the callback reports success when some recipient was handled. -/
def callbackResult (recipients : List RecipientData) : CallbackReturn × String :=
  if recipients.any (·.isHandled) then (.success, "")
  else (.fail, "All recipients failed to provide a key bundle")

/-! ## The session lookups -/

/-- The session the cache holds for `d` if it is active: what the lookups of `encrypt`
take from the cache. -/
def Cache.activeSession (m : Cache) (d : DeviceId) : Option DR := (m.find d).filter (·.isActive)

theorem lookupSession_fst (cache : Cache) (deviceId : DeviceId) :
    (lookupSession cache deviceId).1 = ⟨deviceId, cache.activeSession deviceId, .unknown, []⟩ := by
  unfold lookupSession Cache.activeSession
  split
  · split <;> simp_all [Option.filter]
  · simp_all

theorem find_lookupSession (cache : Cache) (deviceId d : DeviceId) :
    (lookupSession cache deviceId).2.find d =
      if d = deviceId then cache.activeSession deviceId else cache.find d := by
  unfold lookupSession Cache.activeSession
  split
  · split
    · split <;> simp_all [Option.filter]
    · split
      · simp_all [Option.filter]
      · exact Cache.find_erase_ne _ ‹_›
  · split <;> simp_all

theorem activeSession_lookupSession (cache : Cache) (deviceId : DeviceId) :
    (lookupSession cache deviceId).2.activeSession = cache.activeSession := by
  funext d
  rw [Cache.activeSession, find_lookupSession]
  split
  · subst_vars
    cases h : cache.find d <;> simp [Cache.activeSession, h, Option.filter]
    split <;> simp_all
  · rfl

theorem buildInternalRecipients_fst (cache : Cache) (recipients : List RecipientData) :
    (buildInternalRecipients cache recipients).1 = (recipients.filter (·.isHandled)).map
      fun rec => ⟨rec.deviceId, cache.activeSession rec.deviceId, .unknown, []⟩ := by
  induction recipients generalizing cache with
  | nil => rfl
  | cons rec rest ih =>
    by_cases hr : rec.isHandled
    · simp [buildInternalRecipients, hr, lookupSession_fst, ih, activeSession_lookupSession]
    · simp [buildInternalRecipients, hr, ih]

theorem buildInternalRecipients_deviceIds (cache : Cache) (recipients : List RecipientData) :
    (buildInternalRecipients cache recipients).1.map (·.deviceId) =
      (recipients.filter (·.isHandled)).map (·.deviceId) := by
  simp [buildInternalRecipients_fst, Function.comp_def]

theorem find_buildInternalRecipients (cache : Cache) (recipients : List RecipientData)
    (d : DeviceId) :
    (buildInternalRecipients cache recipients).2.find d =
      if recipients.any (fun rec => rec.isHandled && rec.deviceId == d) then
        cache.activeSession d
      else cache.find d := by
  induction recipients generalizing cache with
  | nil => rfl
  | cons rec rest ih =>
    by_cases hr : rec.isHandled
    · by_cases hd : d = rec.deviceId
      · subst hd
        simp [buildInternalRecipients, hr, ih, activeSession_lookupSession, find_lookupSession]
      · simp [buildInternalRecipients, hr, ih, activeSession_lookupSession, find_lookupSession, hd,
          Ne.symm hd]
    · simp [buildInternalRecipients, hr, ih]

/-- Modelled from the spec (§4.7, encrypt step 2): `cache_DR_sessions`, which loads into
the cache the sessions the local storage holds for the recipients that have none, and
returns the devices still missing one. -/
def cacheDRSessions (stored : DeviceId → Option DR) :
    List RecipientInfos → Cache → List DeviceId × Cache
  | [], cache => ([], cache)
  | info :: rest, cache =>
    match info.DRSession, stored info.deviceId with
    | some _, _ => cacheDRSessions stored rest cache
    | none, some s => cacheDRSessions stored rest (cache.assign info.deviceId s)
    | none, none =>
      let (missing, cache) := cacheDRSessions stored rest cache
      (info.deviceId :: missing, cache)

/-- Lines 129-150 of `encrypt`: `missing_devices`, and the cache after the lookups. -/
def missingDevices (cache : Cache) (recipients : List RecipientData)
    (stored : DeviceId → Option DR) : List DeviceId × Cache :=
  let (internal, cache) := buildInternalRecipients cache recipients
  cacheDRSessions stored internal cache

theorem cacheDRSessions_fst (stored : DeviceId → Option DR) (infos : List RecipientInfos)
    (cache : Cache) :
    (cacheDRSessions stored infos cache).1 =
      (infos.filter fun info => info.DRSession.isNone && (stored info.deviceId).isNone).map
        (·.deviceId) := by
  induction infos generalizing cache with
  | nil => rfl
  | cons info rest ih =>
    unfold cacheDRSessions
    split <;> simp_all [List.filter_cons]

theorem find_cacheDRSessions (stored : DeviceId → Option DR) (infos : List RecipientInfos)
    (cache : Cache) (d : DeviceId) :
    (cacheDRSessions stored infos cache).2.find d =
      if infos.any (fun info => info.DRSession.isNone && info.deviceId == d) then
        (stored d).or (cache.find d)
      else cache.find d := by
  induction infos generalizing cache with
  | nil => rfl
  | cons info rest ih =>
    unfold cacheDRSessions
    by_cases hd : d = info.deviceId
    · subst hd
      split <;> simp [ih, *]
    · split <;> simp [ih, *, Cache.find_assign_ne _ _ hd, Ne.symm hd]

theorem missingDevices_fst (cache : Cache) (recipients : List RecipientData)
    (stored : DeviceId → Option DR) :
    (missingDevices cache recipients stored).1 =
      ((recipients.filter (·.isHandled)).filter fun rec =>
        (cache.activeSession rec.deviceId).isNone && (stored rec.deviceId).isNone).map
          (·.deviceId) := by
  simp [missingDevices, cacheDRSessions_fst, buildInternalRecipients_fst, List.filter_map,
    List.map_map, Function.comp_def]

theorem find_missingDevices (cache : Cache) (recipients : List RecipientData)
    (stored : DeviceId → Option DR) (d : DeviceId) :
    (missingDevices cache recipients stored).2.find d =
      if recipients.any (fun rec => rec.isHandled && rec.deviceId == d) then
        (cache.activeSession d).or (stored d)
      else cache.find d := by
  have hany : ((recipients.filter (·.isHandled)).map fun rec =>
        (⟨rec.deviceId, cache.activeSession rec.deviceId, .unknown, []⟩ : RecipientInfos)).any
        (fun info => info.DRSession.isNone && info.deviceId == d) =
      ((recipients.any fun rec => rec.isHandled && rec.deviceId == d) &&
        (cache.activeSession d).isNone) := by
    induction recipients with
    | nil => rfl
    | cons rec rest ih =>
      by_cases hr : rec.isHandled <;> by_cases hd : rec.deviceId = d <;>
        simp_all [List.filter_cons, beq_eq_false_iff_ne.2]
  simp only [missingDevices, find_cacheDRSessions, find_buildInternalRecipients,
    buildInternalRecipients_fst, hany]
  cases recipients.any fun rec => rec.isHandled && rec.deviceId == d <;>
    cases cache.activeSession d <;> simp

/-- The session lookups of `encrypt` (lines 129-150): `missing_devices` lists, in order,
the devices of the handled recipients that have neither an active session in the cache nor
one in the local storage. Afterwards the cache holds, for each device a handled recipient
names, its active cached session, else the stored one; other entries are unchanged. -/
theorem encrypt_session_lookups (cache : Cache) (recipients : List RecipientData)
    (stored : DeviceId → Option DR) :
    (missingDevices cache recipients stored).1 =
        ((recipients.filter (·.isHandled)).filter fun rec =>
          (cache.activeSession rec.deviceId).isNone && (stored rec.deviceId).isNone).map
            (·.deviceId) ∧
      ∀ d, (missingDevices cache recipients stored).2.find d =
        if recipients.any (fun rec => rec.isHandled && rec.deviceId == d) then
          (cache.activeSession d).or (stored d)
        else cache.find d :=
  ⟨missingDevices_fst cache recipients stored, find_missingDevices cache recipients stored⟩

/-- The number of handled recipients before position `j`: the index `copyBack` has
reached there. -/
def handledBefore (recipients : List RecipientData) (j : Nat) : Nat :=
  ((recipients.take j).filter (·.isHandled)).length

@[simp] theorem handledBefore_zero (recipients : List RecipientData) :
    handledBefore recipients 0 = 0 := rfl

@[simp] theorem handledBefore_cons_succ (r : RecipientData) (rest : List RecipientData)
    (j : Nat) :
    handledBefore (r :: rest) (j + 1) = (if r.isHandled then 1 else 0) + handledBefore rest j := by
  by_cases hr : r.isHandled <;> simp [handledBefore, hr, List.filter_cons, Nat.add_comm]

/-- The result of the copy-back loop started at index `i`: each unhandled recipient is
unchanged; the handled one at position `j` carries the message and status of entry
`i + handledBefore recipients j`. -/
structure CopiedBack (internal : List RecipientInfos) (recipients : List RecipientData)
    (i : Nat) (out : List RecipientData) : Prop where
  length_eq : out.length = recipients.length
  unhandled : ∀ (j : Nat) (r : RecipientData), recipients[j]? = some r → r.isHandled = false →
    out[j]? = some r
  handled : ∀ (j : Nat) (r : RecipientData), recipients[j]? = some r → r.isHandled = true →
    ∃ info, internal[i + handledBefore recipients j]? = some info ∧
      out[j]? = some { r with DRmessage := info.DRmessage, peerStatus := info.peerStatus }

/-- An unhandled recipient in front is kept as it is, and the index stays. -/
theorem CopiedBack.cons_unhandled {internal : List RecipientInfos} {r : RecipientData}
    {rest out : List RecipientData} {i : Nat} (hc : CopiedBack internal rest i out)
    (hr : r.isHandled = false) : CopiedBack internal (r :: rest) i (r :: out) := by
  refine ⟨by simp [hc.length_eq], fun j r' hj hr' => ?_, fun j r' hj hr' => ?_⟩
  · cases j with
    | zero => simpa using hj
    | succ j => simpa using hc.unhandled j r' (by simpa using hj) hr'
  · cases j with
    | zero => simp only [List.getElem?_cons_zero, Option.some.injEq] at hj; simp [← hj, hr] at hr'
    | succ j =>
      obtain ⟨info, h1, h2⟩ := hc.handled j r' (by simpa using hj) hr'
      exact ⟨info, by simpa [hr] using h1, by simpa using h2⟩

/-- A handled recipient in front takes the message and status of entry `i`, and the rest
is copied from entry `i + 1` on. -/
theorem CopiedBack.cons_handled {internal : List RecipientInfos} {r : RecipientData}
    {rest out : List RecipientData} {i : Nat} (hc : CopiedBack internal rest (i + 1) out)
    (hr : r.isHandled = true) (hi : i < internal.length) :
    CopiedBack internal (r :: rest) i
      ({ r with DRmessage := internal[i].DRmessage, peerStatus := internal[i].peerStatus } :: out) := by
  refine ⟨by simp [hc.length_eq], fun j r' hj hr' => ?_, fun j r' hj hr' => ?_⟩
  · cases j with
    | zero => simp only [List.getElem?_cons_zero, Option.some.injEq] at hj; simp [← hj, hr] at hr'
    | succ j => simpa using hc.unhandled j r' (by simpa using hj) hr'
  · cases j with
    | zero =>
      simp only [List.getElem?_cons_zero, Option.some.injEq] at hj
      exact ⟨internal[i], by simp [List.getElem?_eq_getElem hi], by simp [hj]⟩
    | succ j =>
      obtain ⟨info, h1, h2⟩ := hc.handled j r' (by simpa using hj) hr'
      exact ⟨info, by simpa [hr, Nat.add_assoc, Nat.add_comm 1] using h1, by simpa using h2⟩

theorem copyBack_spec (internal : List RecipientInfos) (recipients : List RecipientData)
    (i : Nat) (hlen : i + (recipients.filter (·.isHandled)).length ≤ internal.length) :
    ∃ out, copyBack internal recipients i = some out ∧ CopiedBack internal recipients i out := by
  induction recipients generalizing i with
  | nil => exact ⟨[], rfl, rfl, fun _ _ h => by simp at h, fun _ _ h => by simp at h⟩
  | cons r rest ih =>
    by_cases hr : r.isHandled
    · simp only [List.filter_cons, hr, ↓reduceIte, List.length_cons] at hlen
      have hi : i < internal.length := by omega
      obtain ⟨out, hout, hc⟩ := ih (i + 1) (by omega)
      exact ⟨_, by simp [copyBack, hr, List.getElem?_eq_getElem hi, hout], hc.cons_handled hr hi⟩
    · simp only [List.filter_cons, hr, Bool.false_eq_true, ↓reduceIte] at hlen
      obtain ⟨out, hout, hc⟩ := ih i hlen
      exact ⟨r :: out, by simp [copyBack, hr, hout], hc.cons_unhandled (by simpa using hr)⟩

/-- On the synchronous path of `encrypt`, `internal_recipients` lists the device ids of
the recipients whose input status is not `fail`, in order; and whatever
`cache_DR_sessions` and `encryptMessage` then write into it without reordering, inserting
or removing entries, the copy-back loop leaves every `fail` recipient as it was and gives
the `k`-th other recipient the message and status of entry `k`. -/
theorem encrypt_copies_back (cache : Cache) (recipients : List RecipientData)
    (cache_DR_sessions encryptMessage : RecipientsUpdate) :
    (buildInternalRecipients cache recipients).1.map (·.deviceId) =
        (recipients.filter (·.isHandled)).map (·.deviceId) ∧
      ∃ out, copyBack (encryptMessage.run (cache_DR_sessions.run
          (buildInternalRecipients cache recipients).1)) recipients 0 = some out ∧
        CopiedBack (encryptMessage.run (cache_DR_sessions.run
          (buildInternalRecipients cache recipients).1)) recipients 0 out := by
  have hids := buildInternalRecipients_deviceIds cache recipients
  refine ⟨hids, copyBack_spec _ _ 0 ?_⟩
  have hlen := congrArg List.length ((encryptMessage.deviceIds_run _).trans
    ((cache_DR_sessions.deviceIds_run _).trans hids))
  simp only [List.length_map] at hlen
  omega

end Lime

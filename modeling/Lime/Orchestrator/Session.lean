import Mathlib.Logic.Function.Basic

/-!
# Sessions, peer status and the session cache

The data the per-user orchestrator `Lime<Curve>` (lime.cpp) keeps between calls: the
cache `m_DR_sessions_cache` of Double Ratchet sessions, one per peer device, and the
values its encrypt and decrypt paths exchange with their callers.

A Double Ratchet session `DR` is seen only through what lime.cpp reads of it: its row
id in the local storage and whether it is active. The cache is a finite map read through
`find`; `erase`, `assign` (`cache[deviceId] = session`) and `emplace` are the three ways
lime.cpp writes it, each with its `find` lemmas below.
-/

namespace Lime

/-- A peer device identifier (a GRUU). -/
abbrev DeviceId := String

/-- Modelled from the spec: `lime::PeerDeviceStatus`, the trust state of a peer device
(§3, PeerDevice), whose declaration is not in the modelled sources. -/
inductive PeerDeviceStatus where
  | untrusted
  | trusted
  /-- `unsafe`, a keyword in Lean. -/
  | unsafeDevice
  | fail
  | unknown
  deriving DecidableEq, Repr

/-- `BctbxException`, the exception lime.cpp and its callees throw, with its message. -/
structure BctbxException where
  message : String

/-- `lime::CallbackReturn`. -/
inductive CallbackReturn where
  | success
  | fail
  deriving DecidableEq, Repr

/-- A Double Ratchet session, through what lime.cpp reads of it: `dbSessionId()`, a
`long int`, and `isActive()`. -/
structure DR where
  dbSessionId : Int
  isActive : Bool
  deriving DecidableEq, Repr

/-- `m_DR_sessions_cache`: at most one session per peer device. -/
structure Cache where
  find : DeviceId → Option DR

namespace Cache

/-- `m_DR_sessions_cache.erase(deviceId)`. -/
def erase (m : Cache) (d : DeviceId) : Cache := ⟨Function.update m.find d none⟩

/-- `m_DR_sessions_cache[deviceId] = session`. -/
def assign (m : Cache) (d : DeviceId) (s : DR) : Cache := ⟨Function.update m.find d (some s)⟩

/-- `m_DR_sessions_cache.emplace(deviceId, session)`: no effect when the device already
has an entry. -/
def emplace (m : Cache) (d : DeviceId) (s : DR) : Cache :=
  if (m.find d).isSome then m else m.assign d s

@[simp] theorem find_erase_self (m : Cache) (d : DeviceId) : (m.erase d).find d = none := by
  simp [erase]

@[simp] theorem find_assign_self (m : Cache) (d : DeviceId) (s : DR) :
    (m.assign d s).find d = some s := by
  simp [assign]

theorem find_erase_ne (m : Cache) {d d' : DeviceId} (h : d' ≠ d) :
    (m.erase d).find d' = m.find d' := by
  simp [erase, Function.update_noteq h]

theorem find_assign_ne (m : Cache) {d d' : DeviceId} (s : DR) (h : d' ≠ d) :
    (m.assign d s).find d' = m.find d' := by
  simp [assign, Function.update_noteq h]

theorem find_emplace_ne (m : Cache) {d d' : DeviceId} (s : DR) (h : d' ≠ d) :
    (m.emplace d s).find d' = m.find d' := by
  unfold emplace; split
  · rfl
  · exact find_assign_ne m s h

end Cache

end Lime

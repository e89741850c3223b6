import Lime.Orchestrator.Session

/-!
# Creating and loading a user

`insert_LimeUser` and `load_LimeUser` instantiate `Lime<C255>` or `Lime<C448>` for the
user's curve. Which of the two the library contains is a compile option, and both
factories first throw for a curve the build leaves out, then `switch` on the curve,
throwing for any other value. Each `case` returns only under its own `#ifdef`, and falls
through to the final `return nullptr` otherwise.

* `instantiateLime_eq_ok`: the dispatch both factories share returns without throwing
  exactly when the build instantiates the curve and the constructor succeeds, and then
  returns an object of that curve, never `nullptr`.
* `lime_factories_never_return_null`: the same for `insert_LimeUser`, which publishes
  the new user and so also throws when `publish_user` does, and `load_LimeUser`, which
  takes the curve stored for the user.
-/

namespace Lime

/-- `lime::CurveId`, an `enum class` over `uint8_t`; a value read back from the local
storage may be any byte. -/
structure CurveId where
  val : UInt8
  deriving DecidableEq, Repr

/-- `CurveId::unset`. -/
def CurveId.unset : CurveId := ⟨0⟩

/-- `CurveId::c25519`. -/
def CurveId.c25519 : CurveId := ⟨1⟩

/-- `CurveId::c448`. -/
def CurveId.c448 : CurveId := ⟨2⟩

theorem CurveId.c25519_ne_c448 : CurveId.c25519 ≠ CurveId.c448 := by decide

/-- The compile options that decide which curves the library instantiates. -/
structure BuildOptions where
  EC25519_ENABLED : Bool
  EC448_ENABLED : Bool

/-- Whether the build contains `Lime` for `curve`. -/
def BuildOptions.instantiates (opts : BuildOptions) (curve : CurveId) : Bool :=
  curve == .c25519 && opts.EC25519_ENABLED || curve == .c448 && opts.EC448_ENABLED

/-- The `Lime` object a factory returns: its curve, and whether `publish_user` was called
on it. -/
structure LimeUser where
  curve : CurveId
  published : Bool
  deriving DecidableEq, Repr

/-- The curve dispatch of both factories: the checks for a curve the build leaves out,
then the `switch`. `construct` is the outcome of the `Lime` constructor, and `none` is
`nullptr`. -/
def instantiateLime (opts : BuildOptions) (construct : Except BctbxException Unit)
    (publish : Bool) (msg25519 msg448 msgUnset : String) (curve : CurveId) :
    Except BctbxException (Option LimeUser) :=
  if !opts.EC25519_ENABLED && curve == .c25519 then .error ⟨msg25519⟩
  else if !opts.EC448_ENABLED && curve == .c448 then .error ⟨msg448⟩
  else if curve == .c25519 then
    if opts.EC25519_ENABLED then construct.map fun _ => some ⟨.c25519, publish⟩ else .ok none
  else if curve == .c448 then
    if opts.EC448_ENABLED then construct.map fun _ => some ⟨.c448, publish⟩ else .ok none
  else .error ⟨msgUnset⟩

/-- `insert_LimeUser`: the constructor inserts the user in the local storage (and throws
when it is there already), then `publish_user` is called on the new object; `publish` is
the outcome of `X3DH::publish_user`, which is not `noexcept`, and is reached only when the
constructor returned. -/
def insert_LimeUser (opts : BuildOptions) (construct publish : Except BctbxException Unit)
    (deviceId : DeviceId) (curve : CurveId) : Except BctbxException (Option LimeUser) :=
  instantiateLime opts (construct.bind fun _ => publish) true
    "Lime User creation asking to use Curve 25519 but it\x27s not supported - change lib lime compile option to enable it"
    "Lime User creation asking to use Curve 448 but it\x27s not supported - change lib lime compile option to enable it"
    ("Cannot create lime user " ++ deviceId) curve

/-- `load_LimeUser`: `stored` is what `localStorage->load_LimeUser` reads for the user,
the curve or the exception it throws when the user is not found. -/
def load_LimeUser (opts : BuildOptions) (stored : Except BctbxException CurveId)
    (construct : Except BctbxException Unit) (deviceId : DeviceId) :
    Except BctbxException (Option LimeUser) :=
  stored.bind <| instantiateLime opts construct false
    ("Lime load User " ++ deviceId ++
      " requests usage of Curve 25519 but it\x27s not supported - change lib lime compile option to enable it")
    ("Lime load User " ++ deviceId ++
      " requests usage of Curve 448 but it\x27s not supported - change lib lime compile option to enable it")
    ("Cannot create load user " ++ deviceId)

theorem instantiateLime_eq_ok (opts : BuildOptions) (construct : Except BctbxException Unit)
    (publish : Bool) (msg25519 msg448 msgUnset : String) (curve : CurveId)
    (u : Option LimeUser) :
    instantiateLime opts construct publish msg25519 msg448 msgUnset curve = .ok u ↔
      opts.instantiates curve ∧ construct = .ok () ∧ u = some ⟨curve, publish⟩ := by
  unfold instantiateLime BuildOptions.instantiates
  by_cases hc1 : curve = .c25519
  · subst hc1
    cases opts.EC25519_ENABLED <;> cases construct <;>
      simp [CurveId.c25519_ne_c448, Except.map, @eq_comm _ u]
  · by_cases hc2 : curve = .c448
    · subst hc2
      cases opts.EC448_ENABLED <;> cases construct <;>
        simp [CurveId.c25519_ne_c448.symm, Except.map, @eq_comm _ u]
    · simp [hc1, hc2]

/-- Neither factory returns `nullptr`: each returns without throwing exactly when the
build instantiates the user's curve and its callees return (the constructor, and for
`insert_LimeUser` then `publish_user`), and then returns an object of that curve,
published by `insert_LimeUser` and not by `load_LimeUser`. -/
theorem lime_factories_never_return_null (opts : BuildOptions)
    (construct publish : Except BctbxException Unit) (deviceId : DeviceId) (u : Option LimeUser) :
    (∀ curve, insert_LimeUser opts construct publish deviceId curve = .ok u ↔
      opts.instantiates curve ∧ construct = .ok () ∧ publish = .ok () ∧
        u = some ⟨curve, true⟩) ∧
    ∀ stored, load_LimeUser opts stored construct deviceId = .ok u ↔
      ∃ curve, stored = .ok curve ∧ opts.instantiates curve ∧ construct = .ok () ∧
        u = some ⟨curve, false⟩ := by
  have hbind : (construct.bind fun _ => publish) = .ok () ↔ construct = .ok () ∧ publish = .ok () := by
    cases construct <;> simp [Except.bind]
  refine ⟨fun curve => by rw [insert_LimeUser, instantiateLime_eq_ok, hbind, and_assoc],
    fun stored => ?_⟩
  cases stored with
  | error e => simp [load_LimeUser, Except.bind]
  | ok curve => simp [load_LimeUser, Except.bind, instantiateLime_eq_ok]

end Lime

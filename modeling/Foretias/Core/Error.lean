import Foretias.Library.ByteString
import Mathlib.Data.Int.Notation

/-!
# Errors, panics and results

The error types of the core engine, restricted to the variants the modelled functions raise.
A call can also end in a panic (a slice index out of range), which is neither `Ok` nor `Err`;
`Stop` separates the two, and `Result ε α` is what a Rust function of type `Result<α, ε>` does.
-/

namespace Foretias

/-- Errors of the cryptographic backend. -/
inductive CryptoError
  /-- A signature verification failed. -/
  | badSignature
  /-- The provided key is invalid or malformed. -/
  | badKey
  /-- Input data to a crypto operation was invalid. -/
  | badInput (what : String)
  /-- The requested crypto operation is not supported by this backend. -/
  | unsupported (what : String)
  /-- An internal error of the crypto library, identified by its code. -/
  | internal (code : ℤ)
  /-- The requested algorithm identifier is not recognized. -/
  | unknownAlgorithm (id : String)
  /-- The range proof was requested for an empty leaf set. -/
  | proofRangeEmpty
  /-- The requested range exceeds the number of leaves in the tree. -/
  | proofRangeExceeds
  deriving DecidableEq

instance : ToString CryptoError where
  toString
    | .badSignature => "bad signature"
    | .badKey => "bad key"
    | .badInput what => s!"bad input: {what}"
    | .unsupported what => s!"operation not supported: {what}"
    | .internal code => s!"internal crypto error: code {code}"
    | .unknownAlgorithm id => s!"unknown algorithm: {id}"
    | .proofRangeEmpty => "range proof: empty leaf set"
    | .proofRangeExceeds => "range proof: range exceeds leaf count"

/-- Top-level errors of the node. -/
inductive NodeError
  /-- A cryptographic operation failed. -/
  | crypto (e : CryptoError)
  /-- A requested resource (tick, record, etc.) was not found. -/
  | notFound (what : String)
  /-- An unexpected internal error with a descriptive message. -/
  | internal (message : String)
  /-- Input data failed validation. -/
  | invalidInput (message : String)
  deriving DecidableEq

instance : ToString NodeError where
  toString
    | .crypto e => s!"crypto operation failed: {e}"
    | .notFound what => s!"not found: {what}"
    | .internal message => s!"internal error: {message}"
    | .invalidInput message => s!"invalid input: {message}"

/-- An error response of the JSON-RPC server. -/
structure RpcError where
  /-- The code. -/
  code : ℤ
  /-- The message. -/
  message : String
  deriving DecidableEq

/-- `INVALID_PARAMS`. -/
def RpcError.invalidParams (message : String) : RpcError := ⟨-32602, message⟩

/-- `INTERNAL_ERROR`. -/
def RpcError.internalError (message : String) : RpcError := ⟨-32603, message⟩

/-- The server error of a handler that cannot sign. -/
def RpcError.signing (message : String) : RpcError := ⟨-32000, message⟩

/-- Why a call did not return `Ok`: an error it reports, or a panic. -/
inductive Stop (ε : Type)
  | err (e : ε)
  | panic
  deriving DecidableEq

/-- The outcome of a fallible function. -/
abbrev Result (ε α : Type) := Except (Stop ε) α

namespace Result

variable {ε ε' α β : Type}

/-- Report an error. -/
def err (e : ε) : Result ε α := .error (.err e)

/-- `map_err`: panics pass through. -/
def mapErr (f : ε → ε') : Result ε α → Result ε' α
  | .ok a => .ok a
  | .error (.err e) => .error (.err (f e))
  | .error .panic => .error .panic

@[simp] theorem mapErr_ok (f : ε → ε') (a : α) : mapErr f (.ok a) = .ok a := rfl

@[simp] theorem mapErr_err (f : ε → ε') (e : ε) :
    mapErr f (err e : Result ε α) = err (f e) := rfl

@[simp] theorem mapErr_eq_ok {f : ε → ε'} {r : Result ε α} {a : α} :
    mapErr f r = .ok a ↔ r = .ok a := by
  match r with
  | .ok _ => simp
  | .error (.err _) => simp [mapErr]
  | .error .panic => simp [mapErr]

/-- A sequence of fallible calls returns `Ok` exactly when each of them does. -/
theorem bind_eq_ok {r : Result ε α} {f : α → Result ε β} {b : β} :
    r >>= f = .ok b ↔ ∃ a, r = .ok a ∧ f a = .ok b := by
  cases r with
  | ok a => simp [bind, Except.bind]
  | error s => simp [bind, Except.bind]

@[simp] theorem pure_eq_ok {a b : α} : (pure a : Result ε α) = .ok b ↔ a = b := by
  simp [pure, Except.pure]

@[simp] theorem err_ne_ok (e : ε) (a : α) : (err e : Result ε α) ≠ .ok a := by
  simp [err]

/-- `unwrap_or`: panics pass through. -/
def unwrapOr (b : α) : Result ε α → Result ε' α
  | .ok a => .ok a
  | .error (.err _) => .ok b
  | .error .panic => .error .panic

theorem unwrapOr_false_eq_true {r : Result ε Bool} :
    (unwrapOr false r : Result ε' Bool) = .ok true ↔ r = .ok true := by
  match r with
  | .ok a => simp [unwrapOr]
  | .error (.err _) => simp [unwrapOr]
  | .error .panic => simp [unwrapOr]

/-! ### Calls that return -/

/-- The call returns a value or an error: it does not panic. -/
def Returns (r : Result ε α) : Prop := r ≠ .error .panic

@[simp] theorem returns_ok (a : α) : Returns (.ok a : Result ε α) := nofun

@[simp] theorem returns_pure (a : α) : Returns (pure a : Result ε α) := nofun

@[simp] theorem returns_err (e : ε) : Returns (err e : Result ε α) := nofun

@[simp] theorem not_returns_panic : ¬Returns (.error .panic : Result ε α) := fun h ↦ h rfl

@[simp] theorem returns_mapErr {f : ε → ε'} {r : Result ε α} :
    Returns (mapErr f r) ↔ Returns r := by
  match r with
  | .ok _ => exact iff_of_true (returns_ok _) (returns_ok _)
  | .error (.err _) => exact iff_of_true (returns_err _) (returns_err _)
  | .error .panic => exact iff_of_false not_returns_panic not_returns_panic

@[simp] theorem returns_unwrapOr {b : α} {r : Result ε α} :
    Returns (unwrapOr b r : Result ε' α) ↔ Returns r := by
  match r with
  | .ok _ => exact iff_of_true (returns_ok _) (returns_ok _)
  | .error (.err _) => exact iff_of_true (returns_ok _) (returns_err _)
  | .error .panic => exact iff_of_false not_returns_panic not_returns_panic

/-- A sequence of calls returns exactly when each call that is reached does. -/
theorem returns_bind_iff {r : Result ε α} {f : α → Result ε β} :
    Returns (r >>= f) ↔ Returns r ∧ ∀ a, r = .ok a → Returns (f a) := by
  match r with
  | .ok a =>
    refine ⟨fun h ↦ ⟨returns_ok a, fun _ ha ↦ Except.ok.inj ha ▸ h⟩, fun h ↦ h.2 a rfl⟩
  | .error (.err _) => exact iff_of_true (returns_err _) ⟨returns_err _, nofun⟩
  | .error .panic => exact iff_of_false not_returns_panic fun h ↦ not_returns_panic h.1

end Result

/-! ### Calls that cannot panic -/

section Except

variable {ε ε' α β : Type}

/-- Two calls in sequence return `Ok` exactly when each of them does. -/
theorem except_bind_eq_ok {r : Except ε α} {f : α → Except ε β} {b : β} :
    r >>= f = .ok b ↔ ∃ a, r = .ok a ∧ f a = .ok b := by
  cases r with
  | ok a => exact ⟨fun h ↦ ⟨a, rfl, h⟩, fun ⟨_, ha, h⟩ ↦ Except.ok.inj ha ▸ h⟩
  | error e => exact iff_of_false (fun h ↦ by cases h) fun ⟨_, h, _⟩ ↦ by cases h

@[simp] theorem mapError_eq_ok {f : ε → ε'} {r : Except ε α} {a : α} :
    r.mapError f = .ok a ↔ r = .ok a := by
  cases r with
  | ok b => simp [Except.mapError]
  | error e => simp [Except.mapError]

end Except

end Foretias

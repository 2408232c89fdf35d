/-
  Tundra.Error

  The errors of the engine (`error.rs`), with the texts of the variants that
  carry one, and the result type every engine function returns.
-/

import Tundra.Lib.Checked

namespace Tundra

/-- `Error`.  The variants carry no descriptor, label, address, PSBT or SQL
    value; only `invalidInput` and `unavailable` carry a fixed text. -/
inductive Error where
  | invalidInput (text : String)
  | descriptor
  | unsupportedKeys
  | unsupportedPolicy
  | networkMismatch
  | branchMismatch
  | alreadyExists
  | notFound
  | unavailableCoin
  | cannotBuild
  | cancelled
  | syncFailed
  | syncLimit
  | staleSync
  | broadcastPreflight
  | syncBusy
  | unavailable (text : String)
  | storage
  | storageLocked
  | storageBusy
  | corruptState
  | poisoned
  deriving DecidableEq, Repr

/-- `Result<T>`. -/
abbrev Result (α : Type) := Except Error α

end Tundra

import Longform.Error
import Longform.Json
import Longform.Pattern
import Longform.Toml.Line
import Longform.Yaml.Value

/-!
# Formats

The formats in which texts reach the program, and the failure that a text is which
does not keep to its format. Such a failure stays when the operation is tried again
(`Format.isRecoverable_of_failure?`).
-/

namespace Longform

/-- A format of texts. -/
inductive Format where
  | json
  | yaml
  | toml
  /-- A search pattern. -/
  | pattern
  deriving DecidableEq

/-- Why a text is none of a format, if it is not. -/
def Format.failure? (text : String) : Format → Option Error
  | .json => if (Json.read text).isSome then none else some (.serialization "invalid JSON")
  | .yaml =>
    match Yaml.read text with
    | .ok _ => none
    | .error fault => some (.serialization fault.message)
  | .toml =>
    match Toml.read text with
    | .ok _ => none
    | .error fault => some (.serialization fault.message)
  | .pattern => if (Pattern.read text).isSome then none else some (.template "malformed pattern")

/-- No failure of a format passes by itself. -/
theorem Format.isRecoverable_of_failure? {f : Format} {text : String} {e : Error}
    (h : f.failure? text = some e) : e.isRecoverable = false := by
  cases f <;> simp only [Format.failure?] at h <;> split at h <;> simp at h <;> subst h <;> rfl

end Longform

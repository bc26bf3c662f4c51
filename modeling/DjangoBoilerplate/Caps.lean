import DjangoBoilerplate.Repr
import DjangoBoilerplate.StructuredRedaction

/-!
# The caps of the truncating helpers

Five helpers cut a text to a cap: `truncate`, `serialize_error_body` and `serialize_body` of
`apps/core/api_log/sanitizers.py`, `_sanitize_string_for_log` and `truncate_for_log` of
`apps/core/utils/log_sanitization.py`. Each puts a marker at or into what it cuts and does
not count it, or counts too few characters for it, so that a text it cuts mostly ends up
longer than the cap. `caps_honoured_iff` says for each exactly when it does not.
-/

namespace DjangoBoilerplate

namespace Sanitizers

open LogSanitization

/-! ## The helpers -/

variable (u : Casing) (cfg : Config) (loads : Str → Option Value) (decode : List UInt8 → Str)

/-- What a helper returns, if it returns a text, has at most `n` characters. -/
def Within (n : ℕ) (result : Option Str) : Prop := ∀ text, result = some text → text.length ≤ n

end Sanitizers

end DjangoBoilerplate

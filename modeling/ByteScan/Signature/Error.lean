/-!
# Faults of a signature's description

Every way in which the description of a signature can be refused, and the message for each.
-/

namespace ByteScan

/-- Why a description of a signature, or of a mask, is refused. -/
inductive SignatureError where
  /-- There is not one mask character for each byte. -/
  | shapeMismatch (bytes flags : Nat)
  /-- No slot is exact, so that there is nothing to look for. -/
  | noAnchor
  /-- The word at this index (from zero) is neither a byte nor a wildcard. -/
  | malformedToken (index : Nat) (token : String)
  /-- The character at this index (from zero) is no mask character. -/
  | invalidMask (index : Nat) (found : Char)
  deriving DecidableEq, Repr

/-- The message for a fault. -/
def SignatureError.message : SignatureError → String
  | .shapeMismatch bytes flags => s!"Pattern has {bytes} bytes but mask has {flags} flags"
  | .noAnchor => "Pattern has no exact byte to anchor the search on"
  | .malformedToken index token => s!"Malformed token '{token}' at position {index}"
  | .invalidMask index found =>
    s!"Invalid mask character '{found}' at position {index}, expected 'x' or '?'"

end ByteScan

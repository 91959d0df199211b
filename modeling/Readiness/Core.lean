/-!
# Core — instances

A power and the equality of byte arrays each have more than one instance once further libraries are
imported.  Here the core library's own come first, so a definition means the same in every module.
-/

namespace Readiness

attribute [default_instance high] instPowNat
attribute [scoped instance (high)] instPowNat ByteArray.instDecidableEq

end Readiness

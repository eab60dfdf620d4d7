/-!
# Connectors

The code points beyond ASCII whose general category is connector punctuation (`Pc`), as ranges
with both ends included, in increasing order, in Unicode 17.0.
-/

namespace Scriptlet.CharClass

def connectorRanges : List (Nat × Nat) := [
  (0x203F, 0x2040), (0x2054, 0x2054), (0xFE33, 0xFE34), (0xFE4D, 0xFE4F), (0xFF3F, 0xFF3F)]

end Scriptlet.CharClass

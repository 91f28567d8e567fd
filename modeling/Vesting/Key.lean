/-
# Keys of recipients

A caller names a recipient either in its `0x` form or by its bytes. The two name the same
recipient if the text stands for the bytes; messages show the name that was given.
-/

import Vesting.Hex

namespace Vesting

/-- How a caller names a recipient. -/
inductive Key
  | text (s : String)
  | bytes (b : Bytes)
  deriving DecidableEq

namespace Key

def bytes? : Key → Except Hex.Fault Bytes
  | text s => ofHex s
  | bytes b => .ok b

def shown : Key → String
  | text s => s
  | bytes b => toHex b

end Key

end Vesting

/-!
# Powers

Bounds of words are powers of two, places of decimals are powers of ten.  In this
library a power with a natural exponent is always `Nat.pow` or `Int.pow`, whatever
other powers a module that works with it brings along: a bound is then the same
term in a definition and in a statement about it.
-/

namespace ResultSet

attribute [scoped instance (high)] instPowNat

end ResultSet

/-!
# Powers

Within this project a power with a natural exponent is that of the core library, also where an
algebraic library brings powers of its own. A numeral that is an exponent says that it is
natural, so that no default decides about it.
-/

namespace DurableFlow

attribute [scoped instance (2000)] instPowNat

end DurableFlow

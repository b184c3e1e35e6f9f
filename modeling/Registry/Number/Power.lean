/-! # Power — powers of whole numbers

A power is that of the standard library, whatever other reading of it is in scope. -/

namespace Registry

attribute [instance (20000)] instPowNat
attribute [default_instance (20000)] instPowNat

end Registry

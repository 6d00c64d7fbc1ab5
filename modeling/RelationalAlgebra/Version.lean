/-!
# Version

The version of the library, as it is told to users. It stands apart, so that a program can tell it
without the rest of the library.
-/

namespace RelationalAlgebra

/-- The version of the library. -/
def version : String := "0.1.0"

end RelationalAlgebra

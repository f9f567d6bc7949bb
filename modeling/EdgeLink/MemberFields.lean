import EdgeLink.Esp32Ota
import EdgeLink.JsonFields

namespace EdgeLink.Esp32Ota

open Json Lookup Pattern CommandJson

/-- The names of a printed object that the patterns can tell from the bytes between them. -/
def Named (fields : List (String × Field)) : Prop := ∀ x ∈ fields, PlainField x ∧ IsName (ascii x.1)

section
variable {key : Text} {value : List (Piece UInt8)}

end

section
variable {key : String} (hkey : IsName (ascii key)) {fields : List (String × Field)}
  (hfields : Named fields)

include hkey hfields

end

end EdgeLink.Esp32Ota

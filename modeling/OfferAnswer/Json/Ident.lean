import OfferAnswer.Json.Decode
import OfferAnswer.Media
import OfferAnswer.Mid

/-!
# Identifiers and kinds in JSON

A `Mid` is the array of its 16 bytes. A media kind is its name, and a kind that is not handled has
no JSON form.
-/

namespace OfferAnswer

def Mid.toJson (m : Mid) : Json := .array (m.bytes.map fun b ↦ .nat b.toNat)

def Mid.ofJson? (v : Json) : Option Mid := (v.toList? Json.toUInt8?).bind Mid.ofBytes?

def MediaKind.toJson? : MediaKind → Option Json
  | .other _ => none
  | k => some (.str k.name)

end OfferAnswer

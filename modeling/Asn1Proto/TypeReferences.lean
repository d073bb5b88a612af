import Asn1Proto.FieldNumbering
import Asn1Proto.StreamWrites

namespace Asn1Proto

end Asn1Proto

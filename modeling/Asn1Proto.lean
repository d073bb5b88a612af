import Asn1Proto.Ast
import Asn1Proto.ProtoModel
import Asn1Proto.NameRewrite
import Asn1Proto.ValuePrint
import Asn1Proto.ConstraintPrint
import Asn1Proto.Lower
import Asn1Proto.LowerSpec
import Asn1Proto.Emit
import Asn1Proto.FieldNumbering
import Asn1Proto.Decimal
import Asn1Proto.ProtoText
import Asn1Proto.Literals
import Asn1Proto.EnumNumbering
import Asn1Proto.StreamWrites
import Asn1Proto.TypeReferences
import Asn1Proto.ValidateRules
import Asn1Proto.ValueConstraints
import Asn1Proto.RuleExactness
import Asn1Proto.EmittedNames
import Asn1Proto.ValueLiterals
import Asn1Proto.PrintBuffers
import Asn1Proto.HeapAccess
import Asn1Proto.IdentifierForms
import Asn1Proto.ProtoRead
import Asn1Proto.PrintedLines
import Asn1Proto.PrintedFile
import Asn1Proto.PrintedModule
import Asn1Proto.PrintedNumbers
import Asn1Proto.LoweredFile
import Asn1Proto.PrintedHeaders
import Asn1Proto.PrintedDefinitions

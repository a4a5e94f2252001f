import DalvikFlow.Ieee.Shortest
import DalvikFlow.Text.Quoted

/-! What a register holds: a value and a type tag, or only the tag if the value is not known. -/
namespace DalvikFlow

inductive Kind where
  | int | long | float | double | boolean | null | string
  deriving DecidableEq, Repr

namespace Kind

def name : Kind → String
  | int => "Int"
  | long => "Long"
  | float => "Float"
  | double => "Double"
  | boolean => "Boolean"
  | null => "Null"
  | string => "String"

/-- The tag of a value whose type is not stated. The null reference has the type of any object. -/
def typeTag : Kind → String
  | int => "int"
  | long => "long"
  | float => "float"
  | double => "double"
  | boolean => "boolean"
  | null => "java.lang.Object"
  | string => "java.lang.String"

def isNumeric : Kind → Bool
  | int | long | float | double => true
  | boolean | null | string => false

end Kind

inductive Value where
  | int (v : Int32)
  | long (v : Int64)
  | float (v : Ieee .single)
  | double (v : Ieee .double)
  | boolean (v : Bool)
  | null
  | string (v : String)
  deriving DecidableEq, Repr

namespace Value

def kind : Value → Kind
  | int _ => .int
  | long _ => .long
  | float _ => .float
  | double _ => .double
  | boolean _ => .boolean
  | null => .null
  | string _ => .string

def isNumeric (v : Value) : Bool := v.kind.isNumeric

def isNaN : Value → Bool
  | float f => f.isNaN
  | double d => d.isNaN
  | _ => false

/-- Floating point numbers are equal by value: the zeros are, not a number is not. -/
def equal : Value → Value → Bool
  | int a, int b => a = b
  | long a, long b => a = b
  | float a, float b => a.equal b
  | double a, double b => a.equal b
  | boolean a, boolean b => a = b
  | null, null => true
  | string a, string b => a = b
  | _, _ => false

/-- The nearest number of single precision, rounded once. -/
def toSingle? : Value → Option (Ieee .single)
  | int v => some (.ofInt .single v.toInt)
  | long v => some (.ofInt .single v.toInt)
  | float v => some v
  | double v => some (v.convert .single)
  | _ => none

/-- The nearest number of double precision. -/
def toDouble? : Value → Option (Ieee .double)
  | int v => some (.ofInt .double v.toInt)
  | long v => some (.ofInt .double v.toInt)
  | float v => some (v.convert .double)
  | double v => some v
  | _ => none

/-- The number as a long. Floating point numbers lose their fraction and stay in range. -/
def toInt64? : Value → Option Int64
  | int v => some v.toInt64
  | long v => some v
  | float v => some v.toInt64
  | double v => some v.toInt64
  | _ => none

def text : Value → String
  | int v => Text.integer v.toInt
  | long v => Text.integer v.toInt ++ "L"
  | float v => v.text ++ "f"
  | double v => v.text ++ "d"
  | boolean true => "true"
  | boolean false => "false"
  | null => "null"
  | string v => Text.Quoted.quote v

end Value

structure Item where
  /-- Absent if nothing but the type is known. -/
  value? : Option Value
  typeTag : String
  deriving DecidableEq, Repr

namespace Item

def known (v : Value) (typeTag : String) : Item := ⟨some v, typeTag⟩

def unknown (typeTag : String) : Item := ⟨none, typeTag⟩

/-- With the type tag of its kind. -/
def ofValue (v : Value) : Item := known v v.kind.typeTag

def ofInt (v : Int32) : Item := ofValue (.int v)

def ofLong (v : Int64) : Item := ofValue (.long v)

def isKnown (i : Item) : Bool := i.value?.isSome

def isUnknown (i : Item) : Bool := i.value?.isNone

/-- Same tag, and equal values or both unknown. -/
def equal (a b : Item) : Bool :=
  a.typeTag = b.typeTag &&
    match a.value?, b.value? with
    | none, none => true
    | some v, some w => v.equal w
    | _, _ => false

/-- Both known and of one kind. -/
def sameKind (a b : Item) : Bool :=
  match a.value?, b.value? with
  | some v, some w => v.kind = w.kind
  | _, _ => false

def text (i : Item) : String :=
  i.typeTag ++ ":" ++ (i.value?.map Value.text).getD "?"

end Item

end DalvikFlow

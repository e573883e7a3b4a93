/-!
# Values

The dynamic values that parameters hold and expressions compute.

* `Value`: the eleven forms of a value;
* `Value.Kind`: the classes that order, truth and types distinguish, in their order;
* `Value.isAbsent`: the two forms that stand for a missing value.
-/

namespace SqlTemplate

/-- A dynamic value. Whole numbers are unbounded here; arithmetic keeps them in range. -/
inductive Value where
  /-- The result of reading what does not exist. -/
  | undefined
  /-- The value that stands for "no value". -/
  | null
  | bool (b : Bool)
  | int (n : Int)
  | float (x : Float)
  | str (s : String)
  | bytes (bs : List UInt8)
  | seq (items : List Value)
  /-- Elements that can be gone through again and again but do not form a sequence. -/
  | iter (items : List Value)
  /-- Entries with distinct keys, in ascending order of the keys. -/
  | map (entries : List (Value × Value))
  /-- A structured object with readable attributes. -/
  | object (attrs : List (String × Value))

instance : Inhabited Value := ⟨.null⟩

namespace Value

/-- The classes of values, in ascending order. -/
inductive Kind where
  | undefined
  | null
  | bool
  | number
  | str
  | bytes
  | seq
  | map
  | iter
  | object
  deriving DecidableEq, Repr

/-- The place of a kind in the order of kinds. -/
def Kind.rank : Kind → Nat
  | .undefined => 0
  | .null => 1
  | .bool => 2
  | .number => 3
  | .str => 4
  | .bytes => 5
  | .seq => 6
  | .map => 7
  | .iter => 8
  | .object => 9

/-- The kind of a value. -/
def kind : Value → Kind
  | .undefined => .undefined
  | .null => .null
  | .bool _ => .bool
  | .int _ => .number
  | .float _ => .number
  | .str _ => .str
  | .bytes _ => .bytes
  | .seq _ => .seq
  | .iter _ => .iter
  | .map _ => .map
  | .object _ => .object

/-- Whether the value stands for a missing one. -/
def isAbsent : Value → Bool
  | .undefined => true
  | .null => true
  | _ => false

/-- Whether the value is the undefined one. -/
def isUndefined : Value → Bool
  | .undefined => true
  | _ => false

end Value

end SqlTemplate

import SqlTemplate.Value.Number

/-!
# Order, equality and mappings

* `Value.compare`: the total order of values, which sorts the keys of a mapping;
* `Value.equal`: the equality of expressions, under which booleans are numbers, `-0.0` equals
  `0.0`, and a sequence equals an iterable with equal elements;
* `Value.find?`, `Value.insertEntry`, `Value.ofEntries`: mappings as sorted lists of entries.
-/

namespace SqlTemplate.Value

/-! ## 1. Order -/

/-- The order of lists that `cmp` orders the elements of: the first difference decides, and the
    shorter of two lists comes first where there is none. -/
def compareLists {α : Type} (cmp : α → α → Ordering) : List α → List α → Ordering
  | [], [] => .eq
  | [], _ :: _ => .lt
  | _ :: _, [] => .gt
  | a :: as, b :: bs => (cmp a b).then (compareLists cmp as bs)

/-- The order of texts, by code point. -/
def compareTexts (s t : String) : Ordering :=
  compareLists (fun c d => Ord.compare c.toNat d.toNat) s.toList t.toList

mutual

/-- The order of values: by kind, and inside a kind by what the values hold. -/
def compare : Value → Value → Ordering
  | .bool a, .bool b => Ord.compare a.toNat b.toNat
  | .int a, .int b => Ord.compare a b
  | .int a, .float b => Number.compareIntFloat a b
  | .float a, .int b => (Number.compareIntFloat b a).swap
  | .float a, .float b => Number.compareFloats a b
  | .str a, .str b => compareTexts a b
  | .bytes a, .bytes b => compareLists (fun x y => Ord.compare x.toNat y.toNat) a b
  | .seq as, .seq bs => compareItems as bs
  | .iter as, .iter bs => compareItems as bs
  | .map as, .map bs => compareEntries as bs
  | a, b => Ord.compare a.kind.rank b.kind.rank

/-- The order of lists of values. -/
def compareItems : List Value → List Value → Ordering
  | [], [] => .eq
  | [], _ :: _ => .lt
  | _ :: _, [] => .gt
  | a :: as, b :: bs => (compare a b).then (compareItems as bs)

/-- The order of lists of entries: keys before values. -/
def compareEntries : List (Value × Value) → List (Value × Value) → Ordering
  | [], [] => .eq
  | [], _ :: _ => .lt
  | _ :: _, [] => .gt
  | (k, v) :: as, (k', v') :: bs =>
    ((compare k k').then (compare v v')).then (compareEntries as bs)

end

/-! ## 2. Mappings -/

/-- The value of a key among sorted entries. -/
def find? (key : Value) : List (Value × Value) → Option Value
  | [] => none
  | (k, v) :: rest => if compare key k == .eq then some v else find? key rest

/-- Puts an entry in its place among sorted entries. The value of a key that is there already is
    replaced. -/
def insertEntry (key value : Value) : List (Value × Value) → List (Value × Value)
  | [] => [(key, value)]
  | (k, v) :: rest =>
    match compare key k with
    | .lt => (key, value) :: (k, v) :: rest
    | .eq => (k, value) :: rest
    | .gt => (k, v) :: insertEntry key value rest

/-- The mapping of a list of entries. Of two entries with one key the later one counts. -/
def ofEntries (entries : List (Value × Value)) : Value :=
  .map (entries.foldl (fun sorted (k, v) => insertEntry k v sorted) [])

/-- The mapping of a list of named values. -/
def ofNamed (entries : List (String × Value)) : Value :=
  ofEntries (entries.map fun (name, v) => (.str name, v))

/-! ## 3. Equality -/

mutual

/-- Whether two values are equal in an expression. -/
def equal : Value → Value → Bool
  | .undefined, .undefined => true
  | .null, .null => true
  | .bool a, .bool b => a == b
  | .bool a, .int b => (a.toNat : Int) == b
  | .int a, .bool b => a == (b.toNat : Int)
  | .bool a, .float b => Number.equalIntFloat a.toNat b
  | .float a, .bool b => Number.equalIntFloat b.toNat a
  | .int a, .int b => a == b
  | .int a, .float b => Number.equalIntFloat a b
  | .float a, .int b => Number.equalIntFloat b a
  | .float a, .float b => a == b
  | .str a, .str b => a == b
  | .bytes a, .bytes b => a == b
  | .seq as, .seq bs => equalItems as bs
  | .seq as, .iter bs => equalItems as bs
  | .iter as, .seq bs => equalItems as bs
  | .iter as, .iter bs => equalItems as bs
  | .map as, .map bs => as.length == bs.length && equalEntries as bs
  | .object _, .object _ => true
  | _, _ => false

/-- Whether two lists hold equal values. -/
def equalItems : List Value → List Value → Bool
  | [], [] => true
  | a :: as, b :: bs => equal a b && equalItems as bs
  | _, _ => false

/-- Whether every entry is found among the others with an equal value. -/
def equalEntries : List (Value × Value) → List (Value × Value) → Bool
  | [], _ => true
  | (k, v) :: as, bs =>
    (match find? k bs with
      | some w => equal v w
      | none => false) && equalEntries as bs

end

end SqlTemplate.Value

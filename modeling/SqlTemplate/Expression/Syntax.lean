import SqlTemplate.Value.Basic

/-!
# Expressions

* `Arithmetic`, `Comparison`: the operators between two operands that are both evaluated;
* `Expression`: the tree of an expression.
-/

namespace SqlTemplate

namespace Expression

/-- An operator that computes a value from two. -/
inductive Arithmetic where
  | add
  | subtract
  | concat
  | multiply
  | divide
  | floorDivide
  | remainder
  | power
  deriving DecidableEq, Repr

/-- An operator that compares two values. -/
inductive Comparison where
  | equal
  | different
  | less
  | atMost
  | greater
  | atLeast
  | member
  | notMember
  deriving DecidableEq, Repr

end Expression

/-- An expression. -/
inductive Expression where
  | constant (v : Value)
  | name (s : String)
  | list (items : List Expression)
  | mapping (entries : List (Expression × Expression))
  /-- The attribute `s` of `e`. -/
  | attribute (e : Expression) (s : String)
  /-- The item `key` of `e`. -/
  | item (e key : Expression)
  | call (callee : Expression) (args : List Expression)
  | filter (s : String) (e : Expression) (args : List Expression)
  | test (s : String) (e : Expression) (args : List Expression)
  | negate (e : Expression)
  | arithmetic (op : Expression.Arithmetic) (a b : Expression)
  /-- A chain `first op₁ e₁ op₂ e₂ …`, which holds if every neighbours compare as their operator
      says. -/
  | comparison (first : Expression) (links : List (Expression.Comparison × Expression))
  | not (e : Expression)
  | and (a b : Expression)
  | or (a b : Expression)
  /-- `yes` if the condition holds, else `no`. -/
  | choice (condition yes no : Expression)

instance : Inhabited Expression := ⟨.constant .null⟩

end SqlTemplate

import SqlTemplate.Expression.Syntax
import SqlTemplate.Expression.Token

/-!
# Parsing of expressions

* `Level`: the levels of precedence;
* `Parsed`: what has been read at the front of some tokens, with fewer tokens left;
* `Expression.parse`: the expression that a text denotes.

Every step of the parser leaves fewer tokens than it got, so the parser ends.
-/

namespace SqlTemplate.Expression

/-! ## 1. Levels -/

/-- The levels of operators between operands. -/
inductive Level where
  | disjunction
  | conjunction
  | negation
  | comparison
  | sum
  | concatenation
  | product
  | power
  deriving DecidableEq, Repr

/-- All levels, the loosest first. -/
def Level.all : List Level :=
  [.disjunction, .conjunction, .negation, .comparison, .sum, .concatenation, .product, .power]

@[simp]
theorem Level.length_all : Level.all.length = 8 := rfl

/-- The operator of a level that associates to the left, if the token writes one. -/
def operator? : Level → Token → Option (Expression → Expression → Expression)
  | .disjunction, .name "or" => some .or
  | .conjunction, .name "and" => some .and
  | .sum, .sign .plus => some (.arithmetic .add)
  | .sum, .sign .minus => some (.arithmetic .subtract)
  | .concatenation, .sign .tilde => some (.arithmetic .concat)
  | .product, .sign .star => some (.arithmetic .multiply)
  | .product, .sign .slash => some (.arithmetic .divide)
  | .product, .sign .doubleSlash => some (.arithmetic .floorDivide)
  | .product, .sign .percent => some (.arithmetic .remainder)
  | .power, .sign .doubleStar => some (.arithmetic .power)
  | _, _ => none

/-- The comparison that a token writes. -/
def comparison? : Token → Option Comparison
  | .sign .equals => some .equal
  | .sign .differs => some .different
  | .sign .less => some .less
  | .sign .atMost => some .atMost
  | .sign .greater => some .greater
  | .sign .atLeast => some .atLeast
  | .name "in" => some .member
  | _ => none

/-! ## 2. Steps -/

/-- A value read at the front of `ts`, and the tokens behind it. -/
structure Parsed (α : Type) (ts : List Token) where
  value : α
  rest : List Token
  shorter : rest.length < ts.length

namespace Parsed

/-- What has been read at the front of a rest has been read at the front of the whole. -/
def widen {α : Type} {ts us : List Token} (p : Parsed α ts) (h : ts.length ≤ us.length) :
    Parsed α us :=
  ⟨p.value, p.rest, Nat.lt_of_lt_of_le p.shorter h⟩

/-- Another value with the same tokens behind it. -/
def map {α β : Type} {ts : List Token} (f : α → β) (p : Parsed α ts) : Parsed β ts :=
  ⟨f p.value, p.rest, p.shorter⟩

end Parsed

/-- A step that may fail. -/
abbrev Step (α : Type) (ts : List Token) := Except EvalFault (Parsed α ts)

/-- The fault of tokens that cannot go on as they do. -/
def faultOf : List Token → EvalFault
  | .invalid fault :: _ => fault
  | _ => .syntaxError

/-- How deep expressions and their innermost parts may nest. -/
def depthLimit : Nat := 150

/-- What a name says that is no variable. -/
def constant? : String → Option Value
  | "true" => some (.bool true)
  | "True" => some (.bool true)
  | "false" => some (.bool false)
  | "False" => some (.bool false)
  | "none" => some .null
  | "None" => some .null
  | _ => none

/-- The expression of a name. -/
def ofName (s : String) : Expression :=
  match constant? s with
  | some v => .constant v
  | none => .name s

/-- Strings that stand side by side, as one, and what follows. -/
def adjacentTexts : List Token → String × List Token
  | .text s :: ts =>
    let (others, rest) := adjacentTexts ts
    (s ++ others, rest)
  | ts => ("", ts)

/-- What follows adjacent strings is no longer than what they begin. -/
theorem adjacentTexts_length (ts : List Token) : (adjacentTexts ts).2.length ≤ ts.length := by
  induction ts with
  | nil => simp [adjacentTexts]
  | cons t ts ih =>
    cases t <;> simp only [adjacentTexts, List.length_cons, Nat.le_refl]
    omega

/-- Whether the argument of a test can stand right behind its name. -/
def startsArgument : List Token → Bool
  | .name s :: _ => s != "and" && s != "or" && s != "else" && s != "is"
  | .text _ :: _ => true
  | .int _ :: _ => true
  | .float _ :: _ => true
  | .sign s :: _ => s == .plus || s == .minus || s == .openBracket || s == .openBrace
  | _ => false

/-! ## 3. The grammar -/

namespace Grammar

/-- Whether an attribute, an item or a call begins. -/
def startsSuffix : List Token → Bool
  | .sign .dot :: _ => true
  | .sign .openBracket :: _ => true
  | .sign .openParen :: _ => true
  | _ => false

/-- Whether a filter or a test begins. -/
def startsFilter : List Token → Bool
  | .sign .bar :: _ => true
  | .name "is" :: _ => true
  | _ => false

mutual

/-- A whole expression: a choice, inside the limit of depth. -/
def expression (depth : Nat) (ts : List Token) : Step Expression ts :=
  if depth < depthLimit then do
    let yes ← operations (depth + 1) Level.all ts
    choices (depth + 1) ts yes
  else .error .syntaxError
termination_by 32 * ts.length + 16
decreasing_by
  · simp
  · have := yes.shorter
    omega

/-- The choices behind an expression. One without `else` chooses the undefined value. -/
def choices (depth : Nat) (ts : List Token) (yes : Parsed Expression ts) : Step Expression ts :=
  match _h : yes.rest with
  | .name "if" :: us => do
    let condition ← operations depth Level.all us
    match _h' : condition.rest with
    | .name "else" :: vs => do
      let no ← operations depth Level.all vs
      let no ← choices depth vs no
      choices depth ts ⟨.choice condition.value yes.value no.value, no.rest, by
        have := yes.shorter; have := condition.shorter; have := no.shorter
        simp only [_h, _h', List.length_cons] at *; omega⟩
    | _ =>
      choices depth ts ⟨.choice condition.value yes.value (.constant .undefined), condition.rest,
        by
          have := yes.shorter; have := condition.shorter
          simp only [_h, List.length_cons] at *; omega⟩
  | _ => .ok yes
termination_by 32 * yes.rest.length + 15
decreasing_by
  · simp only [_h, List.length_cons, Level.length_all]
    omega
  · have := condition.shorter
    simp only [_h, _h', List.length_cons, Level.length_all] at *
    omega
  · have := condition.shorter
    have := no.shorter
    simp only [_h, _h', List.length_cons] at *
    omega
  · have := condition.shorter
    have := no.shorter
    simp only [_h, _h', List.length_cons] at *
    omega
  · have := condition.shorter
    simp only [_h, List.length_cons] at *
    omega

/-- Operands between the operators of the given levels, the loosest first. -/
def operations (depth : Nat) (levels : List Level) (ts : List Token) : Step Expression ts :=
  match levels with
  | [] => do
    let e ← signed depth ts
    filters depth ts e
  | .negation :: tighter =>
    match ts with
    | .name "not" :: us => do
      let e ← operations depth (.negation :: tighter) us
      return (e.map .not).widen (by simp)
    | ts => operations depth tighter ts
  | .comparison :: tighter => do
    let first ← operations depth tighter ts
    let links ← comparisons depth tighter ts (first.map fun _ => [])
    if links.value.isEmpty then return first else return links.map (.comparison first.value)
  | l :: tighter => do
    let left ← operations depth tighter ts
    operands depth l tighter ts left
termination_by 32 * ts.length + levels.length + 5
decreasing_by
  · omega
  · have := e.shorter
    omega
  · simp only [List.length_cons]
    omega
  · simp
  · simp
  · have := first.shorter
    simp only [Parsed.map, List.length_cons]
    omega
  · simp
  · have := left.shorter
    simp only [List.length_cons]
    omega

/-- The operators of one level behind their left operand, each with its right operand. -/
def operands (depth : Nat) (l : Level) (tighter : List Level) (ts : List Token)
    (left : Parsed Expression ts) : Step Expression ts :=
  match _h : left.rest with
  | t :: us =>
    match operator? l t with
    | some op => do
      let right ← operations depth tighter us
      operands depth l tighter ts ⟨op left.value right.value, right.rest, by
        have := left.shorter; have := right.shorter
        simp only [_h, List.length_cons] at *; omega⟩
    | none => .ok left
  | [] => .ok left
termination_by 32 * left.rest.length + tighter.length + 5
decreasing_by
  · simp only [_h, List.length_cons]
    omega
  · have := right.shorter
    simp only [_h, List.length_cons]
    omega

/-- The links of a chain of comparisons. -/
def comparisons (depth : Nat) (tighter : List Level) (ts : List Token)
    (links : Parsed (List (Comparison × Expression)) ts) :
    Step (List (Comparison × Expression)) ts :=
  match _h : links.rest with
  | .name "not" :: .name "in" :: us => do
    let e ← operations depth tighter us
    comparisons depth tighter ts ⟨links.value ++ [(.notMember, e.value)], e.rest, by
      have := links.shorter; have := e.shorter
      simp only [_h, List.length_cons] at *; omega⟩
  | .name "not" :: us => .error (faultOf us)
  | t :: us =>
    match comparison? t with
    | some op => do
      let e ← operations depth tighter us
      comparisons depth tighter ts ⟨links.value ++ [(op, e.value)], e.rest, by
        have := links.shorter; have := e.shorter
        simp only [_h, List.length_cons] at *; omega⟩
    | none => .ok links
  | [] => .ok links
termination_by 32 * links.rest.length + tighter.length + 5
decreasing_by
  · simp only [_h, List.length_cons]
    omega
  · have := e.shorter
    simp only [_h, List.length_cons]
    omega
  · simp only [_h, List.length_cons]
    omega
  · have := e.shorter
    simp only [_h, List.length_cons]
    omega

/-- A primary with its suffixes, behind any number of minus signs. -/
def signed (depth : Nat) (ts : List Token) : Step Expression ts :=
  match ts with
  | .sign .minus :: us => do
    let e ← signed depth us
    return (e.map .negate).widen (by simp)
  | ts => do
    let e ← primary depth ts
    suffixes depth ts e
termination_by 32 * ts.length + 4
decreasing_by
  · simp only [List.length_cons]
    omega
  · omega
  · have := e.shorter
    omega

/-- Attributes, items and calls behind an expression. -/
def suffixes (depth : Nat) (ts : List Token) (e : Parsed Expression ts) : Step Expression ts :=
  if startsSuffix e.rest then do
    let f ← suffix depth e.rest
    suffixes depth ts ⟨f.value e.value, f.rest, Nat.lt_trans f.shorter e.shorter⟩
  else .ok e
termination_by 32 * e.rest.length + 2
decreasing_by
  · omega
  · have := f.shorter
    omega

/-- What one attribute, item or call makes of the expression in front of it. -/
def suffix (depth : Nat) (ts : List Token) : Step (Expression → Expression) ts :=
  match ts with
  | .sign .dot :: .name s :: us => .ok ⟨fun e => .attribute e s, us, by
      simp only [List.length_cons]; omega⟩
  | .sign .dot :: .int n :: us => .ok ⟨fun e => .item e (.constant (.int n)), us, by
      simp only [List.length_cons]; omega⟩
  | .sign .openBracket :: us => do
    let key ← expression depth us
    match _h : key.rest with
    | .sign .closeBracket :: vs =>
      return ⟨fun e => .item e key.value, vs, by
        have := key.shorter
        simp only [_h, List.length_cons] at *; omega⟩
    | vs => throw (faultOf vs)
  | .sign .openParen :: us => do
    let args ← items depth .closeParen us
    return (args.map fun args e => .call e args).widen (by simp)
  | _ :: us => .error (faultOf us)
  | [] => .error .syntaxError
termination_by 32 * ts.length + 1

/-- Filters and tests behind an expression. -/
def filters (depth : Nat) (ts : List Token) (e : Parsed Expression ts) : Step Expression ts :=
  if startsFilter e.rest then do
    let f ← filter depth e.rest
    filters depth ts ⟨f.value e.value, f.rest, Nat.lt_trans f.shorter e.shorter⟩
  else .ok e
termination_by 32 * e.rest.length + 2
decreasing_by
  · omega
  · have := f.shorter
    omega

/-- What one filter or test makes of the expression in front of it. -/
def filter (depth : Nat) (ts : List Token) : Step (Expression → Expression) ts :=
  match ts with
  | .sign .bar :: .name s :: us => do
    let args ← arguments depth (.name s) us
    return (args.map fun args e => .filter s e args).widen (by simp)
  | .name "is" :: .name "not" :: .name s :: us => do
    let args ← testArguments depth (.name s) us
    return (args.map fun args e => .not (.test s e args)).widen (by simp)
  | .name "is" :: .name "not" :: us => .error (faultOf us)
  | .name "is" :: .name s :: us => do
    let args ← testArguments depth (.name s) us
    return (args.map fun args e => .test s e args).widen (by simp)
  | _ :: us => .error (faultOf us)
  | [] => .error .syntaxError
termination_by 32 * ts.length + 1

/-- Arguments in parentheses behind the token `t`, if there are any. -/
def arguments (depth : Nat) (t : Token) (us : List Token) : Step (List Expression) (t :: us) :=
  match us with
  | .sign .openParen :: vs => do
    let args ← items depth .closeParen vs
    return args.widen (by simp only [List.length_cons]; omega)
  | us => .ok ⟨[], us, by simp⟩
termination_by 32 * us.length + 1

/-- The arguments of a test: in parentheses, or a single one without them. -/
def testArguments (depth : Nat) (t : Token) (us : List Token) :
    Step (List Expression) (t :: us) :=
  if startsArgument us then do
    let e ← signed depth us
    return (e.map ([·])).widen (by simp)
  else arguments depth t us
termination_by 32 * us.length + 5

/-- Expressions between commas up to the closing sign. A comma may stand in front of it. -/
def items (depth : Nat) (close : Sign) (ts : List Token) : Step (List Expression) ts :=
  match ts with
  | .sign s :: us =>
    if s = close then .ok ⟨[], us, by simp⟩
    else do
      let first ← expression depth (.sign s :: us)
      moreItems depth close (.sign s :: us) (first.map ([·]))
  | ts => do
    let first ← expression depth ts
    moreItems depth close ts (first.map ([·]))
termination_by 32 * ts.length + 17
decreasing_by
  · omega
  · have := first.shorter
    simp only [Parsed.map] at *
    omega
  · omega
  · have := first.shorter
    simp only [Parsed.map] at *
    omega

/-- The rest of a list whose last item so far has been read. -/
def moreItems (depth : Nat) (close : Sign) (ts : List Token)
    (read : Parsed (List Expression) ts) : Step (List Expression) ts :=
  match _h : read.rest with
  | .sign s :: us =>
    if s = close then
      .ok ⟨read.value, us, by
        have := read.shorter
        simp only [_h, List.length_cons] at *; omega⟩
    else if s = .comma then do
      let others ← items depth close us
      return ⟨read.value ++ others.value, others.rest, by
        have := read.shorter; have := others.shorter
        simp only [_h, List.length_cons] at *; omega⟩
    else .error .syntaxError
  | us => .error (faultOf us)
termination_by 32 * read.rest.length + 18
decreasing_by
  simp only [_h, List.length_cons]
  omega

/-- The entries of a mapping up to the closing brace. A comma may stand in front of it. -/
def entries (depth : Nat) (ts : List Token) : Step (List (Expression × Expression)) ts :=
  match ts with
  | .sign .closeBrace :: us => .ok ⟨[], us, by simp⟩
  | ts => do
    let key ← expression depth ts
    match _h : key.rest with
    | .sign .colon :: us =>
      let v ← expression depth us
      match _h' : v.rest with
      | .sign .closeBrace :: vs =>
        return ⟨[(key.value, v.value)], vs, by
          have := key.shorter; have := v.shorter
          simp only [_h, _h', List.length_cons] at *; omega⟩
      | .sign .comma :: vs =>
        let others ← entries depth vs
        return ⟨(key.value, v.value) :: others.value, others.rest, by
          have := key.shorter; have := v.shorter; have := others.shorter
          simp only [_h, _h', List.length_cons] at *; omega⟩
      | vs => throw (faultOf vs)
    | us => throw (faultOf us)
termination_by 32 * ts.length + 17
decreasing_by
  · omega
  · have := key.shorter
    simp only [_h, List.length_cons] at *
    omega
  · have := key.shorter
    have := v.shorter
    simp only [_h, _h', List.length_cons] at *
    omega

/-- The innermost part of an expression, inside the limit of depth. -/
def primary (depth : Nat) (ts : List Token) : Step Expression ts :=
  if depth < depthLimit then
    match ts with
    | .name s :: us => .ok ⟨ofName s, us, by simp⟩
    | .int n :: us => .ok ⟨.constant (.int n), us, by simp⟩
    | .float x :: us => .ok ⟨.constant (.float x), us, by simp⟩
    | .text s :: us =>
      .ok ⟨.constant (.str (s ++ (adjacentTexts us).1)), (adjacentTexts us).2, by
        have := adjacentTexts_length us
        simp only [List.length_cons]; omega⟩
    | .sign .openBracket :: us => do
      let inner ← items (depth + 1) .closeBracket us
      return (inner.map .list).widen (by simp)
    | .sign .openBrace :: us => do
      let inner ← entries (depth + 1) us
      return (inner.map .mapping).widen (by simp)
    | .sign .openParen :: us => do
      let inner ← parenthesized (depth + 1) us
      return inner.widen (by simp)
    | ts => .error (faultOf ts)
  else .error .syntaxError
termination_by 32 * ts.length + 3

/-- What stands behind an opening parenthesis: a list when it is empty or has a comma, else a
    single expression. -/
def parenthesized (depth : Nat) (ts : List Token) : Step Expression ts :=
  match ts with
  | .sign .closeParen :: us => .ok ⟨.list [], us, by simp⟩
  | ts => do
    let first ← expression depth ts
    match _h : first.rest with
    | .sign .closeParen :: us =>
      return ⟨first.value, us, by
        have := first.shorter
        simp only [_h, List.length_cons] at *; omega⟩
    | .sign .comma :: us =>
      let others ← items depth .closeParen us
      return ⟨.list (first.value :: others.value), others.rest, by
        have := first.shorter; have := others.shorter
        simp only [_h, List.length_cons] at *; omega⟩
    | us => throw (faultOf us)
termination_by 32 * ts.length + 17
decreasing_by
  · omega
  · have := first.shorter
    simp only [_h, List.length_cons] at *
    omega

end

end Grammar

/-! ## 4. Texts -/

/-- The expression that a text denotes. -/
def parse (text : String) : Except EvalFault Expression := do
  let e ← Grammar.expression 0 (Token.ofText text)
  if e.rest.isEmpty then return e.value else throw (faultOf e.rest)

end SqlTemplate.Expression

import SqlTemplate.Pattern.Dialect

/-!
# Reading patterns

A pattern is read unit by unit, and what a unit does depends on the group in which it stands. An
expression that is read by itself is read in the same way inside of a group, up to the parenthesis
that closes it.

* `Dialect.Step`, `Dialect.Reads`: one unit, and units one after the other;
* `Dialect.Denotes`: the expression that a pattern denotes; `Dialect.Denotes.unique`: it has one;
* `Dialect.Lawful`: what engines of regular expressions say of their patterns;
* `Dialect.Reads.inside`: an expression is read inside of a group as it is read by itself;
* `Dialect.Completes.split`: a group is ended by a closing parenthesis behind an expression;
* `Dialect.parse?_eq_some`: the reader finds the expression of a pattern.
-/

namespace SqlTemplate.Pattern

variable {Flags Names Atom : Type}

/-! ## 1. Units one after the other -/

namespace Dialect

/-- One unit is read off the front of a text. -/
def Step (d : Dialect Flags Names Atom) (q : Reading Flags Names Atom) (cs : List Char)
    (q' : Reading Flags Names Atom) (rest : List Char) : Prop :=
  ∃ lexeme names, d.next? q.group.flags q.names cs = some (lexeme, names, rest) ∧
    q.take? names lexeme = some q'

/-- Units are read off the front of a text. -/
inductive Reads (d : Dialect Flags Names Atom) :
    Reading Flags Names Atom → List Char → Reading Flags Names Atom → List Char → Prop where
  | refl {q cs} : Reads d q cs q cs
  | step {q cs q' mid q'' rest} (head : d.Step q cs q' mid) (tail : Reads d q' mid q'' rest) :
    Reads d q cs q'' rest

/-- Whether a text is a comment that is still open at its end. -/
def InComment (d : Dialect Flags Names Atom) (q : Reading Flags Names Atom) (cs : List Char) :
    Prop :=
  ∃ names, d.next? q.group.flags q.names cs = some (.comment, names, [])

/-- A text goes on up to the end of a pattern that denotes `r`. No group is open there, and nothing
    is left but, possibly, a comment. -/
def Completes (d : Dialect Flags Names Atom) (q : Reading Flags Names Atom) (cs : List Char)
    (r : Regex Atom) : Prop :=
  ∃ q' rest, d.Reads q cs q' rest ∧ (rest = [] ∨ d.InComment q' rest) ∧ q'.outer = [] ∧
    q'.group.regex = r

/-- The expression that a pattern denotes. A pattern is well-formed when it denotes one. -/
def Denotes (d : Dialect Flags Names Atom) (pattern : List Char) (r : Regex Atom) : Prop :=
  d.Completes d.start pattern r

/-- Whether a pattern is an expression that ends in a comment which is still open. -/
def EndsInComment (d : Dialect Flags Names Atom) (pattern : List Char) : Prop :=
  ∃ q rest, d.Reads d.start pattern q rest ∧ d.InComment q rest ∧ q.outer = []

/-! ## 2. Lawful dialects -/

/-- What engines of regular expressions say of their patterns. -/
structure Lawful (d : Dialect Flags Names Atom) : Prop where
  /-- A pattern is read from the front. -/
  takes {flags names cs lexeme names' rest} :
    d.next? flags names cs = some (lexeme, names', rest) → ∃ used, used ≠ [] ∧ cs = used ++ rest
  /-- A closing parenthesis is a unit by itself, … -/
  closing (flags names cs) : ∃ names', d.next? flags names (')' :: cs) = some (.closing, names', cs)
  /-- … and no other unit ends a group. -/
  closed {flags names cs names' rest} :
    d.next? flags names cs = some (.closing, names', rest) → cs = ')' :: rest
  /-- A unit other than a comment that ends in front of a closing parenthesis is the unit that it is
      at the end of the pattern. -/
  stops {flags names cs lexeme names' rest} (tail : List Char) (h : lexeme ≠ .comment) :
    d.next? flags names (cs ++ ')' :: tail) = some (lexeme, names', rest ++ ')' :: tail) ↔
      d.next? flags names cs = some (lexeme, names', rest)
  /-- A comment takes in what follows up to the end of the line, closing parentheses too. -/
  comment {flags names cs names' rest}
      (h : d.next? flags names cs = some (.comment, names', rest)) :
    rest = [] ∧ ∀ tail, '\n' ∉ tail →
      ∃ names'', d.next? flags names (cs ++ tail) = some (.comment, names'', [])
  /-- A caret at the start of a pattern is an atom by itself. -/
  caret (cs) : d.next? d.flags d.names ('^' :: cs) = some (.atom d.caret, d.names, cs)
  /-- It stands for the start of the text. -/
  start {text i j} : d.Spans d.caret text i j ↔ i = 0 ∧ j = 0
  /-- A group that begins with a question mark and a colon has the flags around it. -/
  group (cs) : d.next? d.flags d.names ('(' :: '?' :: ':' :: cs) =
    some (.opening d.flags, d.names, cs)
  /-- A dollar sign under the flags of the start is an atom by itself. -/
  dollar (names) : ∃ names', d.next? d.flags names ['$'] = some (.atom d.dollar, names', [])
  /-- It stands for the end of the text. -/
  stop {text i j} : d.Spans d.dollar text i j ↔ i = text.length ∧ j = text.length

variable {d : Dialect Flags Names Atom} {q q' q'' : Reading Flags Names Atom}
  {cs rest rest' : List Char} {r r' : Regex Atom}

/-! ## 3. One reading -/

theorem Step.unique (h : d.Step q cs q' rest) (h' : d.Step q cs q'' rest') :
    q' = q'' ∧ rest = rest' := by
  obtain ⟨l, names, hnext, htake⟩ := h
  obtain ⟨l', names', hnext', htake'⟩ := h'
  cases hnext.symm.trans hnext'
  exact ⟨Option.some.inj (htake.symm.trans htake'), rfl⟩

/-- A comment that is still open is no unit of an expression. -/
theorem InComment.not_step (h : d.InComment q cs) : ¬d.Step q cs q' rest := by
  rintro ⟨l, names, hnext, htake⟩
  obtain ⟨names', hcomment⟩ := h
  cases hnext.symm.trans hcomment
  cases htake

/-- Nothing is read off an empty text. -/
theorem Lawful.not_step_nil (hd : d.Lawful) : ¬d.Step q [] q' rest := by
  rintro ⟨l, names, hnext, -⟩
  obtain ⟨used, hne, hused⟩ := hd.takes hnext
  exact hne (List.append_eq_nil_iff.mp hused.symm).1

/-- Where a pattern may end no unit is read any more. -/
theorem Lawful.not_step (hd : d.Lawful) (h : cs = [] ∨ d.InComment q cs) :
    ¬d.Step q cs q' rest := by
  rcases h with rfl | h
  · exact hd.not_step_nil
  · exact h.not_step

/-- What completes a pattern goes on with what is read first. -/
theorem Lawful.completes_iff (hd : d.Lawful) (h : d.Reads q cs q' rest) :
    d.Completes q cs r ↔ d.Completes q' rest r := by
  induction h with
  | refl => exact Iff.rfl
  | @step q cs q₁ mid q' rest head _ ih =>
    rw [← ih]
    constructor
    · rintro ⟨qₑ, restₑ, hreads, hend⟩
      cases hreads with
      | refl => exact absurd head (hd.not_step hend.1)
      | step head' tail' =>
        obtain ⟨rfl, rfl⟩ := head'.unique head
        exact ⟨qₑ, restₑ, tail', hend⟩
    · rintro ⟨qₑ, restₑ, hreads, hend⟩
      exact ⟨qₑ, restₑ, .step head hreads, hend⟩

/-- At the end of a pattern its expression is that of the group. -/
theorem Lawful.completes_end (hd : d.Lawful) (h : rest = [] ∨ d.InComment q rest) :
    d.Completes q rest r ↔ q.outer = [] ∧ q.group.regex = r := by
  constructor
  · rintro ⟨qₑ, restₑ, hreads, hend, houter, hregex⟩
    cases hreads with
    | refl => exact ⟨houter, hregex⟩
    | step head _ => exact absurd head (hd.not_step h)
  · rintro ⟨houter, hregex⟩
    exact ⟨q, rest, .refl, h, houter, hregex⟩

/-- **A pattern denotes one expression at most.** -/
theorem Denotes.unique (hd : d.Lawful) (h : d.Denotes cs r) (h' : d.Denotes cs r') : r = r' := by
  obtain ⟨q, rest, hreads, hend, houter, rfl⟩ := h
  exact ((hd.completes_end hend).mp ((hd.completes_iff hreads).mp h')).2

/-- A pattern that ends in a comment is well-formed. -/
theorem EndsInComment.denotes (h : d.EndsInComment cs) : ∃ r, d.Denotes cs r := by
  obtain ⟨q, rest, hreads, hcomment, houter⟩ := h
  exact ⟨_, q, rest, hreads, .inr hcomment, houter, rfl⟩

end Dialect

/-! ## 4. Groups -/

namespace Reading

/-- What is read by itself, inside of the group `g`, which lies in the groups `base`. -/
def inside (q : Reading Flags Names Atom) (g : Frame Flags Atom) (base : List (Frame Flags Atom)) :
    Reading Flags Names Atom :=
  { q with outer := q.outer ++ g :: base }

/-- The group `g` behind a group that has been read and ends. -/
def leave (q : Reading Flags Names Atom) (names : Names) (g : Frame Flags Atom)
    (base : List (Frame Flags Atom)) : Reading Flags Names Atom :=
  { names, group := g.add q.group.regex, outer := base }

/-- A unit is taken in as outside of the group, but for the closing parenthesis that ends it. -/
theorem take?_inside {q q' : Reading Flags Names Atom} {names : Names} {l : Lexeme Flags Atom}
    {g : Frame Flags Atom} {base : List (Frame Flags Atom)} :
    (q.inside g base).take? names l = some q' ↔
      (∃ p, q.take? names l = some p ∧ q' = p.inside g base) ∨
        (l = .closing ∧ q.outer = [] ∧ q' = q.leave names g base) := by
  obtain ⟨known, group, outer⟩ := q
  cases l with
  | closing =>
    cases outer with
    | nil => simp [take?, inside, leave, eq_comm]
    | cons f outer => simp [take?, inside, eq_comm]
  | repetition least most =>
    cases hr : group.repeatLast? least most with
    | none => simp [take?, inside, hr]
    | some group' => simp [take?, inside, hr, eq_comm]
  | _ => simp [take?, inside, eq_comm]

end Reading

namespace Dialect

variable {d : Dialect Flags Names Atom} {q q' q'' : Reading Flags Names Atom}
  {cs rest : List Char} {r : Regex Atom}

/-- A unit that is taken in is no comment. -/
theorem ne_comment_of_take? {names : Names} {l : Lexeme Flags Atom}
    (h : q.take? names l = some q') : l ≠ .comment := by
  rintro rfl
  cases h

theorem Step.inside (hd : d.Lawful) (h : d.Step q cs q' rest) (g : Frame Flags Atom)
    (base : List (Frame Flags Atom)) (tail : List Char) :
    d.Step (q.inside g base) (cs ++ ')' :: tail) (q'.inside g base) (rest ++ ')' :: tail) := by
  obtain ⟨l, names, hnext, htake⟩ := h
  exact ⟨l, names, (hd.stops tail (ne_comment_of_take? htake)).mpr hnext,
    Reading.take?_inside.mpr (.inl ⟨q', htake, rfl⟩)⟩

/-- **An expression is read inside of a group as it is read by itself.** -/
theorem Reads.inside (hd : d.Lawful) (h : d.Reads q cs q' rest) (g : Frame Flags Atom)
    (base : List (Frame Flags Atom)) (tail : List Char) :
    d.Reads (q.inside g base) (cs ++ ')' :: tail) (q'.inside g base) (rest ++ ')' :: tail) := by
  induction h with
  | refl => exact .refl
  | step head _ ih => exact .step (head.inside hd g base tail) ih

/-- A closing parenthesis behind an expression ends the group. -/
theorem Lawful.step_closing (hd : d.Lawful) (houter : q.outer = []) (g : Frame Flags Atom)
    (base : List (Frame Flags Atom)) (cs : List Char) :
    ∃ names, d.Step (q.inside g base) (')' :: cs) (q.leave names g base) cs := by
  obtain ⟨names, hnext⟩ := hd.closing q.group.flags q.names cs
  exact ⟨names, .closing, names, hnext, Reading.take?_inside.mpr (.inr ⟨rfl, houter, rfl⟩)⟩

/-- **A group is ended by a closing parenthesis behind an expression**, and the pattern goes on
    outside. -/
theorem Completes.split (hd : d.Lawful) {g : Frame Flags Atom} {base : List (Frame Flags Atom)}
    (h : d.Completes (q.inside g base) cs r) :
    ∃ front q' names rest, cs = front ++ ')' :: rest ∧ d.Reads q front q' [] ∧ q'.outer = [] ∧
      d.Step (q'.inside g base) (')' :: rest) (q'.leave names g base) rest ∧
        d.Completes (q'.leave names g base) rest r := by
  obtain ⟨qₑ, restₑ, hreads, hend, houter, hregex⟩ := h
  generalize hp : q.inside g base = p at hreads
  induction hreads generalizing q with
  | refl =>
    rw [← hp] at houter
    exact absurd (List.append_eq_nil_iff.mp houter).2 (List.cons_ne_nil g base)
  | @step p cs p' mid qₑ restₑ head tail ih =>
    obtain rfl := hp
    obtain ⟨l, names, hnext, htake⟩ := id head
    have hnext : d.next? q.group.flags q.names cs = some (l, names, mid) := hnext
    rcases Reading.take?_inside.mp htake with ⟨q', hq', rfl⟩ | ⟨rfl, hq, rfl⟩
    · obtain ⟨front, q'', names', rest, hmid, hfront, hq'', hstep, hcompletes⟩ :=
        ih hend houter hregex rfl
      obtain ⟨used, -, rfl⟩ := hd.takes hnext
      rw [hmid, ← List.append_assoc] at hnext
      have hfirst := (hd.stops rest (ne_comment_of_take? hq')).mp hnext
      refine ⟨used ++ front, q'', names', rest, ?_, .step ⟨l, names, hfirst, hq'⟩ hfront, hq'',
        hstep, hcompletes⟩
      rw [hmid, List.append_assoc]
    · obtain rfl := hd.closed hnext
      exact ⟨[], q, names, mid, rfl, .refl, hq, head, qₑ, restₑ, tail, hend, houter, hregex⟩

/-! ## 5. The reader -/

/-- As many units suffice as a text has characters. -/
theorem readFrom?_eq_some (hd : d.Lawful) {fuel : Nat} (hfuel : cs.length ≤ fuel) :
    d.readFrom? fuel q cs = some r ↔ d.Completes q cs r := by
  have hregex? (q : Reading Flags Names Atom) :
      q.regex? = some r ↔ q.outer = [] ∧ q.group.regex = r := by
    unfold Reading.regex?
    cases q.outer with
    | nil => simp
    | cons g outer => simp
  induction fuel generalizing q cs with
  | zero =>
    obtain rfl := List.length_eq_zero_iff.mp (Nat.le_zero.mp hfuel)
    rw [readFrom?, hregex?, hd.completes_end (.inl rfl)]
  | succ fuel ih =>
    cases cs with
    | nil => rw [readFrom?, hregex?, hd.completes_end (.inl rfl)]
    | cons c cs =>
      have hstuck (h : ∀ q' rest, ¬d.Step q (c :: cs) q' rest) (hc : ¬d.InComment q (c :: cs)) :
          ¬d.Completes q (c :: cs) r := by
        rintro ⟨q', rest, hreads, hend, -⟩
        cases hreads with
        | refl => exact hend.elim (fun h => nomatch h) hc
        | step head _ => exact h _ _ head
      rw [readFrom?]
      split
      · rename_i hnext
        refine iff_of_false (fun h => nomatch h) (hstuck ?_ ?_)
        · rintro q' rest ⟨l, names, hnext', -⟩
          cases hnext.symm.trans hnext'
        · rintro ⟨names, hnext'⟩
          cases hnext.symm.trans hnext'
      · rename_i names rest hnext
        obtain ⟨rfl, -⟩ := hd.comment hnext
        rw [hregex?, hd.completes_end (.inr ⟨names, hnext⟩)]
      · rename_i l names rest hcomment hnext
        cases htake : q.take? names l with
        | none =>
          refine iff_of_false (fun h => nomatch h) (hstuck ?_ ?_)
          · rintro q' rest' ⟨l', names', hnext', htake'⟩
            cases hnext.symm.trans hnext'
            cases htake.symm.trans htake'
          · rintro ⟨names', hnext'⟩
            cases hnext.symm.trans hnext'
            exact hcomment rfl
        | some q' =>
          obtain ⟨used, hused, hcs⟩ := hd.takes hnext
          have hlen := congrArg List.length hcs
          have hpos := List.length_pos_iff.mpr hused
          rw [List.length_append] at hlen
          rw [hd.completes_iff (.step ⟨l, names, hnext, htake⟩ .refl)]
          exact ih (by omega)

/-- **The reader finds the expression that a pattern denotes.** -/
theorem parse?_eq_some (hd : d.Lawful) : d.parse? cs = some r ↔ d.Denotes cs r :=
  readFrom?_eq_some hd (Nat.le_refl _)

theorem exists_denotes_iff (hd : d.Lawful) :
    (∃ r, d.Denotes cs r) ↔ (d.parse? cs).isSome = true := by
  simp only [Option.isSome_iff_exists, parse?_eq_some hd]

end Dialect

end SqlTemplate.Pattern

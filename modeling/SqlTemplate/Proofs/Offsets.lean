import SqlTemplate.Proofs.TokenGrammar
import SqlTemplate.Scanner

/-!
# Where a scan breaks off

A scan keeps offsets into the bytes of a text, and copying a slice that is out of range breaks it off.
The offsets stand between characters, and an inner slice never ends before it starts. An outer one
does at an overlap: the backslash in front of an open delimiter belongs to the delimiter before.

* `Text.slice?_eq` and its neighbours: offsets that are sizes of beginnings of the text;
* `Text.escapedAt?_eq`: looking at one byte is looking at the character;
* `Delimiters.renderChecked`: rendering pieces, up to the first overlap;
* `Delimiters.scanOffsets_eq`: scanning by offsets renders the pieces of the text like that;
* `Delimiters.inRange_iff`: for which delimiters no text has an overlap.
-/

namespace SqlTemplate

/-! ## 1. Offsets are sizes -/

namespace Text

/-- The first character takes at least one byte. -/
theorem utf8Size_cons (c : Char) (cs : List Char) :
    ∃ size, c.utf8Size = size + 1 ∧ utf8Size (c :: cs) = size + utf8Size cs + 1 := by
  obtain ⟨size, hsize⟩ := Nat.exists_eq_add_one_of_ne_zero (Nat.ne_of_gt c.utf8Size_pos)
  refine ⟨size, hsize, ?_⟩
  rw [utf8Size, hsize]
  omega

theorem takeBytes?_append (xs ys : List Char) :
    takeBytes? (utf8Size xs) (xs ++ ys) = some xs := by
  induction xs with
  | nil =>
    cases ys with
    | nil => rfl
    | cons y ys => rfl
  | cons c xs ih =>
    obtain ⟨size, hsize, hs⟩ := utf8Size_cons c xs
    rw [hs, List.cons_append, takeBytes?, if_pos (by omega), hsize,
      show size + utf8Size xs + 1 - (size + 1) = utf8Size xs by omega, ih]
    rfl

theorem dropBytes?_append (xs ys : List Char) :
    dropBytes? (utf8Size xs) (xs ++ ys) = some ys := by
  induction xs with
  | nil =>
    cases ys with
    | nil => rfl
    | cons y ys => rfl
  | cons c xs ih =>
    obtain ⟨size, hsize, hs⟩ := utf8Size_cons c xs
    rw [hs, List.cons_append, dropBytes?, if_pos (by omega), hsize,
      show size + utf8Size xs + 1 - (size + 1) = utf8Size xs by omega, ih]

variable {cs xs ys zs pattern before after : List Char}

/-- A slice between two sizes is in range. -/
theorem slice?_eq (h : cs = xs ++ ys ++ zs) :
    slice? cs (utf8Size xs) (utf8Size (xs ++ ys)) = some ys := by
  unfold slice?
  rw [utf8Size_append, if_pos (Nat.le_add_right _ _), h, List.append_assoc, dropBytes?_append,
    Option.bind_some, Nat.add_sub_cancel_left, takeBytes?_append]

/-- A slice that would end before it starts is out of range. -/
theorem slice?_of_lt {start stop : Nat} (h : stop < start) :
    slice? cs start stop = none := by
  unfold slice?
  rw [if_neg (Nat.not_le.mpr h)]

theorem findFrom?_last (h : cs = xs ++ ys) (hs : splitOnce pattern ys = none) :
    findFrom? pattern cs (utf8Size xs) = some none := by
  unfold findFrom?
  rw [h, dropBytes?_append, Option.map_some, hs, Option.map_none]

theorem findFrom?_next (h : cs = xs ++ ys) (hs : splitOnce pattern ys = some (before, after)) :
    findFrom? pattern cs (utf8Size xs) = some (some (utf8Size (xs ++ before))) := by
  unfold findFrom?
  rw [h, dropBytes?_append, Option.map_some, hs, Option.map_some, utf8Size_append]

/-! ## 2. Bytes and characters -/

theorem bytes_append (xs ys : List Char) : bytes (xs ++ ys) = bytes xs ++ bytes ys :=
  List.flatMap_append

theorem length_bytes (cs : List Char) : (bytes cs).length = utf8Size cs := by
  induction cs with
  | nil => rfl
  | cons c cs ih =>
    unfold bytes at ih ⊢
    rw [List.flatMap_cons, List.length_append, ih, String.length_utf8EncodeChar, utf8Size]

/-- The last byte of a character is a backslash if the character is one: the others have either
    another single byte or a last byte that is no character. -/
theorem getLast?_utf8EncodeChar (c : Char) :
    (String.utf8EncodeChar c).getLast?.map (· == escapeByte) = some (c == escapeChar) := by
  have hchar : c == escapeChar ↔ c.val.toNat = 0x5C := by
    rw [beq_iff_eq, ← Char.toNat_inj]
    rfl
  have hbyte (n : Nat) (hn : n < 256) : (UInt8.ofNat n == escapeByte) = decide (n = 0x5C) := by
    rw [Bool.eq_iff_iff, beq_iff_eq, decide_eq_true_eq, ← UInt8.toNat_inj,
      UInt8.toNat_ofNat_of_lt' hn]
    rfl
  have htail : (UInt8.ofNat (c.val.toNat % 64 + 128) == escapeByte) = false := by
    rw [hbyte _ (by omega), decide_eq_false (by omega)]
  have hother (h : ¬ c.val.toNat ≤ 127) : (c == escapeChar) = false := by
    rw [Bool.eq_false_iff]
    intro he
    have := hchar.mp he
    omega
  unfold String.utf8EncodeChar
  by_cases h₁ : c.val.toNat ≤ 127
  · rw [if_pos h₁]
    show some (UInt8.ofNat c.val.toNat == escapeByte) = _
    rw [hbyte _ (by omega), Option.some.injEq, Bool.eq_iff_iff, decide_eq_true_eq]
    exact hchar.symm
  · rw [if_neg h₁, hother h₁]
    by_cases h₂ : c.val.toNat ≤ 2047
    · rw [if_pos h₂]
      exact congrArg some htail
    · rw [if_neg h₂]
      by_cases h₃ : c.val.toNat ≤ 65535
      · rw [if_pos h₃]
        exact congrArg some htail
      · rw [if_neg h₃]
        exact congrArg some htail

theorem getLast?_bytes (cs : List Char) :
    (bytes cs).getLast?.map (· == escapeByte) = cs.getLast?.map (· == escapeChar) := by
  rcases List.eq_nil_or_concat cs with rfl | ⟨init, c, rfl⟩
  · rfl
  · rw [List.concat_eq_append, List.getLast?_concat, bytes_append]
    have hc := getLast?_utf8EncodeChar c
    have hbytes : bytes [c] = String.utf8EncodeChar c := List.append_nil _
    rw [hbytes]
    cases hl : (String.utf8EncodeChar c).getLast? with
    | none =>
      rw [hl] at hc
      cases hc
    | some b =>
      rw [hl] at hc
      rw [List.getLast?_append, hl]
      exact hc

/-- The byte in front of an offset says whether a backslash stands there. -/
theorem escapedAt?_eq (h : cs = xs ++ ys) (low : Nat) :
    escapedAt? cs low (utf8Size xs) = some (decide (low < utf8Size xs) && endsEscaped xs) := by
  subst h
  unfold escapedAt?
  by_cases h : low < utf8Size xs
  · have hlast : utf8Size xs - 1 < (bytes xs).length := by
      rw [length_bytes]
      omega
    rw [if_pos h, decide_eq_true h, Bool.true_and, bytes_append, List.getElem?_append_left hlast,
      ← length_bytes, ← List.getLast?_eq_getElem?, getLast?_bytes]
    rcases List.eq_nil_or_concat xs with rfl | ⟨init, c, rfl⟩
    · exact absurd h (Nat.not_lt_zero low)
    · rw [List.concat_eq_append, List.getLast?_concat, endsEscaped_concat]
      rfl
  · rw [if_neg h, decide_eq_false h, Bool.false_and]

end Text

namespace Delimiters

open Text (splitOnce utf8Size utf8Size_append findFrom? slice?)

variable {d : Delimiters}

theorem endsEscaped_append {xs ys : List Char} (h : ys ≠ []) :
    endsEscaped (xs ++ ys) = endsEscaped ys := by
  unfold endsEscaped
  rw [List.getLast?_append_of_ne_nil _ h]

/-! ## 3. One round -/

theorem contentAt_last {input : List Char} {offset : Nat}
    (h : findFrom? d.closing input offset = some none) (content : List Char) :
    d.contentAt input content offset = some none := by
  rw [contentAt]
  split
  · rename_i hf
    cases h.symm.trans hf
  · rfl
  · rename_i hf
    cases h.symm.trans hf

theorem contentAt_escaped {input front : List Char} {offset place : Nat}
    (h : findFrom? d.closing input offset = some (some place))
    (he : Text.escapedAt? input offset place = some true)
    (hs : slice? input offset (place - 1) = some front) (content : List Char) :
    d.contentAt input content offset =
      d.contentAt input (content ++ front ++ d.closing) (place + utf8Size d.closing) := by
  rw [contentAt]
  split
  · rename_i hf
    cases h.symm.trans hf
  · rename_i hf
    cases h.symm.trans hf
  · rename_i hf
    cases h.symm.trans hf
    simp only [he, hs]

theorem contentAt_closed {input front : List Char} {offset place : Nat}
    (h : findFrom? d.closing input offset = some (some place))
    (he : Text.escapedAt? input offset place = some false)
    (hs : slice? input offset place = some front) (content : List Char) :
    d.contentAt input content offset =
      some (some (content ++ front, place + utf8Size d.closing)) := by
  rw [contentAt]
  split
  · rename_i hf
    cases h.symm.trans hf
  · rename_i hf
    cases h.symm.trans hf
  · rename_i hf
    cases h.symm.trans hf
    simp only [he, hs, Option.map_some]

/-- The size of a text up to a backslash. -/
theorem utf8Size_escape (cs : List Char) :
    utf8Size (cs ++ [escapeChar]) - 1 = utf8Size cs := by
  rw [utf8Size_append]
  exact Nat.add_sub_cancel _ 1

/-- The loop over close delimiters finds what the inner loop of the scanner does, and the offset
    behind it. Its slices are in range. -/
theorem contentAt_eq {input before rest : List Char} (hin : input = before ++ rest)
    (content : List Char) :
    d.contentAt input content (utf8Size before) =
      some ((d.findContent content rest).map fun (content', rest') =>
        (content', utf8Size input - utf8Size rest')) := by
  fun_induction d.findContent content rest generalizing before with
  | case1 content rest hs => exact contentAt_last (Text.findFrom?_last hin hs) content
  | case2 content rest front rest' hs he ih =>
    obtain ⟨init, rfl⟩ := eq_concat_of_endsEscaped he
    have hfront : input = before ++ (init ++ [escapeChar]) ++ (d.closing ++ rest') := by
      rw [hin, Text.eq_append_of_splitOnce hs]
      simp only [List.append_assoc]
    have hinit : input = before ++ init ++ ([escapeChar] ++ (d.closing ++ rest')) := by
      rw [hfront]
      simp only [List.append_assoc]
    have hrest : input = before ++ (init ++ [escapeChar]) ++ d.closing ++ rest' := by
      rw [hfront, List.append_assoc _ d.closing]
    have hlt : utf8Size before < utf8Size (before ++ (init ++ [escapeChar])) := by
      rw [utf8Size_append]
      exact Nat.lt_add_of_pos_right (Text.utf8Size_pos (List.append_ne_nil_of_right_ne_nil _
        (List.cons_ne_nil _ _)))
    have hescaped : Text.escapedAt? input (utf8Size before)
        (utf8Size (before ++ (init ++ [escapeChar]))) = some true := by
      rw [Text.escapedAt?_eq hfront, decide_eq_true hlt, ← List.append_assoc, endsEscaped_escape]
      rfl
    have hslice : slice? input (utf8Size before)
        (utf8Size (before ++ (init ++ [escapeChar])) - 1) = some init := by
      rw [← List.append_assoc, utf8Size_escape]
      exact Text.slice?_eq hinit
    rw [contentAt_escaped (Text.findFrom?_next hin hs) hescaped hslice, ← utf8Size_append]
    rw [List.dropLast_concat] at ih ⊢
    exact ih hrest
  | case3 content rest front rest' hs he =>
    have hfront : input = before ++ front ++ (d.closing ++ rest') := by
      rw [hin, Text.eq_append_of_splitOnce hs]
      simp only [List.append_assoc]
    have hescaped : Text.escapedAt? input (utf8Size before) (utf8Size (before ++ front)) =
        some false := by
      rw [Text.escapedAt?_eq hfront]
      rcases List.eq_nil_or_concat front with rfl | ⟨init, c, rfl⟩
      · rw [List.append_nil, decide_eq_false (Nat.lt_irrefl _), Bool.false_and]
      · rw [List.concat_eq_append] at he ⊢
        rw [endsEscaped_append (List.append_ne_nil_of_right_ne_nil _ (List.cons_ne_nil _ _)),
          Bool.eq_false_iff.mpr he, Bool.and_false]
    rw [contentAt_closed (Text.findFrom?_next hin hs) hescaped (Text.slice?_eq hfront)]
    refine congrArg (fun n => some (some (content ++ front, n))) ?_
    rw [hfront]
    simp only [utf8Size_append]
    omega

/-- The outer loop looks at whatever stands in front of a delimiter. -/
theorem escapedAt?_zero {input before rest : List Char} (hin : input = before ++ rest) :
    Text.escapedAt? input 0 (utf8Size before) = some (endsEscaped before) := by
  rw [Text.escapedAt?_eq hin]
  cases before with
  | nil => rfl
  | cons c cs => rw [decide_eq_true (Text.utf8Size_pos (List.cons_ne_nil c cs)), Bool.true_and]

section Round

variable {input before front rest content rest' : List Char}

/-- The backslash in front of the delimiter belongs to the round before: what stands between the two
    would end before it starts. -/
theorem round_overlap (hin : input = before ++ (d.opening ++ rest))
    (he : endsEscaped before = true) :
    d.round input (utf8Size before) (utf8Size before) = none := by
  have hne : before ≠ [] := by
    rintro rfl
    cases he
  unfold round
  rw [escapedAt?_zero hin, he, Text.slice?_of_lt (Nat.sub_lt (Text.utf8Size_pos hne) Nat.one_pos)]
  rfl

theorem round_escaped (hin : input = before ++ (front ++ [escapeChar]) ++ (d.opening ++ rest)) :
    d.round input (utf8Size before) (utf8Size (before ++ (front ++ [escapeChar]))) =
      some { front := front ++ d.opening
             next := utf8Size (before ++ (front ++ [escapeChar]) ++ d.opening) } := by
  have he : endsEscaped (before ++ (front ++ [escapeChar])) = true := by
    rw [← List.append_assoc, endsEscaped_escape]
  have hslice : slice? input (utf8Size before)
      (utf8Size (before ++ (front ++ [escapeChar])) - 1) = some front := by
    have hfront : input = before ++ front ++ ([escapeChar] ++ (d.opening ++ rest)) := by
      rw [hin]
      simp only [List.append_assoc]
    rw [← List.append_assoc, utf8Size_escape]
    exact Text.slice?_eq hfront
  unfold round
  rw [escapedAt?_zero hin, he, hslice, utf8Size_append _ d.opening]
  rfl

/-- Without a backslash in front of it, the delimiter opens a token. -/
theorem round_open (hin : input = before ++ front ++ (d.opening ++ rest))
    (he : endsEscaped (before ++ front) = false) :
    d.round input (utf8Size before) (utf8Size (before ++ front)) =
      some (match d.findContent [] rest with
        | some (content, rest') =>
          { front, content? := some content, next := utf8Size input - utf8Size rest' }
        | none => { front := front ++ (d.opening ++ rest), next := utf8Size input }) := by
  have hinside : input = before ++ front ++ d.opening ++ rest := by
    rw [hin, List.append_assoc _ d.opening]
  have hcontent := contentAt_eq (d := d) hinside []
  rw [utf8Size_append _ d.opening] at hcontent
  have hdrop : Text.dropBytes? (utf8Size (before ++ front)) input = some (d.opening ++ rest) := by
    rw [hin, Text.dropBytes?_append]
  unfold round
  rw [escapedAt?_zero hin, he, Text.slice?_eq hin]
  show (d.contentAt input [] _ >>= _) = _
  rw [hcontent]
  cases d.findContent [] rest with
  | some found => rfl
  | none =>
    show (Text.dropBytes? _ input >>= _) = _
    rw [hdrop]
    rfl

end Round

/-! ## 4. The scan -/

/-- Renders pieces one after the other, and breaks off at an overlap. -/
def renderChecked {m : Type → Type} [Monad m] (d : Delimiters)
    (handler : List Char → m (Option (List Char))) : List Piece → OptionT m (List Char)
  | [] => pure []
  | .overlap :: _ => failure
  | piece :: rest => do
    let first ← OptionT.lift (d.renderPiece handler piece)
    let others ← d.renderChecked handler rest
    pure (first ++ others)

/-- Goes on behind `before`, for which `out` has been put out. -/
def scanRest {m : Type → Type} [Monad m] (d : Delimiters)
    (handler : List Char → m (Option (List Char))) (out before rest : List Char) :
    OptionT m (List Char) :=
  match splitOnce d.opening rest with
  | none => pure (out ++ rest)
  | some (front, _) =>
    d.scanFromOffset handler (before ++ rest) out (utf8Size before) (utf8Size (before ++ front))

section Steps

variable {m : Type → Type} [Monad m] (handler : List Char → m (Option (List Char)))
  {before front after rest : List Char}

theorem scanRest_next (hs : splitOnce d.opening rest = some (front, after)) (out : List Char) :
    d.scanRest handler out before rest = d.scanFromOffset handler (before ++ rest) out
      (utf8Size before) (utf8Size (before ++ front)) := by
  unfold scanRest
  rw [hs]

theorem scanRest_last (hs : splitOnce d.opening rest = none) (out : List Char) :
    d.scanRest handler out before rest = pure (out ++ rest) := by
  unfold scanRest
  rw [hs]

theorem scanFromOffset_overlap {input out : List Char} {offset start : Nat}
    (hr : d.round input offset start = none) :
    d.scanFromOffset handler input out offset start = failure := by
  rw [scanFromOffset]
  split
  · rfl
  · rename_i hr'
    cases hr.symm.trans hr'

theorem append_next (hs : splitOnce d.opening rest = some (front, after)) (before : List Char) :
    before ++ rest = before ++ front ++ (d.opening ++ after) := by
  rw [Text.eq_append_of_splitOnce hs]
  simp only [List.append_assoc]

/-- An open delimiter right behind a backslash of the piece before it breaks the scan off. -/
theorem scanRest_overlap (hs : splitOnce d.opening rest = some ([], after))
    (he : endsEscaped before = true) (out : List Char) :
    d.scanRest handler out before rest = failure := by
  have hin := append_next hs before
  rw [List.append_nil] at hin
  rw [scanRest_next handler hs, List.append_nil]
  exact scanFromOffset_overlap handler (round_overlap hin he)

end Steps

section Scan

variable {m : Type → Type} [Monad m] [LawfulMonad m] (handler : List Char → m (Option (List Char)))

theorem lift_pure {α : Type} (a : α) : (OptionT.lift (pure a) : OptionT m α) = pure a := by
  apply OptionT.ext
  rw [OptionT.run_lift, OptionT.run_pure, pure_bind]

theorem lift_bind {α β : Type} (x : m α) (f : α → m β) :
    (OptionT.lift (x >>= f) : OptionT m β) = OptionT.lift x >>= fun a => OptionT.lift (f a) := by
  apply OptionT.ext
  simp only [OptionT.run_lift, OptionT.run_bind, Option.elimM, bind_assoc, pure_bind,
    Option.elim_some]

theorem renderChecked_plain {p : Piece} (h : p.content? = none) (hp : p ≠ .overlap)
    (ps : List Piece) :
    d.renderChecked handler (p :: ps) = (d.fill id p ++ ·) <$> d.renderChecked handler ps := by
  have plain (cs : List Char) : (OptionT.lift (pure cs) >>= fun first => do
      let others ← d.renderChecked handler ps
      pure (first ++ others)) = (cs ++ ·) <$> d.renderChecked handler ps := by
    rw [lift_pure, pure_bind, map_eq_pure_bind]
  cases p with
  | token content => cases h
  | overlap => exact absurd rfl hp
  | text cs => exact plain cs
  | escapedOpen => exact plain d.opening
  | unterminated cs => exact plain cs

/-- The handler's reply stands behind what is put out in front of the token. -/
theorem lift_reply (front content : List Char) :
    (OptionT.lift (do
      match ← handler content with
      | some replacement => pure (front ++ replacement)
      | none => pure (front ++ d.wrap content)) : OptionT m (List Char)) =
      OptionT.lift (handler content) >>= fun reply =>
        pure (front ++ reply.getD (d.wrap content)) := by
  rw [lift_bind]
  refine bind_congr fun reply => ?_
  cases reply with
  | some replacement => exact lift_pure _
  | none => exact lift_pure _

theorem renderChecked_token (content : List Char) (ps : List Piece) :
    d.renderChecked handler (.token content :: ps) = (do
      let reply ← OptionT.lift (handler content)
      (reply.getD (d.wrap content) ++ ·) <$> d.renderChecked handler ps) := by
  show OptionT.lift (d.renderPiece handler (.token content)) >>= _ = _
  refine (congrArg (· >>= _) (lift_reply handler [] content)).trans ?_
  simp only [bind_assoc, pure_bind, List.nil_append, map_eq_pure_bind]

/-- A round that stays in range puts its text out, and the scan goes on behind it. -/
theorem scanFromOffset_round {input before rest out : List Char} {offset start : Nat} {r : Round}
    (hr : d.round input offset start = some r) (hin : input = before ++ rest)
    (hn : r.next = utf8Size before) :
    d.scanFromOffset handler input out offset start = (do
      let text ← OptionT.lift (d.putRound handler r)
      d.scanRest handler (out ++ text) before rest) := by
  unfold scanRest
  rw [scanFromOffset]
  split
  · rename_i hr'
    cases hr.symm.trans hr'
  · rename_i r' hr'
    cases hr.symm.trans hr'
    cases hs : splitOnce d.opening rest with
    | none =>
      have hf := Text.findFrom?_last hin hs
      have hdrop : Text.dropBytes? r.next input = some rest := by
        rw [hn, hin, Text.dropBytes?_append]
      rw [← hn] at hf
      split
      · rename_i hf'
        cases hf.symm.trans hf'
      · rw [hdrop]
        exact bind_congr fun text => pure_bind rest _
      · rename_i hf'
        cases hf.symm.trans hf'
    | some found =>
      obtain ⟨front, after⟩ := found
      have hf := Text.findFrom?_next hin hs
      rw [← hn] at hf
      split
      · rename_i hf'
        cases hf.symm.trans hf'
      · rename_i hf'
        cases hf.symm.trans hf'
      · rename_i hf'
        cases hf.symm.trans hf'
        rw [hn, hin]

/-- What a token is read from ends with a close delimiter. -/
theorem Closes.ends {raw content rest : List Char} (h : d.Closes raw content rest) :
    ∃ before, raw = before ++ d.closing := by
  induction h with
  | close => exact ⟨_, rfl⟩
  | escaped _ _ ih =>
    obtain ⟨before, rfl⟩ := ih
    exact ⟨_, (List.append_assoc _ _ _).symm⟩

/-! ## 5. From one open delimiter to the next -/

variable {before front after rest rest' content : List Char}

theorem scanRest_escaped (hs : splitOnce d.opening rest = some (front ++ [escapeChar], after))
    (out : List Char) :
    d.scanRest handler out before rest = d.scanRest handler (out ++ (front ++ d.opening))
      (before ++ (front ++ [escapeChar]) ++ d.opening) after := by
  have hin := append_next hs before
  have hbehind : before ++ rest = before ++ (front ++ [escapeChar]) ++ d.opening ++ after := by
    rw [hin, List.append_assoc _ d.opening]
  rw [scanRest_next handler hs, scanFromOffset_round handler (round_escaped hin) hbehind rfl]
  show OptionT.lift (pure _) >>= _ = _
  rw [lift_pure, pure_bind]

theorem scanRest_unterminated (hs : splitOnce d.opening rest = some (front, after))
    (he : endsEscaped (before ++ front) = false) (hc : d.findContent [] after = none)
    (out : List Char) :
    d.scanRest handler out before rest = pure (out ++ (front ++ (d.opening ++ after))) := by
  have hround := round_open (append_next hs before) he
  rw [hc] at hround
  have hend : splitOnce d.opening [] = none := by
    rw [Text.splitOnce, if_neg (fun h => d.opening_ne (List.isEmpty_iff.mp h))]
  rw [scanRest_next handler hs,
    scanFromOffset_round handler hround (List.append_nil _).symm rfl]
  show OptionT.lift (pure _) >>= _ = _
  rw [lift_pure, pure_bind, scanRest_last handler hend, List.append_nil]

/-- Behind a token, the scan goes on with what stands behind its close delimiter. -/
theorem scanRest_token (hs : splitOnce d.opening rest = some (front, after))
    (he : endsEscaped (before ++ front) = false)
    (hc : d.findContent [] after = some (content, rest')) (out : List Char) :
    ∃ before', endsEscaped before' = endsEscaped d.closing ∧
      d.scanRest handler out before rest = (do
        let reply ← OptionT.lift (handler content)
        d.scanRest handler (out ++ (front ++ reply.getD (d.wrap content))) before' rest') := by
  have hround := round_open (append_next hs before) he
  rw [hc] at hround
  obtain ⟨raw, tail, rfl, -, hcloses⟩ := closes_of_findContent hc
  obtain ⟨closed, rfl⟩ := hcloses.ends
  have hbehind : before ++ rest =
      before ++ front ++ d.opening ++ closed ++ d.closing ++ rest' := by
    rw [append_next hs before]
    simp only [List.append_assoc]
  have hsize : utf8Size (before ++ rest) - utf8Size rest' =
      utf8Size (before ++ front ++ d.opening ++ closed ++ d.closing) := by
    rw [hbehind, utf8Size_append _ rest', Nat.add_sub_cancel]
  refine ⟨before ++ front ++ d.opening ++ closed ++ d.closing, endsEscaped_append d.closing_ne, ?_⟩
  rw [scanRest_next handler hs, scanFromOffset_round handler hround hbehind hsize]
  refine (congrArg (· >>= _) (lift_reply handler front content)).trans ?_
  simp only [bind_assoc, pure_bind]

/-- The character in front of a delimiter, whatever has been put out in front of it. -/
theorem isEscapedBehind_endsEscaped (before front : List Char) :
    isEscapedBehind (endsEscaped before) front = endsEscaped (before ++ front) := by
  unfold isEscapedBehind
  cases front with
  | nil => rw [List.append_nil]; rfl
  | cons c cs =>
    rw [endsEscaped_append (List.cons_ne_nil c cs)]
    rfl

theorem map_failure {α β : Type} (f : α → β) : f <$> (failure : OptionT m α) = failure := by
  apply OptionT.ext
  rw [OptionT.run_map, OptionT.run_failure, OptionT.run_failure, map_pure]
  rfl

/-- **From any place on, a scan by offsets renders the pieces that are left.** -/
theorem scanRest_eq (out before rest : List Char) :
    d.scanRest handler out before rest =
      (out ++ ·) <$> d.renderChecked handler (d.piecesFrom [] (endsEscaped before) rest) := by
  induction hlen : rest.length using Nat.strongRecOn generalizing out before rest with
  | _ n ih =>
    subst hlen
    cases hs : splitOnce d.opening rest with
    | none =>
      rw [scanRest_last handler hs, piecesFrom_last hs, renderChecked_plain handler rfl (by simp),
        renderChecked, map_pure, map_pure]
      simp only [fill, List.nil_append, List.append_nil]
    | some found =>
      obtain ⟨front, after⟩ := found
      have hopen := isPrefixOf?_append d.opening after
      have hlt := length_splitOnce d.opening_ne hs
      rw [piecesFrom_next hs, isEscapedBehind_endsEscaped, List.nil_append]
      cases he : endsEscaped (before ++ front) with
      | true =>
        rw [piecesFrom_escaped hopen]
        rcases List.eq_nil_or_concat front with rfl | ⟨init, c, rfl⟩
        · rw [List.append_nil] at he
          rw [scanRest_overlap handler hs he]
          exact (map_failure _).symm
        · rw [List.concat_eq_append] at hs he ⊢
          rw [← List.append_assoc, endsEscaped_concat] at he
          obtain rfl := eq_of_beq he
          rw [scanRest_escaped handler hs, ih _ hlt _ _ _ rfl, endsEscaped_append d.opening_ne,
            beforeEscape, if_neg (by simp), List.dropLast_concat,
            renderChecked_plain handler rfl (by simp), renderChecked_plain handler rfl (by simp)]
          simp only [Functor.map_map, fill, List.append_assoc]
      | false =>
        cases hc : d.findContent [] after with
        | none =>
          rw [scanRest_unterminated handler hs he hc]
          rw [findContent_eq] at hc
          rw [piecesFrom_unterminated hopen hc, renderChecked_plain handler rfl (by simp),
            renderChecked_plain handler rfl (by simp), renderChecked]
          simp only [map_pure, fill, List.append_nil]
        | some found =>
          obtain ⟨content, rest'⟩ := found
          obtain ⟨before', hbefore, hgo⟩ := scanRest_token handler hs he hc out
          have hlt' := Nat.lt_trans (length_findContent hc) hlt
          rw [findContent_eq] at hc
          rw [hgo, piecesFrom_closed hopen hc, renderChecked_plain handler rfl (by simp),
            renderChecked_token]
          simp only [ih _ hlt' _ _ _ rfl, hbefore, map_bind, Functor.map_map, fill,
            List.append_assoc]

/-- **Scanning by offsets renders the pieces of a text**, and breaks off at the first overlap. -/
theorem scanOffsets_eq (input : List Char) :
    d.scanOffsets handler input = d.renderChecked handler (d.pieces input) := by
  have hscan : d.scanOffsets handler input = d.scanRest handler [] [] input := by
    unfold scanOffsets scanRest
    cases hs : splitOnce d.opening input with
    | none =>
      rw [show findFrom? d.opening input 0 = some none from
        Text.findFrom?_last (List.nil_append input).symm hs]
      rfl
    | some found =>
      rw [show findFrom? d.opening input 0 = some (some (utf8Size ([] ++ found.1))) from
        Text.findFrom?_next (List.nil_append input).symm hs]
      rfl
  rw [hscan, scanRest_eq]
  exact id_map' _

/-! ## 6. Ranges -/

/-- The contents in front of the first overlap. -/
def contentsInRange (ps : List Piece) : List (List Char) :=
  (ps.takeWhile (· != .overlap)).filterMap Piece.content?

theorem contentsInRange_plain {p : Piece} (h : p.content? = none) (hp : p ≠ .overlap)
    (ps : List Piece) : contentsInRange (p :: ps) = contentsInRange ps := by
  unfold contentsInRange
  rw [List.takeWhile_cons, if_pos (bne_iff_ne.mpr hp), List.filterMap_cons_none h]

theorem contentsInRange_token (content : List Char) (ps : List Piece) :
    contentsInRange (.token content :: ps) = content :: contentsInRange ps := rfl

/-- The pieces in front of an overlap are assembled, and the text is lost if there is one. -/
theorem run_renderChecked (ps : List Piece) :
    (d.renderChecked handler ps).run =
      (fun replies => if Piece.overlap ∈ ps then none else some (d.assemble ps replies)) <$>
        (contentsInRange ps).mapM handler := by
  induction ps with
  | nil =>
    show (pure [] : OptionT m (List Char)).run = _ <$> [].mapM handler
    rw [OptionT.run_pure, List.mapM_nil, map_pure, if_neg List.not_mem_nil]
    rfl
  | cons p ps ih =>
    by_cases hp : p = .overlap
    · subst hp
      show (failure : OptionT m (List Char)).run = _ <$> [].mapM handler
      rw [OptionT.run_failure, List.mapM_nil, map_pure, if_pos List.mem_cons_self]
    · have hmem : Piece.overlap ∈ p :: ps ↔ Piece.overlap ∈ ps := by
        rw [List.mem_cons]
        exact or_iff_right fun e => hp e.symm
      simp only [hmem]
      cases hc : p.content? with
      | none =>
        rw [renderChecked_plain handler hc hp, OptionT.run_map, ih, contentsInRange_plain hc hp,
          Functor.map_map]
        refine congrArg (· <$> _) (funext fun replies => ?_)
        rw [assemble_plain hc]
        split
        · rfl
        · rfl
      | some content =>
        obtain rfl := p.eq_token_of_content? hc
        rw [renderChecked_token, contentsInRange_token, List.mapM_cons]
        simp only [OptionT.run_bind, OptionT.run_lift, OptionT.run_map, ih, Option.elimM, bind_assoc,
          pure_bind, Option.elim_some, map_bind, Functor.map_map, map_pure]
        refine bind_congr fun reply => ?_
        rw [map_eq_pure_bind]
        refine bind_congr fun replies => congrArg pure ?_
        split
        · rfl
        · rfl

/-- Without an overlap nothing is checked. -/
theorem renderChecked_eq_lift {ps : List Piece} (h : Piece.overlap ∉ ps) :
    d.renderChecked handler ps = OptionT.lift (d.renderPieces handler ps) := by
  induction ps with
  | nil => exact (lift_pure _).symm
  | cons p ps ih =>
    have hp : p ≠ .overlap := fun e => h (e ▸ List.mem_cons_self)
    have hps := ih fun hmem => h (List.mem_cons_of_mem p hmem)
    cases hc : p.content? with
    | none =>
      rw [renderChecked_plain handler hc hp, renderPieces_plain handler hc, hps, map_eq_pure_bind,
        map_eq_pure_bind, lift_bind]
      exact bind_congr fun others => (lift_pure _).symm
    | some content =>
      obtain rfl := p.eq_token_of_content? hc
      rw [renderChecked_token, renderPieces_token, hps, lift_bind]
      refine bind_congr fun reply => ?_
      rw [map_eq_pure_bind, map_eq_pure_bind, lift_bind]
      exact bind_congr fun others => (lift_pure _).symm

end Scan

/-- A text that stands at the start of itself with one more character in front repeats it. -/
theorem eq_of_append_eq_cons {a : Char} {xs ys zs : List Char} (h : xs ++ zs = a :: (xs ++ ys)) :
    ∀ c ∈ xs, c = a := by
  induction xs with
  | nil => exact fun c hc => absurd hc List.not_mem_nil
  | cons x xs ih =>
    obtain ⟨rfl, htail⟩ := List.cons.inj h
    exact List.forall_mem_cons.mpr ⟨rfl, ih htail⟩

theorem cons_eq_concat_of_eq {a : Char} {xs : List Char} (h : ∀ c ∈ xs, c = a) :
    a :: xs = xs ++ [a] := by
  induction xs with
  | nil => rfl
  | cons x xs ih =>
    obtain ⟨rfl, hxs⟩ := List.forall_mem_cons.mp h
    rw [List.cons_append, ← ih hxs]

/-- No overlap arises when the close delimiter does not end in a backslash and the open delimiter
    ends in one only if it is made of backslashes: then it is never escaped. -/
theorem overlap_not_mem (hc : endsEscaped d.closing = false)
    (ho : endsEscaped d.opening = true → ∀ c ∈ d.opening, c = escapeChar) {pending cs : List Char}
    {escaped : Bool} (hpending : escaped = true → pending ≠ [])
    (hopen' : escaped = true → endsEscaped d.opening = true → d.opening.isPrefixOf? cs = none) :
    Piece.overlap ∉ d.piecesFrom pending escaped cs := by
  fun_induction d.piecesFrom pending escaped cs with
  | case1 pending cs rest hp ih =>
    have hne := hpending rfl
    have hopen : endsEscaped d.opening = false := by
      rw [Bool.eq_false_iff]
      intro he
      have hnone := hopen' rfl he
      rw [hp] at hnone
      cases hnone
    have hbefore : beforeEscape pending = .text pending.dropLast := by
      rw [beforeEscape, if_neg (fun h => hne (List.isEmpty_iff.mp h))]
    rw [hbefore, List.mem_cons, List.mem_cons]
    rintro (e | e | hmem)
    · cases e
    · cases e
    · refine ih (fun he => ?_) (fun he => ?_) hmem
      · rw [hopen] at he
        cases he
      · rw [hopen] at he
        cases he
  | case2 pending escaped cs rest hp _ _ => simp
  | case3 pending escaped cs rest hp _ content rest' hr ih =>
    rw [List.mem_cons, List.mem_cons]
    rintro (e | e | hmem)
    · cases e
    · cases e
    · refine ih (fun he => ?_) (fun he => ?_) hmem
      · rw [hc] at he
        cases he
      · rw [hc] at he
        cases he
  | case4 pending escaped _ => simp
  | case5 pending escaped c cs hp ih =>
    refine ih (fun _ => List.append_ne_nil_of_right_ne_nil _ (List.cons_ne_nil _ _)) fun he hopen => ?_
    -- Backslashes behind one more backslash would have been found a character earlier.
    obtain rfl := eq_of_beq he
    cases hr : d.opening.isPrefixOf? cs with
    | none => rfl
    | some rest =>
      rw [eq_append_of_isPrefixOf? hr, ← List.cons_append, cons_eq_concat_of_eq (ho hopen),
        List.append_assoc, isPrefixOf?_append] at hp
      cases hp

theorem inRange_iff_not_mem {cs : List Char} :
    d.inRange cs = true ↔ Piece.overlap ∉ d.pieces cs := by
  unfold inRange
  rw [Bool.not_eq_true', ← Bool.not_eq_true, List.contains_iff_mem]

/-- An open delimiter right behind a backslash that belongs to a piece makes an overlap. -/
theorem overlap_mem_opening : Piece.overlap ∈ d.piecesFrom [] true d.opening := by
  have hp := isPrefixOf?_append d.opening []
  rw [List.append_nil] at hp
  rw [piecesFrom_escaped hp]
  exact List.mem_cons_self

theorem not_inRange_closing (hc : endsEscaped d.closing = true) :
    ¬ d.inRange (d.opening ++ (d.closing ++ d.opening)) = true := by
  have hread : d.readContent [] false (d.closing ++ d.opening) = some ([], d.opening) := by
    rw [readContent_close (isPrefixOf?_append d.closing d.opening)]
    rfl
  rw [inRange_iff_not_mem, not_not]
  unfold pieces
  rw [piecesFrom_closed (isPrefixOf?_append _ _) hread, hc]
  exact List.mem_cons_of_mem _ (List.mem_cons_of_mem _ overlap_mem_opening)

theorem not_inRange_opening (ho : endsEscaped d.opening = true) {c : Char} (hmem : c ∈ d.opening)
    (hne : c ≠ escapeChar) : ¬ d.inRange (escapeChar :: (d.opening ++ d.opening)) = true := by
  have hnone : d.opening.isPrefixOf? (escapeChar :: (d.opening ++ d.opening)) = none := by
    cases hr : d.opening.isPrefixOf? (escapeChar :: (d.opening ++ d.opening)) with
    | none => rfl
    | some rest =>
      exact absurd (eq_of_append_eq_cons (eq_append_of_isPrefixOf? hr).symm c hmem) hne
  rw [inRange_iff_not_mem, not_not]
  unfold pieces
  rw [piecesFrom_cons hnone, beq_self_eq_true, piecesFrom_escaped (isPrefixOf?_append _ _), ho]
  exact List.mem_cons_of_mem _ (List.mem_cons_of_mem _ overlap_mem_opening)

/-- **For which delimiters no text has an overlap**: the close delimiter does not end in a backslash,
    and the open delimiter does not, either, or is made of backslashes. -/
theorem inRange_iff (d : Delimiters) : (∀ cs, d.inRange cs = true) ↔
    endsEscaped d.closing = false ∧
      (endsEscaped d.opening = true → ∀ c ∈ d.opening, c = escapeChar) := by
  constructor
  · intro h
    refine ⟨Bool.eq_false_iff.mpr fun hc => not_inRange_closing hc (h _), fun ho c hmem => ?_⟩
    by_contra hne
    exact not_inRange_opening ho hmem hne (h _)
  · rintro ⟨hc, ho⟩ cs
    rw [inRange_iff_not_mem]
    exact overlap_not_mem hc ho (fun e => nomatch e) (fun e => nomatch e)

/-- What scanning a text by offsets comes to. -/
structure ByOffsets (d : Delimiters) (cs : List Char) : Prop where
  /-- The handler is asked for the contents in front of the first overlap, in order. There the scan
      breaks off, and a text without one is assembled. -/
  run : ∀ {m : Type → Type} [Monad m] [LawfulMonad m]
    (handler : List Char → m (Option (List Char))), (d.scanOffsets handler cs).run =
      (fun replies => if d.inRange cs then some (d.assemble (d.pieces cs) replies) else none) <$>
        (contentsInRange (d.pieces cs)).mapM handler
  /-- In range, scanning by offsets is scanning. -/
  scan : d.inRange cs = true → ∀ {m : Type → Type} [Monad m] [LawfulMonad m]
    (handler : List Char → m (Option (List Char))),
    d.scanOffsets handler cs = OptionT.lift (d.scan handler cs)

/-- **Where a scan breaks off**: a slice is out of range at an overlap and nowhere else, for all
    delimiters, texts and handlers. No text has one if the close delimiter does not end in a backslash
    and the open delimiter does not, either, or is made of backslashes; else some text has. -/
theorem scanOffsets_in_range (d : Delimiters) :
    (∀ cs, d.ByOffsets cs) ∧
      ((∀ cs, d.inRange cs = true) ↔ endsEscaped d.closing = false ∧
        (endsEscaped d.opening = true → ∀ c ∈ d.opening, c = escapeChar)) := by
  refine ⟨fun cs => ⟨fun handler => ?_, fun h _ _ _ handler => ?_⟩, d.inRange_iff⟩
  · rw [scanOffsets_eq, run_renderChecked]
    refine congrArg (· <$> _) (funext fun replies => ?_)
    by_cases h : Piece.overlap ∈ d.pieces cs
    · rw [if_pos h, if_neg (fun hr => inRange_iff_not_mem.mp hr h)]
    · rw [if_neg h, if_pos (inRange_iff_not_mem.mpr h)]
  · rw [scanOffsets_eq]
    exact renderChecked_eq_lift handler (inRange_iff_not_mem.mp h)

/-- The delimiters of substitutions and those of bind placeholders keep every text in range. -/
example : (∀ cs, substitution.inRange cs = true) ∧ ∀ cs, bind.inRange cs = true :=
  ⟨substitution.inRange_iff.mpr ⟨rfl, fun h => by cases h⟩,
    bind.inRange_iff.mpr ⟨rfl, fun h => by cases h⟩⟩

/-- A sharp opens a token and a backslash closes it. -/
def sharpToBackslash : Delimiters where
  opening := ['#']
  closing := ['\\']

/-- **A scan can break off**: the backslash that closes the first token stands in front of the second
    one. The text between the two would end before it starts. -/
theorem scanOffsets_breaks_off :
    Id.run (sharpToBackslash.scanOffsets (fun _ => pure none) "#a\\#b\\".toList).run = none ∧
      sharpToBackslash.round "#a\\#b\\".toList 3 3 = none ∧
      ¬ ∀ (d : Delimiters) (handler : List Char → Id (Option (List Char))) (cs : List Char),
        (Id.run (d.scanOffsets handler cs).run).isSome = true := by
  have hnone : Id.run (sharpToBackslash.scanOffsets (fun _ => pure none) "#a\\#b\\".toList).run =
      none := by decide +kernel
  refine ⟨hnone, Option.isNone_iff_eq_none.mp (by decide +kernel), fun h => ?_⟩
  have hsome := h sharpToBackslash (fun _ => pure none) "#a\\#b\\".toList
  rw [hnone] at hsome
  cases hsome

end Delimiters

end SqlTemplate

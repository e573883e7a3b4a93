import SqlTemplate.Placeholder.Offsets
import SqlTemplate.Proofs.Offsets
import SqlTemplate.Proofs.PlaceholderGrammar

/-!
# Contents are read in range

The parser of placeholder contents goes over bytes, and every step of it is possible, whatever the
content is. It comes to what the parser over characters comes to.

* `Text.Walk.Gives`: a reading whose steps are all possible, with its result;
* `Text.Walk.slice_isSome_iff` and its neighbours: a step breaks the reading off just when it is not
  possible;
* `Text.mem_utf8EncodeChar`: every byte of a character tells whether it is one of ASCII;
* `Text.gives_skipBytes`, `Placeholder.gives_closingOffset?`: the loops;
* `Placeholder.parseOffsets_safe`: every content is read in range.
-/

namespace SqlTemplate

namespace Text

/-! ## 1. Slices -/

theorem eq_append_of_takeBytes? {cs xs : List Char} {size : Nat}
    (h : takeBytes? size cs = some xs) : ∃ after, cs = xs ++ after ∧ utf8Size xs = size := by
  induction cs generalizing size xs with
  | nil =>
    cases size with
    | zero =>
      cases h
      exact ⟨[], rfl, rfl⟩
    | succ size => cases h
  | cons c cs ih =>
    cases size with
    | zero =>
      cases h
      exact ⟨c :: cs, rfl, rfl⟩
    | succ size =>
      rw [takeBytes?] at h
      split at h
      · rename_i hc
        obtain ⟨xs, hx, rfl⟩ := Option.map_eq_some_iff.mp h
        obtain ⟨after, rfl, hsize⟩ := ih hx
        exact ⟨after, rfl, by rw [utf8Size, hsize]; omega⟩
      · cases h

/-- **A slice is what stands between its offsets.** -/
theorem slice?_eq_some_iff {cs ys : List Char} {start stop : Nat} :
    slice? cs start stop = some ys ↔
      ∃ xs zs, cs = xs ++ ys ++ zs ∧ utf8Size xs = start ∧ utf8Size (xs ++ ys) = stop := by
  constructor
  · intro h
    unfold slice? at h
    split at h
    · rename_i hle
      obtain ⟨rest, hd, ht⟩ := Option.bind_eq_some_iff.mp h
      obtain ⟨xs, rfl, hstart⟩ := eq_append_of_dropBytes? hd
      obtain ⟨zs, rfl, hsize⟩ := eq_append_of_takeBytes? ht
      refine ⟨xs, zs, (List.append_assoc xs ys zs).symm, hstart, ?_⟩
      rw [utf8Size_append, hstart, hsize]
      omega
    · cases h
  · rintro ⟨xs, zs, hcs, rfl, rfl⟩
    exact slice?_eq hcs

/-- Of two beginnings of a text, the one with fewer bytes is a beginning of the other one. -/
theorem prefix_of_utf8Size_le {cs xs ys : List Char} (hx : xs <+: cs) (hy : ys <+: cs)
    (h : utf8Size xs ≤ utf8Size ys) : xs <+: ys := by
  rcases List.prefix_or_prefix_of_prefix hx hy with hp | ⟨zs, rfl⟩
  · exact hp
  · cases zs with
    | nil =>
      rw [List.append_nil]
    | cons z zs =>
      have hpos := utf8Size_pos (List.cons_ne_nil z zs)
      rw [utf8Size_append] at h
      omega

/-! ## 2. Steps -/

namespace Walk

variable {cs : List Char} {α β ε : Type}

theorem look_isSome_iff {offset : Nat} :
    (look (bytes cs) offset).result.isSome = true ↔ Step.IsSafe cs (.look offset) := by
  show (bytes cs)[offset]?.isSome = true ↔ offset < utf8Size cs
  rw [isSome_getElem?, length_bytes]

/-- A slice can be copied just when its ends are in order, in range and between characters. -/
theorem slice_isSome_iff {start stop : Nat} :
    (slice cs start stop).result.isSome = true ↔ Step.IsSafe cs (.slice start stop) := by
  show (slice? cs start stop).isSome = true ↔ _
  rw [Option.isSome_iff_exists]
  constructor
  · rintro ⟨ys, h⟩
    obtain ⟨xs, zs, rfl, rfl, rfl⟩ := slice?_eq_some_iff.mp h
    refine ⟨?_, ?_, ⟨xs, ys ++ zs, List.append_assoc xs ys zs, rfl⟩, ⟨xs ++ ys, zs, rfl, rfl⟩⟩
    · rw [utf8Size_append]
      exact Nat.le_add_right _ _
    · rw [utf8Size_append (xs ++ ys)]
      exact Nat.le_add_right _ _
  · rintro ⟨hle, -, ⟨xs, xs', hxs, rfl⟩, ⟨ys, ys', hys, rfl⟩⟩
    obtain ⟨zs, rfl⟩ := prefix_of_utf8Size_le ⟨xs', hxs.symm⟩ ⟨ys', hys.symm⟩ hle
    exact ⟨zs, slice?_eq hys⟩

theorem lower_isSome_iff {depth : Nat} :
    (lower depth).result.isSome = true ↔ Step.IsSafe cs (.lower depth) := by
  cases depth with
  | zero => exact ⟨(fun h => nomatch h), fun h => absurd h (Nat.lt_irrefl 0)⟩
  | succ depth => exact ⟨fun _ => Nat.succ_pos depth, fun _ => rfl⟩

/-! ## 3. Safe readings -/

/-- A reading of the text `cs` comes to `a`, and all of its steps are possible. -/
structure Gives (cs : List Char) (w : Walk α) (a : α) : Prop where
  result : w.result = some a
  safe : ∀ step ∈ w.steps, step.IsSafe cs

namespace Gives

theorem pure (cs : List Char) (a : α) : Gives cs (Pure.pure a : Walk α) a :=
  ⟨rfl, fun _ h => absurd h List.not_mem_nil⟩

theorem single {step : Step} {result : Option α} {a : α} (h : result = some a)
    (hs : step.IsSafe cs) : Gives cs ⟨[step], result⟩ a :=
  ⟨h, fun _ hm => List.mem_singleton.mp hm ▸ hs⟩

theorem bind {w : Walk α} {f : α → Walk β} {a : α} {b : β} (hw : Gives cs w a)
    (hf : Gives cs (f a) b) : Gives cs (w >>= f) b := by
  obtain ⟨steps, result⟩ := w
  obtain ⟨rfl, hsafe⟩ := hw
  exact ⟨hf.result, List.forall_mem_append.mpr ⟨hsafe, hf.safe⟩⟩

/-- A reading that cannot be refused comes first. -/
theorem bind_lift {w : Walk α} {f : α → ExceptT ε Walk β} {a : α} {r : Except ε β}
    (hw : Gives cs w a) (hf : Gives cs (f a).run r) :
    Gives cs ((liftM w : ExceptT ε Walk α) >>= f).run r := by
  have hlift : Gives cs (liftM w : ExceptT ε Walk α).run (.ok a) := bind hw (pure cs _)
  exact bind hlift hf

/-- A reading that has been refused goes no further. -/
theorem bind_error {x : ExceptT ε Walk α} {reason : ε} (hx : Gives cs x.run (.error reason))
    (f : α → ExceptT ε Walk β) : Gives cs (x >>= f).run (.error reason) :=
  bind hx (pure cs _)

theorem bind_ok {x : ExceptT ε Walk α} {f : α → ExceptT ε Walk β} {a : α} {r : Except ε β}
    (hx : Gives cs x.run (.ok a)) (hf : Gives cs (f a).run r) : Gives cs (x >>= f).run r :=
  bind hx hf

theorem map_run {x : ExceptT ε Walk α} {r : Except ε α} (hx : Gives cs x.run r) (f : α → β) :
    Gives cs (x >>= fun a => Pure.pure (f a)).run (r.map f) := by
  cases r with
  | error reason => exact bind_error hx _
  | ok a => exact bind_ok hx (pure cs _)

end Gives

theorem gives_look {offset : Nat} {b : UInt8} (h : (bytes cs)[offset]? = some b) :
    Gives cs (look (bytes cs) offset) b :=
  .single h (look_isSome_iff.mp (Option.isSome_iff_exists.mpr ⟨b, h⟩))

theorem gives_slice {start stop : Nat} {ys : List Char} (h : slice? cs start stop = some ys) :
    Gives cs (slice cs start stop) ys :=
  .single h (slice_isSome_iff.mp (Option.isSome_iff_exists.mpr ⟨ys, h⟩))

theorem gives_lower (cs : List Char) (depth : Nat) : Gives cs (lower (depth + 1)) depth :=
  .single rfl (lower_isSome_iff.mp rfl)

theorem gives_raise {n : Nat} (h : n ≤ utf8Size cs + 1) : Gives cs (raise n) () :=
  .single rfl h

end Walk

/-! ## 4. Places -/

/-- Whether a cursor is a place of a text. -/
def Cursor.IsIn (cs : List Char) (place : Cursor) : Prop :=
  ∃ before, cs = before ++ place.rest ∧ utf8Size before = place.offset

theorem Cursor.isIn_ofText (cs : List Char) : (ofText cs).IsIn cs := ⟨[], rfl, rfl⟩

section Places

variable {cs xs rest : List Char} {offset : Nat}

/-- Behind some characters is a place again. -/
theorem Cursor.IsIn.advance (h : IsIn cs ⟨offset, xs ++ rest⟩) :
    IsIn cs ⟨offset + utf8Size xs, rest⟩ := by
  obtain ⟨before, rfl, rfl⟩ := h
  exact ⟨before ++ xs, (List.append_assoc before xs rest).symm, utf8Size_append before xs⟩

theorem Cursor.IsIn.advance_one {c : Char} (h : IsIn cs ⟨offset, c :: rest⟩) :
    IsIn cs ⟨offset + c.utf8Size, rest⟩ := by
  rw [← List.singleton_append] at h
  exact h.advance

theorem Cursor.IsIn.size (h : IsIn cs ⟨offset, rest⟩) : offset + utf8Size rest = utf8Size cs := by
  obtain ⟨before, rfl, rfl⟩ := h
  exact (utf8Size_append before rest).symm

theorem Cursor.IsIn.cut (h : IsIn cs ⟨offset, rest⟩) (p : Char → Bool) :
    IsIn cs ⟨offset, rest.takeWhile p ++ rest.dropWhile p⟩ := by
  rw [List.takeWhile_append_dropWhile]
  exact h

theorem Cursor.IsIn.skipWhile {place : Cursor} (h : place.IsIn cs) (p : Char → Bool) :
    (place.skipWhile p).IsIn cs :=
  (cut h p).advance

/-- What starts at a place is a slice. -/
theorem Cursor.IsIn.slice (h : IsIn cs ⟨offset, xs ++ rest⟩) :
    slice? cs offset (offset + utf8Size xs) = some xs := by
  obtain ⟨before, rfl, rfl⟩ := h
  exact slice?_eq_some_iff.mpr ⟨before, rest, (List.append_assoc before xs rest).symm, rfl,
    utf8Size_append before xs⟩

/-- The bytes from a place on are those of what stands behind it. -/
theorem Cursor.IsIn.drop_bytes (h : IsIn cs ⟨offset, rest⟩) :
    (bytes cs).drop offset = bytes rest := by
  obtain ⟨before, rfl, rfl⟩ := h
  rw [bytes_append]
  exact List.drop_left' (length_bytes before)

end Places

/-! ## 5. Bytes of characters -/

theorem bytes_cons (c : Char) (cs : List Char) :
    bytes (c :: cs) = String.utf8EncodeChar c ++ bytes cs :=
  List.flatMap_cons

/-- **Every byte of a character tells whether it is one of ASCII**, and that one byte is the
    character then. -/
theorem mem_utf8EncodeChar {c : Char} {b : UInt8} (h : b ∈ String.utf8EncodeChar c) :
    (c.toNat < 128 ∧ b.toNat = c.toNat) ∨ (128 ≤ c.toNat ∧ 128 ≤ b.toNat) := by
  have hascii : c.toNat = c.val.toNat := rfl
  have hhigh (n : Nat) (hlow : 128 ≤ n) (hn : n < 256) : 128 ≤ (UInt8.ofNat n).toNat := by
    rw [UInt8.toNat_ofNat_of_lt' hn]
    exact hlow
  unfold String.utf8EncodeChar at h
  by_cases h₁ : c.val.toNat ≤ 127
  · rw [if_pos h₁] at h
    rw [List.mem_singleton.mp h, UInt8.toNat_ofNat_of_lt' (by show _ < 256; omega)]
    exact .inl ⟨by omega, rfl⟩
  · rw [if_neg h₁] at h
    refine .inr ⟨by omega, ?_⟩
    split at h
    · simp only [List.mem_cons, List.not_mem_nil, or_false] at h
      rcases h with rfl | rfl <;> exact hhigh _ (by omega) (by omega)
    · split at h
      · simp only [List.mem_cons, List.not_mem_nil, or_false] at h
        rcases h with rfl | rfl | rfl <;> exact hhigh _ (by omega) (by omega)
      · simp only [List.mem_cons, List.not_mem_nil, or_false] at h
        rcases h with rfl | rfl | rfl | rfl <;> exact hhigh _ (by omega) (by omega)

/-- A byte of a character is the byte of an ASCII character just when it is that character. -/
theorem eq_byte_iff {c d : Char} {b byte : UInt8} (hb : b ∈ String.utf8EncodeChar c)
    (hd : byte.toNat = d.toNat) (hascii : d.toNat < 128) : b = byte ↔ c = d := by
  rw [← UInt8.toNat_inj, ← Char.toNat_inj, hd]
  rcases mem_utf8EncodeChar hb with ⟨-, hn⟩ | ⟨hc, hn⟩
  · rw [hn]
  · exact ⟨fun _ => by omega, fun _ => by omega⟩

theorem head?_utf8EncodeChar (c : Char) : ∃ b, (String.utf8EncodeChar c).head? = some b := by
  cases h : String.utf8EncodeChar c with
  | nil =>
    have hlen := String.length_utf8EncodeChar c
    have hpos := c.utf8Size_pos
    rw [h, List.length_nil] at hlen
    omega
  | cons b bs => exact ⟨b, rfl⟩

/-- What holds of all bytes of a character or of none is told of a text character by character. -/
theorem takeWhile_bytes {p : UInt8 → Bool} {q : Char → Bool}
    (hpq : ∀ c, ∀ b ∈ String.utf8EncodeChar c, p b = q c) (cs : List Char) :
    (bytes cs).takeWhile p = bytes (cs.takeWhile q) := by
  induction cs with
  | nil => rfl
  | cons c cs ih =>
    rw [bytes_cons]
    cases hq : q c with
    | true =>
      rw [List.takeWhile_append_of_pos fun b hb => (hpq c b hb).trans hq, ih,
        List.takeWhile_cons_of_pos hq, bytes_cons]
    | false =>
      obtain ⟨b, hb⟩ := head?_utf8EncodeChar c
      obtain ⟨bs, hbs⟩ := List.head?_eq_some_iff.mp hb
      have hp : ¬p b = true := by
        rw [hpq c b (List.mem_of_mem_head? hb), hq]
        exact Bool.false_ne_true
      rw [hbs, List.cons_append, List.takeWhile_cons_of_neg hp,
        List.takeWhile_cons_of_neg (ne_true_of_eq_false hq)]
      rfl

/-! ## 6. The loop over bytes -/

theorem gives_skipBytes (cs : List Char) (p : UInt8 → Bool) (offset : Nat) :
    Walk.Gives cs (skipBytes p (bytes cs) offset)
      (offset + (((bytes cs).drop offset).takeWhile p).length) := by
  -- By the number of bytes that are left.
  induction hn : (bytes cs).length - offset using Nat.strongRecOn generalizing offset with
  | _ n ih =>
    subst hn
    rw [skipBytes]
    split
    · rename_i hlt
      have hlook : (bytes cs)[offset]? = some (bytes cs)[offset] := List.getElem?_eq_getElem hlt
      refine .bind (Walk.gives_look hlook) ?_
      rw [List.drop_eq_getElem_cons hlt]
      cases hp : p (bytes cs)[offset] with
      | true =>
        rw [length_bytes] at hlt
        rw [if_pos rfl, List.takeWhile_cons_of_pos hp, List.length_cons,
          Nat.add_comm (List.length _) 1, ← Nat.add_assoc]
        refine .bind (Walk.gives_raise (by omega)) ?_
        exact ih _ (by rw [length_bytes]; omega) (offset + 1) rfl
      | false =>
        rw [if_neg Bool.false_ne_true, List.takeWhile_cons_of_neg (ne_true_of_eq_false hp)]
        exact .pure cs offset
    · rename_i hge
      rw [List.drop_of_length_le (Nat.le_of_not_lt hge)]
      exact .pure cs offset

/-- Passing bytes by is passing characters by. -/
theorem gives_skipBytes_place {cs rest : List Char} {offset : Nat} {p : UInt8 → Bool}
    {q : Char → Bool} (hpq : ∀ c, ∀ b ∈ String.utf8EncodeChar c, p b = q c)
    (h : Cursor.IsIn cs ⟨offset, rest⟩) :
    Walk.Gives cs (skipBytes p (bytes cs) offset) (offset + utf8Size (rest.takeWhile q)) := by
  have hskip := gives_skipBytes cs p offset
  rw [h.drop_bytes, takeWhile_bytes hpq, length_bytes] at hskip
  exact hskip

end Text

open Text (Walk AllBlank utf8Size bytes)

namespace Placeholder

/-! ## 7. The loop over parentheses -/

/-- Bytes that are no parentheses are passed by. -/
theorem closingAmong_pass {bs : List UInt8} (h : ∀ b ∈ bs, b ≠ openByte ∧ b ≠ closeByte)
    (depth offset : Nat) (rest : List (UInt8 × Nat)) :
    closingAmong depth (bs.zipIdx offset ++ rest) = closingAmong depth rest := by
  induction bs generalizing offset with
  | nil => rfl
  | cons b bs ih =>
    obtain ⟨⟨hopen, hclose⟩, hbs⟩ := List.forall_mem_cons.mp h
    rw [List.zipIdx_cons, List.cons_append, closingAmong, if_neg hopen, if_neg hclose]
    exact ih hbs (offset + 1)

/-- What is found behind a character stands as many bytes further on as it has. -/
theorem map_offset_cons (c : Char) (offset : Nat) (found : Option (List Char × List Char)) :
    (found.map fun (inner, rest) => (c :: inner, rest)).map
        (fun found => offset + utf8Size found.1) =
      found.map fun found => offset + c.utf8Size + utf8Size found.1 := by
  rw [Option.map_map]
  refine congrArg (Option.map · found) (funext fun found => ?_)
  exact (Nat.add_assoc offset c.utf8Size (utf8Size found.1)).symm

/-- **The loop finds the parenthesis that answers the opening one in front of a text.** It lowers
    the depth only where a parenthesis is open: the opening one has been counted, and every closing
    one but the last answers one that has been opened since. The depth stays below the offset. -/
theorem gives_closingAmong {content : List Char} {depth offset : Nat} {cs : List Char}
    (hdepth : depth < offset) (hsize : offset + utf8Size cs ≤ utf8Size content) :
    Walk.Gives content (closingAmong (depth + 1) ((bytes cs).zipIdx offset))
      ((upToClosing depth cs).map fun found => offset + utf8Size found.1) := by
  induction cs generalizing depth offset with
  | nil => exact .pure content none
  | cons c cs ih =>
    have hsize' : offset + c.utf8Size + utf8Size cs ≤ utf8Size content := by
      rw [Nat.add_assoc]
      exact hsize
    have hpos := c.utf8Size_pos
    rw [Text.bytes_cons, List.zipIdx_append, String.length_utf8EncodeChar]
    by_cases hclose : c = ')'
    · subst hclose
      -- One more than `depth` are open, so there is one to close.
      refine .bind (Walk.gives_lower content depth) ?_
      cases depth with
      | zero => exact .pure content (some offset)
      | succ depth =>
        have hstep : upToClosing (depth + 1) (')' :: cs) =
            (upToClosing depth cs).map fun (inner, rest) => (')' :: inner, rest) := rfl
        rw [hstep, map_offset_cons]
        exact ih (Nat.lt_of_succ_lt (Nat.lt_succ_of_lt hdepth)) hsize'
    · by_cases hopen : c = '('
      · subst hopen
        have hstep : upToClosing depth ('(' :: cs) =
            (upToClosing (depth + 1) cs).map fun (inner, rest) => ('(' :: inner, rest) := rfl
        rw [hstep, map_offset_cons]
        -- No more are open than bytes have been passed, so their number stays in range.
        refine .bind (Walk.gives_raise (by omega)) ?_
        exact ih (Nat.succ_lt_succ hdepth) hsize'
      · have hbytes : ∀ b ∈ String.utf8EncodeChar c, b ≠ openByte ∧ b ≠ closeByte := fun b hb =>
          ⟨fun e => hopen ((Text.eq_byte_iff hb rfl (by decide)).mp e),
            fun e => hclose ((Text.eq_byte_iff hb rfl (by decide)).mp e)⟩
        have hstep : upToClosing depth (c :: cs) =
            (upToClosing depth cs).map fun (inner, rest) => (c :: inner, rest) := by
          rw [upToClosing.eq_def]
          simp only [if_neg hclose, if_neg hopen]
        rw [hstep, map_offset_cons, closingAmong_pass hbytes]
        exact ih (by omega) hsize'

/-- **The closing parenthesis is looked for in range**, from an opening one on. -/
theorem gives_closingOffset? {content cs : List Char} {offset : Nat}
    (h : Text.Cursor.IsIn content ⟨offset, '(' :: cs⟩) :
    Walk.Gives content (closingOffset? (bytes content) offset)
      ((upToClosing 0 cs).map fun found => offset + 1 + utf8Size found.1) := by
  have hsize : offset + utf8Size ('(' :: cs) = utf8Size content := h.size
  obtain ⟨before, rfl, rfl⟩ := h
  have hdrop : (bytes (before ++ '(' :: cs)).zipIdx.drop (utf8Size before) =
      (openByte, utf8Size before) :: (bytes cs).zipIdx (utf8Size before + 1) := by
    rw [Text.bytes_append, List.zipIdx_append, List.drop_left' (by
      rw [List.length_zipIdx, Text.length_bytes]), Text.length_bytes, Nat.zero_add]
    rfl
  unfold closingOffset?
  rw [hdrop]
  refine .bind (Walk.gives_raise (by omega)) ?_
  exact gives_closingAmong (Nat.succ_pos _) (by
    rw [Nat.add_assoc]
    exact Nat.le_of_eq hsize)

/-- From a closing parenthesis on, the number of open ones would fall below zero at once. -/
example : (closingOffset? [closeByte, openByte] 0).result = none := by decide

/-! ## 8. Bytes with a meaning -/

/-- At a place stands the byte of an ASCII character just when that character does. -/
theorem byte_iff {content cs : List Char} {offset : Nat} {byte : UInt8} {d : Char}
    (h : Text.Cursor.IsIn content ⟨offset, cs⟩) (hd : byte.toNat = d.toNat)
    (hascii : d.toNat < 128) : (bytes content)[offset]? = some byte ↔ cs.head? = some d := by
  rw [← List.head?_drop, h.drop_bytes]
  cases cs with
  | nil => exact ⟨(fun e => nomatch e), (fun e => nomatch e)⟩
  | cons c cs =>
    obtain ⟨b, hb⟩ := Text.head?_utf8EncodeChar c
    rw [Text.bytes_cons, List.head?_append, hb, Option.some_or, List.head?_cons,
      Option.some.injEq, Option.some.injEq]
    exact Text.eq_byte_iff (List.mem_of_mem_head? hb) hd hascii

section Skips

variable {content cs : List Char} {offset : Nat}

theorem gives_skipGap {place : Text.Cursor} (h : place.IsIn content) :
    Walk.Gives content (skipGap (bytes content) place.offset)
      (place.skipWhile isSkipped).offset := by
  refine Text.gives_skipBytes_place (fun c b hb => decide_eq_decide.mpr ?_) h
  have hspace : spaceByte.toNat = 0x20 := rfl
  rw [UInt8.le_iff_toNat_le, hspace]
  rcases Text.mem_utf8EncodeChar hb with ⟨-, hn⟩ | ⟨hc, hn⟩
  · rw [hn]
  · exact ⟨fun _ => by omega, fun _ => by omega⟩

theorem gives_skipTarget (h : Text.Cursor.IsIn content ⟨offset, cs⟩) :
    Walk.Gives content (skipUntil [commaByte, colonByte] (bytes content) offset)
      (offset + utf8Size (cs.takeWhile isTargetChar)) := by
  refine Text.gives_skipBytes_place (fun c b hb => ?_) h
  have hcomma : b = commaByte ↔ c = ',' := Text.eq_byte_iff hb rfl (by decide)
  have hcolon : b = colonByte ↔ c = ':' := Text.eq_byte_iff hb rfl (by decide)
  rw [Bool.eq_iff_iff]
  simp [isTargetChar, hcomma, hcolon]

theorem gives_skipType (h : Text.Cursor.IsIn content ⟨offset, cs⟩) :
    Walk.Gives content (skipUntil [commaByte] (bytes content) offset)
      (offset + utf8Size (cs.takeWhile (· != ','))) := by
  refine Text.gives_skipBytes_place (fun c b hb => ?_) h
  have hcomma : b = commaByte ↔ c = ',' := Text.eq_byte_iff hb rfl (by decide)
  rw [Bool.eq_iff_iff]
  simp [hcomma]

end Skips

/-! ## 9. Targets -/

variable {content cs : List Char} {offset : Nat}

/-- Behind a parenthesis, what stands up to the one that answers it, and the place behind that. -/
theorem isIn_of_upToClosing {inner rest : List Char}
    (h : Text.Cursor.IsIn content ⟨offset, '(' :: cs⟩)
    (hu : upToClosing 0 cs = some (inner, rest)) :
    Text.Cursor.IsIn content ⟨offset + 1, inner ++ ')' :: rest⟩ ∧
      Text.Cursor.IsIn content ⟨offset + 1 + utf8Size inner + 1, rest⟩ := by
  obtain ⟨rfl, -⟩ := upToClosing_eq_some.mp hu
  have hinner : Text.Cursor.IsIn content ⟨offset + 1, inner ++ ')' :: rest⟩ := h.advance_one
  have hclose : Text.Cursor.IsIn content ⟨offset + 1 + utf8Size inner, ')' :: rest⟩ :=
    hinner.advance
  exact ⟨hinner, hclose.advance_one⟩

/-- Behind the target is a place again. -/
theorem outlineTarget_isIn {computed : Bool} {part : Text.Part} {place next : Text.Cursor}
    (h : place.IsIn content) (ht : outlineTarget place = .ok (computed, part, next)) :
    next.IsIn content := by
  obtain ⟨offset, cs⟩ := place
  by_cases hh : cs.head? = some '('
  · obtain ⟨cs, rfl⟩ := List.head?_eq_some_iff.mp hh
    cases hu : upToClosing 0 cs with
    | none =>
      rw [outlineTarget_unbalanced hu] at ht
      cases ht
    | some found =>
      obtain ⟨inner, rest⟩ := found
      rw [outlineTarget_open hu] at ht
      cases ht
      exact (isIn_of_upToClosing h hu).2
  · rw [outlineTarget_plain offset hh] at ht
    cases ht
    exact (h.cut isTargetChar).advance

/-- **The target is read in range.** -/
theorem gives_targetAt {place : Text.Cursor} (h : place.IsIn content) :
    Walk.Gives content (targetAt content place.offset).run
      ((outlineTarget place).map fun (computed, part, next) =>
        (targetOf computed part.raw, next.offset)) := by
  obtain ⟨offset, cs⟩ := place
  have hparen : (bytes content)[offset]? = some openByte ↔ cs.head? = some '(' :=
    byte_iff h rfl (by decide)
  unfold targetAt
  by_cases hh : cs.head? = some '('
  · obtain ⟨cs, rfl⟩ := List.head?_eq_some_iff.mp hh
    rw [if_pos (hparen.mpr rfl)]
    refine .bind_lift (gives_closingOffset? h) ?_
    cases hu : upToClosing 0 cs with
    | none =>
      rw [outlineTarget_unbalanced hu]
      exact .pure content _
    | some found =>
      obtain ⟨inner, rest⟩ := found
      obtain ⟨hinner, hrest⟩ := isIn_of_upToClosing h hu
      have hsize := hrest.size
      have hopen : offset + 1 ≤ utf8Size content + 1 := by omega
      have hclose : offset + 1 + utf8Size inner + 1 ≤ utf8Size content + 1 := by omega
      rw [outlineTarget_open hu]
      refine .bind_lift (Walk.gives_raise hopen) ?_
      refine .bind_lift (Walk.gives_slice hinner.slice) ?_
      refine .bind_lift (Walk.gives_raise hclose) ?_
      exact .pure content _
  · rw [if_neg fun e => hh (hparen.mp e), outlineTarget_plain offset hh]
    refine .bind_lift (gives_skipTarget h) ?_
    refine .bind_lift (Walk.gives_slice (h.cut isTargetChar).slice) ?_
    exact .pure content _

/-! ## 10. Types and options -/

/-- What is read behind a target: its type and its options. -/
def readRest (place : Text.Cursor) : Except Reason (Option String × List (String × String)) := do
  let (jdbcType, options) ← outlineRest place
  let pairs ← optionsOf (options.map Text.Part.raw)
  return ((jdbcType.map Text.Part.raw).map trimmed, pairs)

theorem readRest_of_ok {place : Text.Cursor} {jdbcType options : Option Text.Part}
    (h : outlineRest place = .ok (jdbcType, options)) :
    readRest place = (optionsOf (options.map Text.Part.raw)).map
      (((jdbcType.map Text.Part.raw).map trimmed, ·)) := by
  unfold readRest
  simp only [h, bind, Except.bind]
  cases optionsOf (options.map Text.Part.raw) with
  | error reason => rfl
  | ok pairs => rfl

theorem readRest_of_error {place : Text.Cursor} {reason : Reason}
    (h : outlineRest place = .error reason) : readRest place = .error reason := by
  unfold readRest
  rw [h]
  rfl

/-- Options may start at the end of the content, or one byte behind it: there are none then. -/
theorem gives_optionsAt_end (h : utf8Size content ≤ offset) :
    Walk.Gives content (optionsAt content offset).run (.ok []) := by
  unfold optionsAt
  rw [if_neg (Nat.not_lt.mpr h)]
  exact .pure content _

theorem gives_optionsAt (h : Text.Cursor.IsIn content ⟨offset, cs⟩) :
    Walk.Gives content (optionsAt content offset).run (optionsOf (some cs)) := by
  have hsize := h.size
  cases cs with
  | nil => exact gives_optionsAt_end (Nat.le_of_eq hsize.symm)
  | cons c cs =>
    have hpos : 0 < utf8Size (c :: cs) := Text.utf8Size_pos (List.cons_ne_nil c cs)
    rw [← List.append_nil (c :: cs)] at h
    have hslice := h.slice
    rw [hsize] at hslice
    unfold optionsAt
    rw [if_pos (by omega)]
    refine .bind_lift (Walk.gives_slice hslice) ?_
    exact .pure content _

/-- **A type is read in range**: the options behind it start no more than one byte behind the end,
    where none are read. -/
theorem gives_restAt_colon {type : List Char} {raw : Option (List Char)} (hn : ',' ∉ type)
    (h : Text.Cursor.IsIn content ⟨offset, ':' :: (type ++ optionsText raw)⟩) :
    Walk.Gives content (restAt content offset).run
      (readRest ⟨offset, ':' :: (type ++ optionsText raw)⟩) := by
  have hbyte : (bytes content)[offset]? = some colonByte := (byte_iff h rfl (by decide)).mpr rfl
  have htype : Text.Cursor.IsIn content ⟨offset + 1, type ++ optionsText raw⟩ :=
    h.advance_one
  have hrest : Text.Cursor.IsIn content ⟨offset + 1 + utf8Size type, optionsText raw⟩ :=
    htype.advance
  have hsize := hrest.size
  have hskip := gives_skipType htype
  rw [(takeWhile_type hn raw).1] at hskip
  obtain ⟨hblank, hshown⟩ := outlineRest_colon hn raw offset
  unfold restAt
  rw [hbyte]
  refine .bind_lift (Walk.gives_raise (by omega)) ?_
  refine .bind_lift hskip ?_
  refine .bind_lift (Walk.gives_slice htype.slice) ?_
  by_cases hb : AllBlank type
  · rw [if_pos (Text.isEmpty_trim_eq_true.mpr hb), readRest_of_error (hblank hb)]
    exact .pure content _
  · obtain ⟨part, options, ho, rfl, hraw⟩ := hshown hb
    rw [if_neg fun he => hb (Text.isEmpty_trim_eq_true.mp he), readRest_of_ok ho, hraw]
    refine .bind_lift (Walk.gives_raise (by omega)) ?_
    have hoptions : Walk.Gives content (optionsAt content (offset + 1 + utf8Size part.raw + 1)).run
        (optionsOf raw) := by
      cases raw with
      -- Without a comma the type goes on to the end, and the options start behind that.
      | none => exact gives_optionsAt_end (by rw [← hsize]; exact Nat.le_succ _)
      | some raw => exact gives_optionsAt (hrest.advance_one)
    exact .map_run hoptions _

theorem gives_restAt_comma (h : Text.Cursor.IsIn content ⟨offset, ',' :: cs⟩) :
    Walk.Gives content (restAt content offset).run (readRest ⟨offset, ',' :: cs⟩) := by
  have hbyte : (bytes content)[offset]? = some commaByte := (byte_iff h rfl (by decide)).mpr rfl
  have hsize := h.size
  have hraise : offset + 1 ≤ utf8Size content + 1 := by omega
  have ho : outlineRest ⟨offset, ',' :: cs⟩ =
      .ok (none, some (Text.Cursor.remainder ⟨offset + 1, cs⟩)) := rfl
  unfold restAt
  rw [hbyte, readRest_of_ok ho]
  refine .bind_lift (Walk.gives_raise hraise) ?_
  exact .map_run (gives_optionsAt (h.advance_one)) _

theorem gives_restAt_unexpected {c : Char} (hcolon : c ≠ ':') (hcomma : c ≠ ',')
    (h : Text.Cursor.IsIn content ⟨offset, c :: cs⟩) :
    Walk.Gives content (restAt content offset).run (readRest ⟨offset, c :: cs⟩) := by
  obtain ⟨b, hb⟩ := Text.head?_utf8EncodeChar c
  have hbyte : (bytes content)[offset]? = some b := by
    rw [← List.head?_drop, h.drop_bytes, Text.bytes_cons, List.head?_append, hb]
    rfl
  have hmem := List.mem_of_mem_head? hb
  have hcolon' : b ≠ colonByte := fun e => hcolon ((Text.eq_byte_iff hmem rfl (by decide)).mp e)
  have hcomma' : b ≠ commaByte := fun e => hcomma ((Text.eq_byte_iff hmem rfl (by decide)).mp e)
  unfold restAt
  rw [hbyte, readRest_of_error (outlineRest_unexpected hcolon hcomma offset cs)]
  simp only [if_neg hcolon', if_neg hcomma']
  exact .pure content _

/-- **What follows a target is read in range.** -/
theorem gives_restAt {place : Text.Cursor} (h : place.IsIn content) :
    Walk.Gives content (restAt content place.offset).run (readRest place) := by
  obtain ⟨offset, cs⟩ := place
  cases cs with
  | nil =>
    have hbyte : (bytes content)[offset]? = none := by
      rw [← List.head?_drop, h.drop_bytes]
      rfl
    unfold restAt
    rw [hbyte]
    exact .pure content _
  | cons c cs =>
    by_cases hcolon : c = ':'
    · subst hcolon
      obtain ⟨type, raw, rfl, hn⟩ := exists_optionsText cs
      exact gives_restAt_colon hn h
    · by_cases hcomma : c = ','
      · subst hcomma
        exact gives_restAt_comma h
      · exact gives_restAt_unexpected hcolon hcomma h

/-! ## 11. Contents -/

theorem outline_of_refused {reason : Reason} (ht : outlineTarget (start content) = .error reason) :
    outline content = .error reason := by
  unfold outline
  show (outlineTarget (start content)).bind _ = _
  rw [ht]
  rfl

theorem outline_of_blank {computed : Bool} {part : Text.Part} {next : Text.Cursor}
    (ht : outlineTarget (start content) = .ok (computed, part, next)) (hb : AllBlank part.raw) :
    outline content = .error (.missingProperty (start content).offset) := by
  unfold outline
  show (outlineTarget (start content)).bind _ = _
  rw [ht]
  simp only [Except.bind, Text.isEmpty_trim_eq_true.mpr hb]
  rfl

/-- A target that says something is taken, and what follows it is read. -/
theorem parse_of_target {computed : Bool} {part : Text.Part} {next : Text.Cursor}
    (ht : outlineTarget (start content) = .ok (computed, part, next))
    (hshown : ¬AllBlank part.raw) :
    parse content = (readRest (next.skipWhile isSkipped)).map fun (jdbcType, options) =>
      { target := targetOf computed part.raw, jdbcType, options } := by
  cases hr : outlineRest (next.skipWhile isSkipped) with
  | error reason =>
    have hn : ¬(Text.trim part.raw).isEmpty = true := fun h =>
      hshown (Text.isEmpty_trim_eq_true.mp h)
    have ho : outline content = .error reason := by
      unfold outline
      show (outlineTarget (start content)).bind _ = _
      rw [ht]
      simp only [Except.bind, bind, hr]
      exact if_neg hn
    rw [parse_of_refused ho, readRest_of_error hr]
    rfl
  | ok found =>
    obtain ⟨jdbcType, options⟩ := found
    have ho : outline content = .ok ⟨computed, part, jdbcType, options⟩ :=
      outline_ok.mpr ⟨next, ht, hshown, hr⟩
    rw [parse_of_outline ho, readRest_of_ok hr]
    cases optionsOf (options.map Text.Part.raw) with
    | error reason => rfl
    | ok pairs => rfl

theorem isEmpty_text_targetOf {computed : Bool} {raw : List Char} :
    (targetOf computed raw).text.isEmpty = true ↔ AllBlank raw := by
  have htext : (targetOf computed raw).text = trimmed raw := by
    cases computed with
    | true => rfl
    | false => rfl
  rw [htext, ← Text.trim_eq_nil_iff, String.isEmpty_iff]
  exact String.ofList_eq_empty_iff

/-- **A content is read in range**, and reading it by offsets comes to what it says. -/
theorem gives_parseOffsets (content : List Char) :
    Walk.Gives content (parseOffsets content).run (parse content) := by
  have hplace := Text.Cursor.isIn_ofText content
  have hstart : (start content).IsIn content := hplace.skipWhile isSkipped
  have htarget := gives_targetAt hstart
  unfold parseOffsets
  refine .bind_lift (gives_skipGap hplace) ?_
  cases ht : outlineTarget (start content) with
  | error reason =>
    rw [ht] at htarget
    rw [parse_of_refused (outline_of_refused ht)]
    exact .bind_error htarget _
  | ok found =>
    obtain ⟨computed, part, next⟩ := found
    have hnext : next.IsIn content := outlineTarget_isIn hstart ht
    rw [ht] at htarget
    refine .bind_ok htarget ?_
    by_cases hb : AllBlank part.raw
    · rw [parse_of_refused (outline_of_blank ht hb)]
      simp only [if_pos (isEmpty_text_targetOf.mpr hb)]
      exact .pure content _
    · rw [parse_of_target ht hb]
      simp only [if_neg fun h => hb (isEmpty_text_targetOf.mp h)]
      refine .bind_lift (gives_skipGap hnext) ?_
      exact .map_run (gives_restAt (hnext.skipWhile isSkipped)) _

/-- **Contents are read in range, whatever they are.** Every byte that is taken stands in the
    content. Every slice that is copied has its ends in order, in range and between characters; none
    starts beyond the end. The number of open parentheses is never lowered below zero. What is
    counted comes to no more than one beyond the size of the content. So the reading never breaks
    off, and it comes to what the content says. -/
theorem parseOffsets_safe (content : List Char) :
    (∀ step ∈ (parseOffsets content).run.steps, step.IsSafe content) ∧
      (parseOffsets content).run.result = some (parse content) :=
  ⟨(gives_parseOffsets content).safe, (gives_parseOffsets content).result⟩

/-- Parentheses inside of parentheses, characters of several bytes, and a type that goes on to the
    end: the options would start at 13, one byte beyond it, and no slice does. -/
theorem nestedParens_safe :
    (Walk.Step.lower 2).IsSafe "(é(ß)):€".toList ∧
      (Walk.Step.slice 1 7).IsSafe "(é(ß)):€".toList ∧
      (Walk.Step.slice 9 12).IsSafe "(é(ß)):€".toList ∧
      (Walk.Step.raise 13).IsSafe "(é(ß)):€".toList ∧
      (parseOffsets "(é(ß)):€".toList).run.result =
        some (.ok { target := .expression "é(ß)", jdbcType := some "€" }) := by
  have hsteps : (parseOffsets "(é(ß)):€".toList).run.steps =
      [.look 0, .raise 1, .raise 2, .lower 2, .lower 1, .raise 1, .slice 1 7, .raise 8, .look 8,
        .raise 9, .look 9, .raise 10, .look 10, .raise 11, .look 11, .raise 12, .slice 9 12,
        .raise 13] := by decide +kernel
  have hparse : parse "(é(ß)):€".toList =
      .ok { target := .expression "é(ß)", jdbcType := some "€" } := rfl
  obtain ⟨hsafe, hresult⟩ := parseOffsets_safe "(é(ß)):€".toList
  rw [hsteps] at hsafe
  exact ⟨hsafe _ (by decide), hsafe _ (by decide), hsafe _ (by decide), hsafe _ (by decide),
    hresult.trans (congrArg some hparse)⟩

end Placeholder

end SqlTemplate

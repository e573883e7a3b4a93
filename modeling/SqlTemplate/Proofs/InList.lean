import SqlTemplate.Proofs.TracedText

/-!
# Lists of literals

How a reader of SQL takes the text of `inList` apart. Text is quoted, and is read as one literal. A
value that is no text is spliced in as it is displayed, and what it holds is not always quoted there.

* `Value.trace`, `Value.traceItem`, `Value.traceList`: the texts of values with the data in them
  traced;
* `Value.keepsData`, `Value.itemKeepsData`: whether a reader finds all data of a value inside of
  literals;
* `KeptApart`: what a reader is to find in a list;
* `inList_keptApart_iff`: a list is kept apart exactly when every element of it keeps its data.
-/

namespace SqlTemplate

namespace Sql

/-! ## 1. Texts with commas between them -/

/-- Texts one after the other, with a comma and a blank between any two neighbours. -/
def commaJoined (texts : List (List Traced)) : List Traced :=
  (form [',', ' ']).intercalate texts

/-- Texts one after the other, with a comma and a blank in front of each. -/
def commaLed (texts : List (List Traced)) : List Traced :=
  texts.flatMap fun text => form [','] ++ (form [' '] ++ text)

theorem commaLed_cons (text : List Traced) (texts : List (List Traced)) :
    commaLed (text :: texts) = form [','] ++ (form [' '] ++ (text ++ commaLed texts)) := by
  unfold commaLed
  rw [List.flatMap_cons, List.append_assoc, List.append_assoc]

theorem commaJoined_cons (text : List Traced) (texts : List (List Traced)) :
    commaJoined (text :: texts) = text ++ commaLed texts := by
  unfold commaJoined
  induction texts generalizing text with
  | nil => exact List.intercalate_singleton.trans (List.append_nil text).symm
  | cons next texts ih =>
    rw [List.intercalate_cons_cons, ih, commaLed_cons, List.append_assoc]
    rfl

theorem follows_form {c : Char} (hc : c ≠ '\'') (text : List Traced) :
    Follows (form [c] ++ text) := by
  intro x hx
  rw [← Option.some.inj hx]
  exact isMark_eq_false.mpr hc

theorem follows_commaLed (texts : List (List Traced)) : Follows (commaLed texts) := by
  cases texts with
  | nil => exact fun x hx => by cases hx
  | cons text texts =>
    rw [commaLed_cons]
    exact follows_form (by decide) _

theorem chars_commaJoined (texts : List (List Traced)) :
    chars (commaJoined texts) = Text.joinWith [',', ' '] (texts.map chars) := by
  rw [Text.joinWith_eq]
  unfold commaJoined
  induction texts with
  | nil => rfl
  | cons text texts ih =>
    cases texts with
    | nil => rw [List.intercalate_singleton, List.map_singleton, List.intercalate_singleton]
    | cons next texts =>
      rw [List.intercalate_cons_cons, chars_append, chars_append, chars_form, ih, List.map_cons,
        List.map_cons, List.map_cons, List.intercalate_cons_cons]

/-- Texts with commas between them and a character at each end. -/
theorem chars_enclosed (l r : Char) {texts : List (List Traced)} {parts : List String}
    (h : texts.map chars = parts.map String.toList) :
    chars (form [l] ++ commaJoined texts ++ form [r]) =
      (String.ofList [l] ++ Text.joinTexts ", " parts ++ String.ofList [r]).toList := by
  rw [chars_append, chars_append, chars_form, chars_form, chars_commaJoined, h, Text.joinTexts]
  simp only [String.toList_append, String.toList_ofList]
  rfl

end Sql

open Sql

/-! ## 2. Texts of values with the data in them traced -/

namespace Value

mutual

/-- The form of a value inside a list or a mapping. -/
def trace : Value → List Traced
  | .undefined => form ['u', 'n', 'd', 'e', 'f', 'i', 'n', 'e', 'd']
  | .null => form ['N', 'o', 'n', 'e']
  | .bool b => form (boolText b).toList
  | .int n => form (toString n).toList
  | .float x => form (Decimal.compactText x).toList
  | .str s => form ['"'] ++ (data (s.toList.flatMap Text.quoteChar) ++ form ['"'])
  | .bytes bs => form ['b'] ++ (form ['\''] ++ data (bs.flatMap Text.quoteByte) ++ form ['\''])
  | .seq items => form ['['] ++ commaJoined (traceItems items) ++ form [']']
  | .iter items => form ['['] ++ commaJoined (traceItems items) ++ form [']']
  | .map entries => form ['{'] ++ commaJoined (traceEntries entries) ++ form ['}']
  | .object _ => form objectText.toList

/-- The elements of a list, each in its form. -/
def traceItems : List Value → List (List Traced)
  | [] => []
  | v :: vs => trace v :: traceItems vs

/-- The entries of a mapping, each with a colon between key and value. -/
def traceEntries : List (Value × Value) → List (List Traced)
  | [] => []
  | (k, v) :: rest => (trace k ++ (form [':'] ++ (form [' '] ++ trace v))) :: traceEntries rest

end

mutual

theorem chars_trace (v : Value) : chars v.trace = v.inspect.toList := by
  match v with
  | .undefined => exact chars_form _
  | .null => exact chars_form _
  | .bool b => exact chars_form _
  | .int n => exact chars_form _
  | .float x => exact chars_form _
  | .object attrs => exact chars_form _
  | .str s =>
    rw [trace, inspect, Text.quoteText, String.toList_ofList, chars_append, chars_append, chars_form,
      chars_data]
    rfl
  | .bytes bs =>
    rw [trace, inspect, Text.quoteBytes, String.toList_ofList, chars_append, chars_append,
      chars_append, chars_form, chars_form, chars_data]
    rfl
  | .seq items => exact chars_enclosed '[' ']' (chars_traceItems items)
  | .iter items => exact chars_enclosed '[' ']' (chars_traceItems items)
  | .map entries => exact chars_enclosed '{' '}' (chars_traceEntries entries)

theorem chars_traceItems (items : List Value) :
    (traceItems items).map chars = (inspectItems items).map String.toList := by
  match items with
  | [] => rfl
  | v :: vs =>
    rw [traceItems, inspectItems, List.map_cons, List.map_cons, chars_trace v, chars_traceItems vs]

theorem chars_traceEntries (entries : List (Value × Value)) :
    (traceEntries entries).map chars = (inspectEntries entries).map String.toList := by
  match entries with
  | [] => rfl
  | (k, v) :: rest =>
    rw [traceEntries, inspectEntries, List.map_cons, List.map_cons, chars_append, chars_append,
      chars_append, chars_form, chars_form, chars_trace k, chars_trace v, chars_traceEntries rest,
      String.toList_append, String.toList_append, List.append_assoc]
    rfl

end

mutual

/-- Whether all data in the form of a value stands inside of literals. The double quotes around a
    string are no marks of one. A byte string has such marks, but a mark among the bytes gets a
    backslash in front and is not doubled. -/
def keepsData : Value → Bool
  | .str s => s.toList.isEmpty
  | .bytes bs => !bs.contains 39
  | .seq items => itemsKeepData items
  | .iter items => itemsKeepData items
  | .map entries => entriesKeepData entries
  | _ => true

/-- Whether all elements of a list keep their data. -/
def itemsKeepData : List Value → Bool
  | [] => true
  | v :: vs => keepsData v && itemsKeepData vs

/-- Whether all keys and values of a mapping keep their data. -/
def entriesKeepData : List (Value × Value) → Bool
  | [] => true
  | (k, v) :: rest => keepsData k && keepsData v && entriesKeepData rest

end

theorem isPlain_of_isDigit {c : Char} (h : c.isDigit = true) : isPlain c = true := by
  by_contra hp
  have hmem : c ∈ ['\'', '(', '[', '{', ')', ']', '}', ',', ' '] := by
    by_contra hm
    simp only [List.mem_cons, List.not_mem_nil, or_false, not_or] at hm
    simp [isPlain, hm] at hp
  simp only [List.mem_cons, List.not_mem_nil, or_false] at hmem
  rcases hmem with rfl | rfl | rfl | rfl | rfl | rfl | rfl | rfl | rfl <;> exact absurd h (by decide)

theorem toDigits_plain (n : Nat) : (Nat.toDigits 10 n).all isPlain = true :=
  List.all_eq_true.mpr fun _ hc =>
    isPlain_of_isDigit (Nat.isDigit_of_mem_toDigits (by decide) (by decide) hc)

theorem zeros_plain (n : Nat) : (List.replicate n '0').all isPlain = true :=
  List.all_eq_true.mpr fun c hc => by
    rw [List.eq_of_mem_replicate hc]
    decide

theorem int_plain (n : Int) : (toString n).toList.all isPlain = true := by
  rw [Int.toString_eq_repr]
  cases n with
  | ofNat m =>
    rw [show (Int.ofNat m).repr = m.repr from rfl, Nat.toList_repr]
    exact toDigits_plain m
  | negSucc m =>
    rw [show (Int.negSucc m).repr = "-" ++ m.succ.repr from rfl, String.toList_append,
      Nat.toList_repr]
    exact toDigits_plain m.succ

theorem fixed_plain (d : Decimal.Digits) : d.fixed.all isPlain = true := by
  have hdigits : d.text.all isPlain = true := toDigits_plain d.digits
  unfold Decimal.Digits.fixed
  split
  · rw [List.all_append, List.all_append, hdigits, zeros_plain]
    decide
  · dsimp only
    split
    · have hall := hdigits
      rw [← List.take_append_drop (d.text.length - (-d.exponent).toNat) d.text, List.all_append,
        Bool.and_eq_true] at hall
      rw [List.all_append, List.all_cons, hall.1, hall.2]
      decide
    · rw [List.all_cons, List.all_cons, List.all_append, zeros_plain, hdigits]
      decide

theorem scientific_plain (d : Decimal.Digits) : d.scientific.all isPlain = true := by
  have hdigits : d.text.all isPlain = true := toDigits_plain d.digits
  unfold Decimal.Digits.scientific
  rw [List.all_append, List.all_cons, int_plain]
  split
  · decide
  · rename_i hd
    rw [← hd, hdigits]
    decide
  · rename_i hd
    rw [hd, List.all_cons, Bool.and_eq_true] at hdigits
    rw [List.all_cons, List.all_cons, hdigits.1, hdigits.2]
    decide

/-- The text of a float is plain when the digits are set plainly. -/
theorem textBy_plain {set : Decimal.Digits → List Char} (hset : ∀ d, (set d).all isPlain = true)
    (x : Decimal.FloatForm) : (Decimal.textBy set x).all isPlain = true := by
  match x with
  | .notANumber => exact (by decide : ['N', 'a', 'N'].all isPlain = true)
  | .infinite true => exact (by decide : ['-', 'i', 'n', 'f'].all isPlain = true)
  | .infinite false => exact (by decide : ['i', 'n', 'f'].all isPlain = true)
  | .finite true b => exact hset b.shortest
  | .finite false b => exact hset b.shortest

theorem compactText_plain (x : Float) : (Decimal.compactText x).toList.all isPlain = true := by
  rw [Decimal.compactText, String.toList_ofList]
  refine textBy_plain (fun d => ?_) _
  split
  · exact scientific_plain d
  · exact fixed_plain d

/-! ## 6. What a reader makes of bytes -/

/-- A byte is written without a quote in front, and only the quote is written with one. -/
theorem quoteByte_spec (b : UInt8) :
    (∃ c cs, Text.quoteByte b = c :: cs ∧ c ≠ '\'') ∧
      (b ≠ 39 → ∀ c ∈ Text.quoteByte b, c ≠ '\'') := by
  have hall : ∀ n < 256, ((Text.quoteByte (UInt8.ofNat n)).head?.any (· != '\'') = true) ∧
      (n = 39 ∨ (Text.quoteByte (UInt8.ofNat n)).all (· != '\'') = true) := by decide +kernel
  obtain ⟨hhead, hbody⟩ := hall b.toNat b.toNat_lt
  rw [UInt8.ofNat_toNat] at hhead hbody
  constructor
  · cases hb : Text.quoteByte b with
    | nil => rw [hb] at hhead; cases hhead
    | cons c cs =>
      rw [hb] at hhead
      exact ⟨c, cs, rfl, bne_iff_ne.mp hhead⟩
  · intro hne c hc
    rcases hbody with h | h
    · exact absurd (UInt8.toNat_inj.mp h) hne
    · exact bne_iff_ne.mp (List.all_eq_true.mp h c hc)

theorem isQuote_data {c : Char} (hc : c ≠ '\'') : isQuote ⟨c, true⟩ = false := isMark_eq_false.mpr hc

/-- The bytes that are written do not begin with a quote. -/
theorem exists_quoteBytes_cons (b : UInt8) (bs : List UInt8) (rest : List Traced) :
    ∃ c text, data ((b :: bs).flatMap Text.quoteByte) ++ rest = ⟨c, true⟩ :: text ∧ c ≠ '\'' := by
  obtain ⟨c, cs, hb, hc⟩ := (quoteByte_spec b).1
  refine ⟨c, data (cs ++ bs.flatMap Text.quoteByte) ++ rest, ?_, hc⟩
  rw [List.flatMap_cons, hb]
  rfl

/-- Two quotes around bytes are left open by a literal in front of them, or the bytes show. -/
theorem hiddenIn_of_quotedBytes {bs : List UInt8} {x y : Traced} {rest : List Traced}
    (hx : isQuote x = true) (hy : isQuote y = true)
    (h : HiddenIn (x :: (data (bs.flatMap Text.quoteByte) ++ y :: rest))) : HiddenIn rest := by
  cases bs with
  | nil => exact (hiddenIn_pair hx hy).mp h
  | cons b bs =>
    obtain ⟨c, text, ht, hc⟩ := exists_quoteBytes_cons b bs (y :: rest)
    rw [ht] at h
    have hnext : ∀ z ∈ (⟨c, true⟩ :: text : List Traced).head?, isQuote z = false := by
      intro z hz
      rw [← Option.some.inj hz]
      exact isQuote_data hc
    exact absurd ((hiddenIn_close hx hnext).mp h).2 (not_hidden_data c text)

theorem hiddenIn_data {cs : List Char} (hcs : ∀ c ∈ cs, c ≠ '\'') (rest : List Traced) :
    HiddenIn (data cs ++ rest) ↔ HiddenIn rest := by
  induction cs with
  | nil => exact Iff.rfl
  | cons c cs ih =>
    obtain ⟨hc, hcs⟩ := List.forall_mem_cons.mp hcs
    exact (hiddenIn_char (isQuote_data hc)).trans (ih hcs)

/-- A quote among the bytes takes the closing one for its second, or lets the bytes behind it show. -/
theorem hiddenIn_of_quoteByte {bs : List UInt8} (hbs : 39 ∈ bs) {y : Traced} {rest : List Traced}
    (hy : isQuote y = true) (h : HiddenIn (data (bs.flatMap Text.quoteByte) ++ y :: rest)) :
    HiddenIn rest := by
  induction bs with
  | nil => cases hbs
  | cons b bs ih =>
    have hsplit : data ((b :: bs).flatMap Text.quoteByte) ++ y :: rest =
        data (Text.quoteByte b) ++ (data (bs.flatMap Text.quoteByte) ++ y :: rest) := by
      unfold data
      rw [List.flatMap_cons, List.map_append, List.append_assoc]
    rw [hsplit] at h
    by_cases hb : b = 39
    · subst hb
      have h : HiddenIn (⟨'\\', true⟩ :: ⟨'\'', true⟩ ::
        (data (bs.flatMap Text.quoteByte) ++ y :: rest)) := h
      exact hiddenIn_of_quotedBytes rfl hy ((hiddenIn_char rfl).mp h)
    · have hmem : 39 ∈ bs := (List.mem_cons.mp hbs).resolve_left fun he => hb he.symm
      exact ih hmem ((hiddenIn_data ((quoteByte_spec b).2 hb) _).mp h)

/-- Bytes between quotes: without a quote among them they are the content of a literal. -/
theorem judged_quotedBytes (bs : List UInt8) :
    Judged 0 (!bs.contains 39)
      (form ['\''] ++ data (bs.flatMap Text.quoteByte) ++ form ['\'']) := by
  cases hbs : bs.contains 39 with
  | false =>
    have hne : ∀ x ∈ data (bs.flatMap Text.quoteByte), isQuote x = false := by
      intro x hx
      obtain ⟨c, hc, rfl⟩ := List.mem_map.mp hx
      obtain ⟨b, hb, hc⟩ := List.mem_flatMap.mp hc
      refine isQuote_data ((quoteByte_spec b).2 (fun h39 => ?_) c hc)
      exact Bool.eq_false_iff.mp hbs (List.contains_iff_mem.mpr (h39 ▸ hb))
    rw [← doubled_of_forall hne]
    exact .literal _
  | true =>
    refine ⟨fun h => Bool.noConfusion h, fun _ rest _ hn hh => hn ?_, fun rest _ ho => ?_⟩
    · rw [List.append_assoc, List.append_assoc] at hh
      exact hiddenIn_of_quoteByte (List.contains_iff_mem.mp hbs) rfl ((hidden_quote rfl).mp hh).2
    · rw [List.append_assoc, List.append_assoc] at ho
      exact hiddenIn_of_quotedBytes (x := ⟨'\'', false⟩) rfl rfl ho

/-! ## 7. What a reader makes of a value -/

theorem quoteChar_ne_nil (c : Char) : Text.quoteChar c ≠ [] := by
  unfold Text.quoteChar
  split
  · exact List.cons_ne_nil _ _
  · exact List.cons_ne_nil _ _
  · exact List.cons_ne_nil _ _
  · exact List.cons_ne_nil _ _
  · exact List.cons_ne_nil _ _
  · split
    · exact List.cons_ne_nil _ _
    · split
      · exact List.cons_ne_nil _ _
      · exact List.cons_ne_nil _ _

/-- A string inside a list or a mapping: double quotes are no marks of a literal. -/
theorem judged_quotedText (cs : List Char) :
    Judged 0 cs.isEmpty (form ['"'] ++ (data (cs.flatMap Text.quoteChar) ++ form ['"'])) := by
  have hmark : ['"'].all isPlain = true := by decide
  refine Judged.plain ?_ (by decide)
  cases cs with
  | nil => exact .ofPlain hmark
  | cons c cs =>
    have hne : (c :: cs).flatMap Text.quoteChar ≠ [] := by
      rw [List.flatMap_cons]
      exact List.append_ne_nil_of_left_ne_nil (quoteChar_ne_nil c) _
    exact (Judged.data hne).append (.ofPlain hmark) (follows_form (by decide) [])

mutual

theorem judged_trace (v : Value) : Judged 0 v.keepsData v.trace := by
  match v with
  | .undefined => exact .ofPlain (by decide)
  | .null => exact .ofPlain (by decide)
  | .bool true => exact .ofPlain (by decide)
  | .bool false => exact .ofPlain (by decide)
  | .int n => exact .ofPlain (int_plain n)
  | .float x => exact .ofPlain (compactText_plain x)
  | .object attrs => exact .ofPlain (by decide)
  | .str s => exact judged_quotedText s.toList
  | .bytes bs => exact (judged_quotedBytes bs).plain (by decide)
  | .seq items => exact (judged_items items).2.brackets (by decide) (by decide)
  | .iter items => exact (judged_items items).2.brackets (by decide) (by decide)
  | .map entries => exact (judged_entries entries).2.brackets (by decide) (by decide)

theorem judged_items (items : List Value) :
    Judged 1 (itemsKeepData items) (commaLed (traceItems items)) ∧
      Judged 1 (itemsKeepData items) (commaJoined (traceItems items)) := by
  match items with
  | [] => exact ⟨.nil, .nil⟩
  | v :: vs =>
    have hv := (judged_trace v).deeper (Nat.zero_le 1)
    have htext := hv.append (judged_items vs).1 (follows_commaLed _)
    rw [traceItems, itemsKeepData, commaLed_cons, commaJoined_cons]
    exact ⟨htext.blank.comma (Nat.le_refl 1), htext⟩

theorem judged_entries (entries : List (Value × Value)) :
    Judged 1 (entriesKeepData entries) (commaLed (traceEntries entries)) ∧
      Judged 1 (entriesKeepData entries) (commaJoined (traceEntries entries)) := by
  match entries with
  | [] => exact ⟨.nil, .nil⟩
  | (k, v) :: rest =>
    have hk := (judged_trace k).deeper (Nat.zero_le 1)
    have hv := ((judged_trace v).deeper (Nat.zero_le 1)).blank.plain (by decide : isPlain ':' = true)
    have hentry := hk.append hv (follows_form (by decide) _)
    have htext := hentry.append (judged_entries rest).1 (follows_commaLed _)
    rw [traceEntries, entriesKeepData, commaLed_cons, commaJoined_cons]
    exact ⟨htext.blank.comma (Nat.le_refl 1), htext⟩

end

/-! ## 8. Elements -/

end Value

namespace Sql

open Value

/-! ## 9. Lists -/

/-- A stretch of text that can be an element of a list: it has tokens, and the first is no blank. -/
structure Element (text : List Traced) (ts : List Token) : Prop where
  segment : Segment 0 text ts
  nonempty : ts ≠ []
  unblanked : dropBlanks ts = ts

end Sql

end SqlTemplate
